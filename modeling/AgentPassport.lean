import AgentPassport.EffectLineageOrder
import AgentPassport.RegistryOperations
import AgentPassport.GroupCommit
import AgentPassport.SingleChain
import AgentPassport.ContextCommitment
import AgentPassport.PassportBinding
import AgentPassport.PaymentVerifiers
import AgentPassport.SettlementMerkle
import AgentPassport.SpendLimits
import AgentPassport.StatusOutcomes
import AgentPassport.PauseInstants
import AgentPassport.BoundRecords
import AgentPassport.AttestationStanding
import AgentPassport.AxisOrder
import AgentPassport.ProjectionAnswers
import AgentPassport.ResidualPooling
import AgentPassport.AppendedSignature
import AgentPassport.DidUri
import AgentPassport.DerivedTaint
import AgentPassport.FrameChain
import AgentPassport.AuthorityViews
import AgentPassport.EvidenceLaws
import AgentPassport.ApprovalSentences
import AgentPassport.CanonicalVariant
import AgentPassport.DuplicateScan
import AgentPassport.RecoveryOrder
import AgentPassport.ScopeLookup
import AgentPassport.SnapshotWalk
import AgentPassport.TrieSearch
import AgentPassport.PolicyBundleFiles
import AgentPassport.BudgetCalls
import AgentPassport.DidKeys
import AgentPassport.AdvisorUses
import AgentPassport.EvidenceFreshness
import AgentPassport.HexFields
import AgentPassport.TimeAnchor
import AgentPassport.UnknownStage
import AgentPassport.PreAuthorization
import AgentPassport.InvoiceFinality
import AgentPassport.NanoUnits
import AgentPassport.RequestIdentity
import AgentPassport.KeySelection
import AgentPassport.ReceiptInclusion
import AgentPassport.TraceBeneficiary
import AgentPassport.IdentifierPins
import AgentPassport.DataNarrowing
import AgentPassport.ShadowedRules
import AgentPassport.ResponsibilityCascade
import AgentPassport.NormalizedConstraints
import AgentPassport.CanonicalTimeline
import AgentPassport.RevokedChains
import AgentPassport.VersionHistory
import AgentPassport.HandleNames
