import AgentPassport.BudgetLedger

/-! Selection of the one chain an action is decided against, out of those an agent holds
(`v2/chain-selection/select.ts`). The ledger is the reserver the caller passes and is handed on
from one evaluation to the next. -/
namespace AgentPassport.ChainSelection
open JsText Js CanonicalJcs PlainData DelegationScope DelegationSchema DelegationVerify DelegationIssue
open BudgetLedger Outcome

inductive ChainSelectionFailureCode where
  | heldSetEmpty | heldSetOverCeiling | heldChainMalformed | duplicateChainId | invalidActionRequirement
  | preferredChainNotHeld | noValidChain | noChainCoversAction | selectionUndecided
  deriving DecidableEq

def HELD_SET_CEILING : Nat := 256

/-- A `chain` member; a revoked proxy is told apart, since `Array.isArray` throws on it. -/
inductive ChainValue where
  | value (v : CallerValue)
  | revokedProxy

def ChainValue.caller : ChainValue → CallerValue
  | .value v => v
  | .revokedProxy => .proxy

def ChainValue.isUndefined : ChainValue → Bool
  | .value .undefined => true
  | _ => false

/-- An entry of the held set; a member whose getter throws is `none`. -/
inductive HeldEntry where
  | notObject
  | object (chainId : Option CallerValue) (chain : Option ChainValue)

/-- The held set as it is read: its length, then a slice, which a getter that throws prevents. -/
inductive HeldSet where
  | notArray
  | array (length : Nat) (slice : Option (List HeldEntry))

/-- `absent` is undefined or null. -/
inductive SpendInput where
  | absent
  | notObject
  | object (unit amount actionRef : Option CallerValue)

/-- `absent` is undefined, null, or a getter that throws. -/
inductive FallbackInput where
  | absent
  | given (authorizationRef : Option CallerValue)

structure ChainSelectionInput where
  held : HeldSet
  /-- A slice of the needed grants, if they are an array that can be read. -/
  requiredGrants : Option (List CallerValue)
  requiredSpend : SpendInput
  options : AuthorityChainVerificationOptions

structure ChainSelectionWithFallbackInput extends ChainSelectionInput where
  preferredChainId : Option CallerValue
  fallback : FallbackInput

structure ReadHeldChain where
  chainId : Str
  chain : ChainValue

structure RequiredSpend where
  unit : Str
  amount : Str
  actionRef : Str

structure Requirement where
  grants : List Str
  spend : Option RequiredSpend

def text? : CallerValue → Option Str
  | .str s => some s
  | _ => none

def readEntry : HeldEntry → Option ReadHeldChain
  | .object (some chainId) (some chain) => do
    let id ← text? chainId
    if id = [] || chain.isUndefined then none else return ⟨id, chain⟩
  | _ => none

/-- The loop over the entries; `seen` are the ids before. -/
def readEntries (seen : List Str) : List HeldEntry → Except ChainSelectionFailureCode (List ReadHeldChain)
  | [] => .ok []
  | entry :: rest =>
    match readEntry entry with
    | none => .error .heldChainMalformed
    | some held =>
      if held.chainId ∈ seen then .error .duplicateChainId
      else do
        let output ← readEntries (held.chainId :: seen) rest
        return held :: output

def readHeldSet : HeldSet → Except ChainSelectionFailureCode (List ReadHeldChain)
  | .notArray => .error .heldSetEmpty
  | .array length slice =>
    if HELD_SET_CEILING < length then .error .heldSetOverCeiling
    else if length < 1 then .error .heldSetEmpty
    else match slice with
      | none => .error .heldSetEmpty
      | some entries => readEntries [] entries

def readGrants : List CallerValue → Option (List Str)
  | [] => some []
  | grant :: rest => do
    let want ← text? grant
    if !isValidScopeGrant want then none
    else do
      let needed ← readGrants rest
      return want :: needed

/-- `QUANTITY`. -/
def isQuantity (s : Str) : Bool := s = lit "0" || (!s.isEmpty && s.all isDigit && s.head? ≠ some 0x30)

def readRequiredSpend : SpendInput → Option (Option RequiredSpend)
  | .absent => some none
  | .notObject => none
  | .object unit amount actionRef => do
    let unit ← unit.bind text?
    let amount ← amount.bind text?
    let actionRef ← actionRef.bind text?
    if unit = [] || !isQuantity amount || !isLowerHexOf 64 actionRef then none
    else return some ⟨unit, amount, actionRef⟩

def readRequirement (requiredGrants : Option (List CallerValue)) (requiredSpend : SpendInput) :
    Option Requirement := do
  let grants ← requiredGrants
  let needed ← readGrants grants
  let spend ← readRequiredSpend requiredSpend
  return ⟨needed, spend⟩

inductive ChainEvaluationOutcome where
  | authorizes | refuses | undecided
  deriving DecidableEq

/-- The check that decided a chain: of the verifier, of the reserver, or of this module. -/
inductive EvaluationCode where
  | failure (code : AuthorityFailureCode)
  | state (state : AuthorityValidationState)
  | budget (code : BudgetCode)
  | scopeCovered | scopeNotCovered | chainSetPresentedAsOne | spendLedgerUnavailable
  deriving DecidableEq

structure ChainEvaluation where
  chainId : Str
  outcome : ChainEvaluationOutcome
  code : EvaluationCode
  chainState : Option AuthorityValidationState
  deriving DecidableEq

structure Evaluated where
  evaluation : ChainEvaluation
  result : Option AuthorityValidationResult

/-- An exception of the canonicalizer, or a `TypeError`. -/
inductive Thrown where
  | canonical (e : JcsError)
  | typeError

/-- How the evaluation of a chain ends before its spend is looked at. -/
inductive Exit where
  | ended (evaluated : Evaluated)
  | threw (t : Thrown)

def refuse {α : Type} (entry : ReadHeldChain) (code : EvaluationCode) (chainState : Option AuthorityValidationState) :
    Except Exit α :=
  .error (.ended ⟨⟨entry.chainId, .refuses, code, chainState⟩, none⟩)

def undecided {α : Type} (entry : ReadHeldChain) (code : EvaluationCode)
    (chainState : Option AuthorityValidationState) : Except Exit α :=
  .error (.ended ⟨⟨entry.chainId, .undecided, code, chainState⟩, none⟩)

/-- An `invalid` chain is refused; any other state is no conclusion. -/
def endOn {α : Type} (entry : ReadHeldChain) (code : EvaluationCode) (state : AuthorityValidationState) :
    Except Exit α :=
  if state = .invalid then refuse entry code (some state) else undecided entry code (some state)

/-- `Array.isArray(chain) ? chain : []`; the verifier refuses a proxy of an array as it refuses `[]`. -/
def presented : ChainValue → Except Exit CallerValue
  | .revokedProxy => .error (.threw .typeError)
  | .value (.arr header slots) => .ok (.arr header slots)
  | .value _ => .ok (plain (.arr []))

/-- The `parent_delegation_id` of the member is null. -/
def isRoot : JsValue → Bool
  | .obj members =>
    match field members "parent_delegation_id" with
    | .null => true
    | _ => false
  | _ => false

def coversAll (grants needed : List Str) : Bool :=
  needed.all (fun want => grants.any (fun grant => scopeGrantCovers grant want))

section
variable (P : Primitives) (options : AuthorityChainVerificationOptions)

def verify (chain : CallerValue) : Except Exit AuthorityValidationResult :=
  match verifyAuthorityDelegationChain P options chain with
  | .ok result => .ok result
  | .error e => .error (.threw (.canonical e))

/-- Presentation, verification and scope: the records of a chain that passes, and its result. -/
def evaluateScope (entry : ReadHeldChain) (needed : List Str) :
    Except Exit (List JsValue × AuthorityValidationResult) :=
  match readPlainDataChainContainer 1 256 entry.chain.caller with
  | .error _ => do
    let chain ← presented entry.chain
    let result ← verify P options chain
    endOn entry (result.failures.head?.elim (.failure .SCHEMA_INVALID) (fun f => .failure f.code)) result.state
  | .ok container =>
    let records := container.map snapshotPlainData
    -- a root after the first member: two chains presented as one
    if records.tail.any isRoot then refuse entry .chainSetPresentedAsOne none
    else do
      let result ← verify P options (plain (.arr records))
      if result.state ≠ .valid then
        endOn entry (result.failures.head?.elim (.state result.state) (fun f => .failure f.code)) result.state
      else match records.getLast?.bind readDelegation with
        | none => .error (.threw .typeError)
        | some leaf =>
          if coversAll leaf.authority.scope.grants needed then return (records, result)
          else refuse entry .scopeNotCovered (some result.state)

/-- `reserve` on a caller's ledger, for the spend an action requires. -/
def reserveSpend (L : Ledger) (chain : CallerValue) (spend : RequiredSpend) :
    Except JcsError (BudgetOperationResult × Ledger) :=
  reserve P L chain (.str spend.actionRef) (.str spend.unit) (.str spend.amount)

def evaluateHeldChain (entry : ReadHeldChain) (needed : List Str) (spend : Option RequiredSpend)
    (reserveBudget : Option Ledger) : Except Thrown (Evaluated × Option Ledger) :=
  match evaluateScope P options entry needed with
  | .error (.ended evaluated) => .ok (evaluated, reserveBudget)
  | .error (.threw t) => .error t
  | .ok (records, result) =>
    match spend with
    | none => .ok (⟨⟨entry.chainId, .authorizes, .scopeCovered, some result.state⟩, some result⟩, reserveBudget)
    | some spend =>
      match reserveBudget with
      | none => .ok (⟨⟨entry.chainId, .undecided, .spendLedgerUnavailable, some result.state⟩, none⟩, none)
      | some ledger =>
        match reserveSpend P ledger (plain (.arr records)) spend with
        | .error _ =>
          .ok (⟨⟨entry.chainId, .undecided, .spendLedgerUnavailable, some result.state⟩, none⟩, some ledger)
        | .ok (reservation, ledger) =>
          if reservation.ok then
            .ok (⟨⟨entry.chainId, .authorizes, .budget reservation.code, some result.state⟩, some result⟩, some ledger)
          else
            .ok (⟨⟨entry.chainId, .refuses, .budget reservation.code, some result.state⟩, none⟩, some ledger)

end

inductive SelectionOutcome where
  | selected (chainId : Str) (result : AuthorityValidationResult) (evaluations : List ChainEvaluation)
      (switchedFrom fallbackRef : Option Str) (fallbackConsidered : Option Bool)
  | failed (code : ChainSelectionFailureCode) (evaluations : List ChainEvaluation)
      (fallbackConsidered : Option Bool)

def SelectionOutcome.chainId : SelectionOutcome → Option Str
  | .selected chainId _ _ _ _ _ => some chainId
  | .failed _ _ _ => none

def SelectionOutcome.evaluations : SelectionOutcome → List ChainEvaluation
  | .selected _ _ evaluations _ _ _ => evaluations
  | .failed _ evaluations _ => evaluations

def failureFor (evaluations : List ChainEvaluation) : ChainSelectionFailureCode :=
  if evaluations.any (fun item => item.outcome = .undecided) then .selectionUndecided
  else if evaluations.any (fun item => item.chainState = some .valid) then .noChainCoversAction
  else .noValidChain

section
variable (P : Primitives) (options : AuthorityChainVerificationOptions) (requirement : Requirement)

/-- A turn of the first pass: a candidate is checked with no spend, so that no ledger is touched. -/
def scopePass (_ : Unit) (entry : ReadHeldChain) :
    Except Thrown (ChainEvaluation × Option (Option AuthorityValidationResult) × Unit) := do
  let (evaluated, _) ← evaluateHeldChain P options entry requirement.grants none none
  return (evaluated.evaluation, if evaluated.evaluation.outcome = .authorizes then some evaluated.result else none, ())

def selectChainForAction (input : ChainSelectionInput) (reserveBudget : Option Ledger) :
    Except Thrown (SelectionOutcome × Option Ledger) :=
  match readHeldSet input.held with
  | .error code => .ok (.failed code [] none, reserveBudget)
  | .ok held =>
    match readRequirement input.requiredGrants input.requiredSpend with
    | none => .ok (.failed .invalidActionRequirement [] none, reserveBudget)
    | some requirement => do
      let (evaluations, chosen, _) ← firstSuccess (scopePass P input.options requirement) () held
      match chosen with
      | some (entry, some result) =>
        match requirement.spend with
        | none => return (.selected entry.chainId result evaluations none none none, reserveBudget)
        | some spend => do
          -- the winner again, with the spend attached: the only reservation of the call
          let (admitted, reserveBudget) ←
            evaluateHeldChain P input.options entry requirement.grants (some spend) reserveBudget
          let evaluations := evaluations.dropLast ++ [admitted.evaluation]
          match admitted.evaluation.outcome, admitted.result with
          | .authorizes, some result =>
            return (.selected entry.chainId result evaluations none none none, reserveBudget)
          | _, _ => return (.failed (failureFor evaluations) evaluations none, reserveBudget)
      | _ => return (.failed (failureFor evaluations) evaluations none, reserveBudget)

/-- `decide`: the evaluation that is recorded, and the result if the chain authorizes the action. -/
def decideEntry (reserveBudget : Option Ledger) (entry : ReadHeldChain) :
    Except Thrown (ChainEvaluation × Option AuthorityValidationResult × Option Ledger) := do
  let (checked, _) ← evaluateHeldChain P options entry requirement.grants none none
  if checked.evaluation.outcome ≠ .authorizes then return (checked.evaluation, none, reserveBudget)
  else match requirement.spend with
    | none => return (checked.evaluation, checked.result, reserveBudget)
    | some spend => do
      let (admitted, reserveBudget) ←
        evaluateHeldChain P options entry requirement.grants (some spend) reserveBudget
      return (admitted.evaluation,
        if admitted.evaluation.outcome = .authorizes then admitted.result else none, reserveBudget)

def preferredEntry (preferredChainId : Option CallerValue) (held : List ReadHeldChain) : Option ReadHeldChain := do
  let id ← preferredChainId.bind text?
  held.find? (fun entry => entry.chainId = id)

/-- The reference of an authorization; one without a usable reference is refused. -/
def readFallback : FallbackInput → Except ChainSelectionFailureCode (Option Str)
  | .absent => .ok none
  | .given authorizationRef =>
    match authorizationRef.bind text? with
    | some ref => if ref = [] then .error .invalidActionRequirement else .ok (some ref)
    | none => .error .invalidActionRequirement

def selectWithFallback (input : ChainSelectionWithFallbackInput) (reserveBudget : Option Ledger) :
    Except Thrown (SelectionOutcome × Option Ledger) :=
  match readHeldSet input.held with
  | .error code => .ok (.failed code [] none, reserveBudget)
  | .ok held =>
    match readRequirement input.requiredGrants input.requiredSpend with
    | none => .ok (.failed .invalidActionRequirement [] none, reserveBudget)
    | some requirement =>
      match preferredEntry input.preferredChainId held with
      | none => .ok (.failed .preferredChainNotHeld [] none, reserveBudget)
      | some preferred =>
        match readFallback input.fallback with
        | .error code => .ok (.failed code [] none, reserveBudget)
        | .ok fallbackRef => do
          let (first, result, reserveBudget) ← decideEntry P input.options requirement reserveBudget preferred
          match result, fallbackRef with
          | some result, _ =>
            return (.selected preferred.chainId result [first] none none (some fallbackRef.isSome), reserveBudget)
          | none, none => return (.failed (failureFor [first]) [first] (some false), reserveBudget)
          | none, some ref => do
            let (evaluations, chosen, reserveBudget) ← firstSuccess (decideEntry P input.options requirement)
              reserveBudget (held.filter (fun entry => entry.chainId ≠ preferred.chainId))
            match chosen with
            | some (entry, result) =>
              return (.selected entry.chainId result (first :: evaluations) (some preferred.chainId) (some ref)
                (some true), reserveBudget)
            | none =>
              return (.failed (failureFor (first :: evaluations)) (first :: evaluations) (some true), reserveBudget)

end

end AgentPassport.ChainSelection
