import AgentPassport.JsArithmetic
import AgentPassport.LegacyCanonical
import AgentPassport.LinkedVersions
import AgentPassport.OrderedMap

/-! Versioned delegations (`v2/delegation-v2.ts`, `refreshDelegation` of
`v2/revocation-enforcement/index.ts` and what they use of `v2/bridge.ts`). Random identifiers
and clock readings are arguments; a time is the number `getTime` gives. -/
namespace AgentPassport.DelegationVersions
open JsText Js LegacyCanonical

/-- The text of a finite number, SHA-256 in hexadecimal, Ed25519 (signing fails on a malformed
key) and `new Date(text).getTime()`. -/
structure Runtime where
  numText : Double → Str
  sha256 : Str → Str
  sign : Str → Str → Option Str
  verify : Str → Str → Str → Bool
  getTime : Str → JsNumber

inductive V2DelegationStatus where
  | active | expired | revoked | superseded | grace_period
  deriving DecidableEq

inductive AssuranceClass where
  | mechanically_enforceable | evidentially_auditable
  deriving DecidableEq

structure PolicyContext where
  policy_version : Str
  values_floor_version : Str
  trust_epoch : JsNumber
  issuer_id : Str
  created_at : Str
  valid_from : Str
  valid_until : Str

/-- A scope; `other` are the members that are only signed. -/
structure V2ScopeDefinition where
  action_categories : List Str
  semantic_boundaries : Option (List Str)
  other : List (Str × JsValue)

structure V2Delegation where
  id : Str
  version : Nat
  supersedes : Option Str
  supersession_justification : Option Str
  delegator : Str
  delegatee : Str
  scope : V2ScopeDefinition
  policy_context : PolicyContext
  status : V2DelegationStatus
  renewal_reason : Option Str
  expansion_reviewer : Option Str
  expansion_review_sig : Option Str
  assurance_class : AssuranceClass
  aud : Option JsValue
  signature : Str

inductive VersionError where
  | notFound (id : Str)
  | supersedeRevoked
  | justification
  | reviewer
  | reviewerIndependent
  | renewalReason
  | canonical (e : LegacyError)
  | signing

def VersionError.message : VersionError → Str
  | .notFound id => lit "Delegation " ++ id ++ lit " not found"
  | .supersedeRevoked => lit "Cannot supersede a revoked delegation"
  | .justification => lit "Supersession justification is required"
  | .reviewer => lit "Scope expansion requires independent expansion_reviewer"
  | .reviewerIndependent => lit "Expansion reviewer must be independent of the delegator"
  | .renewalReason => lit "Renewal requires a renewal_reason attestation. Empty renewals are rejected."
  | .canonical .bigint => lit "Do not know how to serialize a BigInt"
  | .canonical (.unsafeInteger path) => path ++ lit ": integer exceeds the interoperable IEEE 754 range"
  | .signing => lit "Invalid hex string"

def statusText : V2DelegationStatus → Str
  | .active => lit "active"
  | .expired => lit "expired"
  | .revoked => lit "revoked"
  | .superseded => lit "superseded"
  | .grace_period => lit "grace_period"

def assuranceText : AssuranceClass → Str
  | .mechanically_enforceable => lit "mechanically_enforceable"
  | .evidentially_auditable => lit "evidentially_auditable"

def orNull (text : Option Str) : JsValue := text.elim .null .str

def texts (l : List Str) : JsValue := .arr (l.map .str)

def PolicyContext.toJs (ctx : PolicyContext) : JsValue :=
  .obj [(lit "policy_version", .str ctx.policy_version),
    (lit "values_floor_version", .str ctx.values_floor_version), (lit "trust_epoch", .num ctx.trust_epoch),
    (lit "issuer_id", .str ctx.issuer_id), (lit "created_at", .str ctx.created_at),
    (lit "valid_from", .str ctx.valid_from), (lit "valid_until", .str ctx.valid_until)]

def V2ScopeDefinition.toJs (scope : V2ScopeDefinition) : JsValue :=
  .obj ((lit "action_categories", texts scope.action_categories) ::
    scope.semantic_boundaries.toList.map (fun l => (lit "semantic_boundaries", texts l)) ++ scope.other)

/-- The members of a delegation without its signature; `review` is how the review signature
stands in them, if it does. -/
def V2Delegation.members (d : V2Delegation) (review : List (Str × JsValue)) : JsValue :=
  .obj ([(lit "id", JsValue.str d.id), (lit "version", .num (.ofInt d.version)), (lit "supersedes", orNull d.supersedes),
    (lit "supersession_justification", orNull d.supersession_justification), (lit "delegator", .str d.delegator),
    (lit "delegatee", .str d.delegatee), (lit "scope", d.scope.toJs), (lit "policy_context", d.policy_context.toJs),
    (lit "status", .str (statusText d.status)), (lit "renewal_reason", orNull d.renewal_reason),
    (lit "expansion_reviewer", orNull d.expansion_reviewer)] ++ review ++
    [(lit "assurance_class", JsValue.str (assuranceText d.assurance_class))] ++
    d.aud.toList.map (fun aud => (lit "aud", aud)))

section
variable (R : Runtime)

def hashObject (obj : JsValue) : Except LegacyError Str := do
  return R.sha256 ((← canonicalize R.numText obj).getD [])

def hashObjectForWrite (obj : JsValue) : Except LegacyError Str := do
  return R.sha256 ((← canonicalizeForWrite R.numText (lit "$") obj).getD [])

def signObject (obj : JsValue) (privateKey : Str) : Except VersionError Str :=
  match hashObjectForWrite R obj with
  | .error e => throw (.canonical e)
  | .ok hash =>
    match R.sign hash privateKey with
    | none => throw .signing
    | some signature => return signature

def verifyObject (obj : JsValue) (signature publicKey : Str) : Except VersionError Bool :=
  match hashObject R obj with
  | .error e => throw (.canonical e)
  | .ok hash => return R.verify hash signature publicKey

def isPolicyContextActive (ctx : PolicyContext) (now : JsNumber) : Bool :=
  (R.getTime ctx.valid_from).le now && now.le (R.getTime ctx.valid_until)

def defaultGracePeriodMs : JsNumber := .ofInt (72 * 60 * 60 * 1000)

def isPolicyContextInGrace (ctx : PolicyContext) (gracePeriodMs now : JsNumber) : Bool :=
  (R.getTime ctx.valid_until).lt now && now.le ((R.getTime ctx.valid_until).add gracePeriodMs)

/-- `v2DelegationStore`. -/
abbrev DelegationStore := OrderedMap Str V2Delegation

structure CreateV2DelegationParams where
  delegator : Str
  delegatee : Str
  scope : V2ScopeDefinition
  policy_context : PolicyContext
  delegator_private_key : Str
  aud : Option JsValue

def createV2Delegation (store : DelegationStore) (uuid : Str) (params : CreateV2DelegationParams) :
    Except VersionError (V2Delegation × DelegationStore) := do
  let data : V2Delegation :=
    { id := uuid, version := 1, supersedes := none, supersession_justification := none,
      delegator := params.delegator, delegatee := params.delegatee, scope := params.scope,
      policy_context := params.policy_context, status := .active, renewal_reason := none,
      expansion_reviewer := none, expansion_review_sig := none,
      assurance_class := .mechanically_enforceable, aud := params.aud, signature := [] }
  let signature ← signObject R (data.members [(lit "expansion_review_sig", .null)]) params.delegator_private_key
  let delegation := { data with signature := signature }
  return (delegation, store.set delegation.id delegation)

def isScopeExpansion (original proposed : V2ScopeDefinition) : Bool :=
  proposed.action_categories.any (fun cat => decide (cat ∉ original.action_categories)) ||
    match original.semantic_boundaries, proposed.semantic_boundaries with
    | some bounds, some kept => bounds.any (fun b => decide (b ∉ kept))
    | some _, none => true
    | none, _ => false

structure SupersedeV2DelegationParams where
  original_delegation_id : Str
  new_scope : V2ScopeDefinition
  justification : Str
  policy_context : PolicyContext
  delegator_private_key : Str
  expansion_reviewer : Option Str
  expansion_reviewer_private_key : Option Str
  renewal_reason : Option Str
  aud : Option JsValue

/-- A text that is missing or empty. -/
def falsy (text : Option Str) : Bool := (text.getD []).isEmpty

def checkSupersession (original : V2Delegation) (params : SupersedeV2DelegationParams) :
    Except VersionError Unit :=
  if isBlank params.justification then throw .justification
  else if isScopeExpansion original.scope params.new_scope then
    if falsy params.expansion_reviewer || falsy params.expansion_reviewer_private_key then throw .reviewer
    else if params.expansion_reviewer = some original.delegator then throw .reviewerIndependent
    else return ()
  else return ()

def supersessionData (uuid : Str) (original : V2Delegation) (params : SupersedeV2DelegationParams) : V2Delegation :=
  let isExpansion := isScopeExpansion original.scope params.new_scope
  { id := uuid, version := original.version + 1, supersedes := some original.id,
    supersession_justification := some params.justification, delegator := original.delegator,
    delegatee := original.delegatee, scope := params.new_scope, policy_context := params.policy_context,
    status := .active, renewal_reason := if falsy params.renewal_reason then none else params.renewal_reason,
    expansion_reviewer := if isExpansion then params.expansion_reviewer else none, expansion_review_sig := none,
    assurance_class := if isExpansion then .evidentially_auditable else .mechanically_enforceable,
    aud := params.aud.or original.aud, signature := [] }

def expansionReviewSig (isExpansion : Bool) (newData : V2Delegation) (key : Option Str) :
    Except VersionError (Option Str) :=
  if isExpansion && !falsy key then some <$> signObject R (newData.members []) (key.getD []) else return none

def supersedeV2Delegation (store : DelegationStore) (uuid : Str) (params : SupersedeV2DelegationParams) :
    Except VersionError (V2Delegation × DelegationStore) :=
  match store.get params.original_delegation_id with
  | none => throw (.notFound params.original_delegation_id)
  | some original =>
    if original.status = .revoked then throw .supersedeRevoked
    else do
      checkSupersession original params
      let newData := supersessionData uuid original params
      let signature ← signObject R (newData.members []) params.delegator_private_key
      let expansion_review_sig ← expansionReviewSig R (isScopeExpansion original.scope params.new_scope) newData
        params.expansion_reviewer_private_key
      let signed := { newData with signature := signature, expansion_review_sig := expansion_review_sig }
      let store := store.set original.id { original with status := .superseded }
      return (signed, store.set signed.id signed)

structure RenewV2DelegationParams where
  original_delegation_id : Str
  policy_context : PolicyContext
  delegator_private_key : Str
  renewal_reason : Str

def renewalParams (original : V2Delegation) (params : RenewV2DelegationParams) : SupersedeV2DelegationParams where
  original_delegation_id := params.original_delegation_id
  new_scope := original.scope
  justification := lit "Renewal: " ++ params.renewal_reason
  policy_context := params.policy_context
  delegator_private_key := params.delegator_private_key
  expansion_reviewer := none
  expansion_reviewer_private_key := none
  renewal_reason := some params.renewal_reason
  aud := none

def renewV2Delegation (store : DelegationStore) (uuid : Str) (params : RenewV2DelegationParams) :
    Except VersionError (V2Delegation × DelegationStore) :=
  if isBlank params.renewal_reason then throw .renewalReason
  else
    match store.get params.original_delegation_id with
    | none => throw (.notFound params.original_delegation_id)
    | some original => supersedeV2Delegation R store uuid (renewalParams original params)

def revokeV2Delegation (store : DelegationStore) (id : Str) : Except VersionError (V2Delegation × DelegationStore) :=
  match store.get id with
  | none => throw (.notFound id)
  | some d => return ({ d with status := .revoked }, store.set id { d with status := .revoked })

/-- Why a delegation is not valid. -/
inductive InvalidReason where
  | revoked | superseded | grace | expired | signature
  deriving DecidableEq

def validateV2Delegation (d : V2Delegation) (now : JsNumber) : Except VersionError (Option InvalidReason) :=
  if d.status = .revoked then return some .revoked
  else if d.status = .superseded then return some .superseded
  else if !isPolicyContextActive R d.policy_context now then
    return some (if isPolicyContextInGrace R d.policy_context defaultGracePeriodMs now then .grace else .expired)
  else do
    let verified ← verifyObject R (d.members []) d.signature d.delegator
    return if verified then none else some .signature

/-- A turn of the loop of `processV2Expirations`. -/
def expireOne (gracePeriodMs now : JsNumber) (acc : DelegationStore × List Str × List Str) (entry : Str × V2Delegation) :
    DelegationStore × List Str × List Str :=
  let (store, expired, graced) := acc
  let (id, d) := entry
  if d.status ≠ .active then acc
  else if !isPolicyContextActive R d.policy_context now then
    if isPolicyContextInGrace R d.policy_context gracePeriodMs now then
      (store.set id { d with status := .grace_period }, expired, graced ++ [id])
    else (store.set id { d with status := .expired }, expired ++ [id], graced)
  else acc

/-- The ids that expired and those in grace, with the store left behind. -/
def processV2Expirations (store : DelegationStore) (gracePeriodMs now : JsNumber) :
    DelegationStore × List Str × List Str :=
  store.entries.foldl (expireOne R gracePeriodMs now) (store, [], [])

structure RefreshParams where
  token_delegation_id : Str
  token_trace_id : Str
  trace_id : Str
  policy_context : PolicyContext
  delegator_private_key : Str
  renewal_reason : Str
  now : JsNumber

inductive RefreshOutcome where
  | reissued (new_delegation_id : Str)
  | not_found | trace_mismatch | revoked | superseded | invalid

def refreshDelegation (store : DelegationStore) (uuid : Str) (params : RefreshParams) :
    Except VersionError (RefreshOutcome × DelegationStore) :=
  match store.get params.token_delegation_id with
  | none => return (.not_found, store)
  | some original =>
    if params.trace_id ≠ params.token_trace_id then return (.trace_mismatch, store)
    else do
      match ← validateV2Delegation R original params.now with
      | some .revoked => return (.revoked, store)
      | some .superseded => return (.superseded, store)
      | some _ => return (.invalid, store)
      | none =>
        let (reissued, store) ← renewV2Delegation R store uuid
          ⟨original.id, params.policy_context, params.delegator_private_key, params.renewal_reason⟩
        return (.reissued reissued.id, store)

inductive Call where
  | create (uuid : Str) (params : CreateV2DelegationParams)
  | supersede (uuid : Str) (params : SupersedeV2DelegationParams)
  | renew (uuid : Str) (params : RenewV2DelegationParams)
  | refresh (uuid : Str) (params : RefreshParams)
  | revoke (id : Str)
  | processExpirations (gracePeriodMs now : JsNumber)

/-- The identifier `uuidv4` gives a call that asks for one. -/
def Call.uuid? : Call → Option Str
  | .create uuid _ => some uuid
  | .supersede uuid _ => some uuid
  | .renew uuid _ => some uuid
  | .refresh uuid _ => some uuid
  | .revoke _ => none
  | .processExpirations _ _ => none

/-- The store after a call that returns; one that throws leaves it as it was. -/
def after {α : Type} (store : DelegationStore) : Except VersionError (α × DelegationStore) → DelegationStore
  | .ok (_, store) => store
  | .error _ => store

def step (store : DelegationStore) : Call → DelegationStore
  | .create uuid params => after store (createV2Delegation R store uuid params)
  | .supersede uuid params => after store (supersedeV2Delegation R store uuid params)
  | .renew uuid params => after store (renewV2Delegation R store uuid params)
  | .refresh uuid params => after store (refreshDelegation R store uuid params)
  | .revoke id => after store (revokeV2Delegation store id)
  | .processExpirations gracePeriodMs now => (processV2Expirations R store gracePeriodMs now).1

def run (calls : List Call) : DelegationStore := calls.foldl (step R) .empty

end

end AgentPassport.DelegationVersions
