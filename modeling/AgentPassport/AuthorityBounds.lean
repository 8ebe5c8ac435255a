import AgentPassport.DelegationSchema
import AgentPassport.LegacyCanonical
import AgentPassport.LifecycleState

/-! Bounds on a grant that are not times, and the state a bound is in (`v2/bounds/types.ts`,
`v2/bounds/canonical.ts`, `v2/bounds/evaluate.ts`). -/
namespace AgentPassport.AuthorityBounds
open JsText Js CanonicalJcs LifecycleState
open DelegationSchema (isDelegationId isLowerHexOf)
open LegacyCanonical (stringify)

def AUTHORITY_BOUND_TYPE : Str := lit "proposed:aps:authority-bound:v0"
def AUTHORITY_BOUND_FULFILMENT_TYPE : Str := lit "proposed:aps:authority-bound-fulfilment:v0"
def AUTHORITY_BOUND_FULFILMENT_SIGNATURE_DOMAIN : Str :=
  lit "PROPOSED-APS-AUTHORITY-BOUND-FULFILMENT-SIGNATURE-V0\x00"

inductive BoundKind where
  | purpose | use_count | budget
  deriving DecidableEq

inductive BoundState where
  | not_reached | exhausted | not_established
  deriving DecidableEq

inductive BoundEnding where
  | exhaustion
  deriving DecidableEq

inductive AttestorRoleAnswer where
  | holds_role | does_not_hold_role | unknown
  deriving DecidableEq

inductive BoundReasonCode where
  | BOUND_NOT_REACHED | PURPOSE_EXHAUSTED | USE_COUNT_EXHAUSTED | BUDGET_EXHAUSTED | BOUND_STATE_NOT_ESTABLISHED
  deriving DecidableEq

def reasonText : BoundReasonCode → Str
  | .BOUND_NOT_REACHED => lit "BOUND_NOT_REACHED"
  | .PURPOSE_EXHAUSTED => lit "PURPOSE_EXHAUSTED"
  | .USE_COUNT_EXHAUSTED => lit "USE_COUNT_EXHAUSTED"
  | .BUDGET_EXHAUSTED => lit "BUDGET_EXHAUSTED"
  | .BOUND_STATE_NOT_ESTABLISHED => lit "BOUND_STATE_NOT_ESTABLISHED"

inductive FulfilmentReasonCode where
  | FULFILMENT_ACCEPTED | FULFILMENT_SCHEMA_INVALID | FULFILMENT_NOT_BOUND_TO_BOUND
  | FULFILMENT_OUTCOME_NOT_FULFILLED | FULFILMENT_NOT_YET_ATTESTED | FULFILMENT_KEY_UNRESOLVED
  | FULFILMENT_SIGNATURE_INVALID | FULFILMENT_ATTESTOR_WITHOUT_STANDING | FULFILMENT_ATTESTOR_ROLE_UNKNOWN
  | FULFILMENT_NOT_APPLICABLE_TO_KIND
  deriving DecidableEq

/-- A bound that passed its shape check. -/
structure AuthorityBound where
  bound_id : Str
  delegation_id : Str
  kind : BoundKind
  value : Str
  fulfilment_attestor_roles : List Str

/-- A fulfilment record that can be read, without what was signed besides. -/
structure AuthorityBoundFulfilment where
  bound_id : Str
  delegation_id : Str
  attestor : Str
  verification_method : Str
  attested_at : Str
  fulfilled : Bool
  reason_code : Str
  signature : Str

structure FulfilmentAssessment where
  attestor : Str
  attested_at : Str
  accepted : Bool
  reason_code : FulfilmentReasonCode
  role_answer : Option AttestorRoleAnswer := none
  missing : Option (List EstablishmentGap) := none
  deriving DecidableEq

structure BoundEvaluation where
  bound_id : Str
  kind : BoundKind
  bound_state : BoundState
  reason_code : BoundReasonCode
  ending : Option BoundEnding
  lifecycle : LifecycleStateResult
  fulfilments : List FulfilmentAssessment
  remaining : Option Str

inductive AuthorityBoundCode where
  | BOUND_MALFORMED | BOUND_RECORD_TYPE_UNSUPPORTED | BOUND_KIND_UNSUPPORTED | BOUND_VALUE_NONCANONICAL
  | COUNTER_NONCANONICAL | INSTANT_MISSING | ROLE_RESOLVER_MISSING | KEY_RESOLVER_MISSING
  deriving DecidableEq

/-- What an evaluation throws: its own error, that of the canonicalizer or that of the lifecycle constructor. -/
inductive BoundError where
  | bound (code : AuthorityBoundCode) (message : Str)
  | canonical (error : JcsError)
  | lifecycle (error : LifecycleStateError)
  deriving DecidableEq

def fail {α : Type} (code : AuthorityBoundCode) (message : Str) : Except BoundError α :=
  throw (.bound code message)

def nonEmpty? : JsValue → Option Str
  | .str (c :: rest) => some (c :: rest)
  | _ => none

def isText (text : Str) : JsValue → Bool
  | .str s => s = text
  | _ => false

/-- `CANONICAL_UNSIGNED_INTEGER`. -/
def isCanonicalUnsignedInteger : Str → Bool
  | [] => false
  | c :: rest => if c = 0x30 then rest.isEmpty else isDigit c && rest.all isDigit

def BOUND_KINDS : List (Str × BoundKind) :=
  [(lit "purpose", .purpose), (lit "use_count", .use_count), (lit "budget", .budget)]

/-- `isBoundKind`, with the kind. -/
def boundKind? : JsValue → Option BoundKind
  | .str s => (BOUND_KINDS.find? (fun k => k.1 = s)).map (·.2)
  | _ => none

def kindName : BoundKind → Str
  | .purpose => lit "purpose"
  | .use_count => lit "use_count"
  | .budget => lit "budget"

def requireText (value : JsValue) (message : String) : Except BoundError Str :=
  match nonEmpty? value with
  | some s => return s
  | none => fail .BOUND_MALFORMED (lit message)

def readDelegationId (value : JsValue) : Except BoundError Str :=
  match value with
  | .str s =>
    if isDelegationId s then return s
    else fail .BOUND_MALFORMED (lit "delegation_id must be sha256:<64 lowercase hex>")
  | _ => fail .BOUND_MALFORMED (lit "delegation_id must be sha256:<64 lowercase hex>")

def readKind (value : JsValue) : Except BoundError BoundKind :=
  match boundKind? value with
  | some kind => return kind
  | none => fail .BOUND_KIND_UNSUPPORTED (lit "kind must be one of purpose, use_count, budget")

def requireCanonicalValue (kind : BoundKind) (value : Str) : Except BoundError Unit :=
  if kind ≠ .purpose && !isCanonicalUnsignedInteger value then
    fail .BOUND_VALUE_NONCANONICAL
      (lit "a " ++ kindName kind ++ lit " bound's value must be a canonical unsigned decimal integer")
  else pure ()

def readRoles (value : JsValue) : Except BoundError (List Str) :=
  match value with
  | .arr roles =>
    roles.mapM (fun role => requireText role "fulfilment_attestor_roles must contain only non-empty strings")
  | _ =>
    fail .BOUND_MALFORMED
      (lit "fulfilment_attestor_roles must be an array, empty if nobody but the issuer may attest")

def assertAuthorityBound (bound : JsValue) : Except BoundError AuthorityBound :=
  if !bound.isObject then fail .BOUND_MALFORMED (lit "bound is not an object")
  else if !isText AUTHORITY_BOUND_TYPE (bound.get (lit "record_type")) then
    fail .BOUND_RECORD_TYPE_UNSUPPORTED (lit "record_type must be " ++ AUTHORITY_BOUND_TYPE)
  else do
    let bound_id ← requireText (bound.get (lit "bound_id")) "bound_id must be a non-empty string"
    let delegation_id ← readDelegationId (bound.get (lit "delegation_id"))
    let kind ← readKind (bound.get (lit "kind"))
    let value ← requireText (bound.get (lit "value")) "value must be a non-empty string"
    requireCanonicalValue kind value
    let roles ← readRoles (bound.get (lit "fulfilment_attestor_roles"))
    return ⟨bound_id, delegation_id, kind, value, roles⟩

def delegationId? : JsValue → Option Str
  | .str s => if isDelegationId s then some s else none
  | _ => none

/-- `outcome === 'fulfilled' || outcome === 'not_fulfilled'`, with which it is. -/
def outcome? : JsValue → Option Bool
  | .str s => if s = lit "fulfilled" then some true else if s = lit "not_fulfilled" then some false else none
  | _ => none

/-- `SIGNATURE_HEX`. -/
def signatureHex? : JsValue → Option Str
  | .str s => if isLowerHexOf 128 s then some s else none
  | _ => none

/-- `readableFulfilment`, with what is then read of the record. -/
def readableFulfilment (record : JsValue) : Option AuthorityBoundFulfilment :=
  if record.isObject && isText AUTHORITY_BOUND_FULFILMENT_TYPE (record.get (lit "record_type")) then do
    let bound_id ← nonEmpty? (record.get (lit "bound_id"))
    let delegation_id ← delegationId? (record.get (lit "delegation_id"))
    let attestor ← nonEmpty? (record.get (lit "attestor"))
    let verification_method ← nonEmpty? (record.get (lit "verification_method"))
    let attested_at ← nonEmpty? (record.get (lit "attested_at"))
    let fulfilled ← outcome? (record.get (lit "outcome"))
    let reason_code ← nonEmpty? (record.get (lit "reason_code"))
    let signature ← signatureHex? (record.get (lit "signature"))
    return ⟨bound_id, delegation_id, attestor, verification_method, attested_at, fulfilled, reason_code, signature⟩
  else none

def ATTESTOR_ROLE_ANSWERS : List (Str × AttestorRoleAnswer) :=
  [(lit "holds_role", .holds_role), (lit "does_not_hold_role", .does_not_hold_role), (lit "unknown", .unknown)]

/-- `isAttestorRoleAnswer`, with the answer. -/
def attestorRoleAnswer? : JsValue → Option AttestorRoleAnswer
  | .str s => (ATTESTOR_ROLE_ANSWERS.find? (fun a => a.1 = s)).map (·.2)
  | _ => none

/-- The text of a finite number and Ed25519 on a message, a signature and a public key. -/
structure Runtime where
  numText : Double → Str
  verify : Str → Str → Str → Bool

abbrev AttestorRoleResolver := Str → List Str → Str → JsValue

abbrev BoundVerificationKeyResolver := Str → Str → Str → JsValue

section
variable (R : Runtime)

def authorityBoundFulfilmentSignatureInput (body : JsValue) : Except JcsError Str := do
  return AUTHORITY_BOUND_FULFILMENT_SIGNATURE_DOMAIN ++ (← canonicalizeJCS R.numText body)

def verifyAuthorityBoundFulfilmentSignature (record : JsValue) (signature publicKeyHex : Str) :
    Except JcsError Bool := do
  let message ← authorityBoundFulfilmentSignatureInput R (omitMember (lit "signature") record)
  return R.verify message signature publicKeyHex

def assessFulfilment (resolveAttestorRole : AttestorRoleResolver) (resolveVerificationKey : BoundVerificationKeyResolver)
    (bound : AuthorityBound) (atInstant : Str) (record : JsValue) : Except JcsError FulfilmentAssessment :=
  if bound.kind ≠ .purpose then
    return ⟨[], [], false, .FULFILMENT_NOT_APPLICABLE_TO_KIND, none, some [.coverage]⟩
  else
    match readableFulfilment record with
    | none => return ⟨[], [], false, .FULFILMENT_SCHEMA_INVALID, none, some [.source]⟩
    | some r =>
      if r.bound_id ≠ bound.bound_id || r.delegation_id ≠ bound.delegation_id then
        return ⟨r.attestor, r.attested_at, false, .FULFILMENT_NOT_BOUND_TO_BOUND, none, some [.coverage]⟩
      else if atInstant < r.attested_at then
        return ⟨r.attestor, r.attested_at, false, .FULFILMENT_NOT_YET_ATTESTED, none, some [.coverage]⟩
      else
        match attestorRoleAnswer? (resolveAttestorRole r.attestor bound.fulfilment_attestor_roles atInstant) with
        | none => return ⟨r.attestor, r.attested_at, false, .FULFILMENT_ATTESTOR_ROLE_UNKNOWN, none, some [.source]⟩
        | some .unknown =>
          return ⟨r.attestor, r.attested_at, false, .FULFILMENT_ATTESTOR_ROLE_UNKNOWN, some .unknown, some [.source]⟩
        | some .does_not_hold_role =>
          return ⟨r.attestor, r.attested_at, false, .FULFILMENT_ATTESTOR_WITHOUT_STANDING, some .does_not_hold_role,
            some [.source]⟩
        | some .holds_role =>
          match nonEmpty? (resolveVerificationKey r.attestor r.verification_method r.attested_at) with
          | none =>
            return ⟨r.attestor, r.attested_at, false, .FULFILMENT_KEY_UNRESOLVED, some .holds_role, some [.source]⟩
          | some publicKey => do
            let verified ← verifyAuthorityBoundFulfilmentSignature R record r.signature publicKey
            if !verified then
              return ⟨r.attestor, r.attested_at, false, .FULFILMENT_SIGNATURE_INVALID, some .holds_role, some [.source]⟩
            else if !r.fulfilled then
              return ⟨r.attestor, r.attested_at, false, .FULFILMENT_OUTCOME_NOT_FULFILLED, some .holds_role, none⟩
            else return ⟨r.attestor, r.attested_at, true, .FULFILMENT_ACCEPTED, some .holds_role, none⟩

end

structure BudgetCounter where
  committed : Str
  reserved : Str

structure EvaluateBoundInput where
  bound : JsValue
  fulfilments : Option (List JsValue)
  atInstant : JsValue
  resolveAttestorRole : Option AttestorRoleResolver
  resolveVerificationKey : Option BoundVerificationKeyResolver
  consumed : Option Str
  budgetCounter : Option BudgetCounter

/-- `decimal`, whose fallback is always `'0'`. -/
def decimalOf (value : Option Str) : Except BoundError Nat :=
  let raw := value.getD (lit "0")
  if isCanonicalUnsignedInteger raw then return digitsValue raw
  else fail .COUNTER_NONCANONICAL (lit "expected a canonical unsigned decimal integer, got " ++ stringify raw)

def lifecycleFor (state : BoundState) (reasonCode : BoundReasonCode) (missing : List EstablishmentGap) :
    Except LifecycleStateError LifecycleStateResult :=
  if state = .not_established then notEstablished missing (reasonText reasonCode)
  else lifecycleState
    { verdict := if state = .exhausted then .invalid else .valid, reason_code := reasonText reasonCode }

/-- `if (!missing.includes(gap)) missing.push(gap)`. -/
def pushGap (missing : List EstablishmentGap) (gap : EstablishmentGap) : List EstablishmentGap :=
  if gap ∈ missing then missing else missing ++ [gap]

def pushGaps (missing : List EstablishmentGap) (a : FulfilmentAssessment) : List EstablishmentGap :=
  (a.missing.getD []).foldl pushGap missing

/-- What the assessments of a purpose bound's records amount to. -/
def resolvePurpose (assessments : List FulfilmentAssessment) : BoundState × BoundReasonCode × List EstablishmentGap :=
  let unestablished := assessments.filter (fun a => !a.accepted && a.missing.isSome)
  if assessments.any (·.accepted) then (.exhausted, .PURPOSE_EXHAUSTED, [])
  else if unestablished.length > 0 then
    (.not_established, .BOUND_STATE_NOT_ESTABLISHED, unestablished.foldl pushGaps [])
  else (.not_reached, .BOUND_NOT_REACHED, [])

def boundEvaluation (bound : AuthorityBound) (state : BoundState) (reasonCode : BoundReasonCode)
    (missing : List EstablishmentGap) (assessments : List FulfilmentAssessment) (remaining : Option Str) :
    Except BoundError BoundEvaluation :=
  match lifecycleFor state reasonCode (if missing.length > 0 then missing else [.source]) with
  | .error e => throw (.lifecycle e)
  | .ok lifecycle =>
    return { bound_id := bound.bound_id, kind := bound.kind, bound_state := state, reason_code := reasonCode,
             ending := if state = .exhausted then some .exhaustion else none, lifecycle,
             fulfilments := assessments, remaining }

def requireInstant (value : JsValue) : Except BoundError Str :=
  match nonEmpty? value with
  | some s => return s
  | none => fail .INSTANT_MISSING (lit "atInstant must be a non-empty string")

def requireResolvers (input : EvaluateBoundInput) (records : List JsValue) : Except BoundError Unit :=
  if records.length > 0 then
    if input.resolveAttestorRole.isNone then
      fail .ROLE_RESOLVER_MISSING (lit "a purpose bound with fulfilment records needs resolveAttestorRole")
    else if input.resolveVerificationKey.isNone then
      fail .KEY_RESOLVER_MISSING (lit "a purpose bound with fulfilment records needs resolveVerificationKey")
    else pure ()
  else pure ()

def evaluateBound (R : Runtime) (input : EvaluateBoundInput) : Except BoundError BoundEvaluation := do
  let bound ← assertAuthorityBound input.bound
  let atInstant ← requireInstant input.atInstant
  match bound.kind with
  | .purpose => do
    let records := input.fulfilments.getD []
    requireResolvers input records
    let resolveAttestorRole := input.resolveAttestorRole.getD (fun _ _ _ => .str (lit "unknown"))
    let resolveVerificationKey := input.resolveVerificationKey.getD (fun _ _ _ => .null)
    match records.mapM (assessFulfilment R resolveAttestorRole resolveVerificationKey bound atInstant) with
    | .error e => throw (.canonical e)
    | .ok assessments =>
      let (state, reasonCode, missing) := resolvePurpose assessments
      boundEvaluation bound state reasonCode missing assessments none
  | .use_count => do
    let limit ← decimalOf (some bound.value)
    let consumed ← decimalOf input.consumed
    let state : BoundState := if limit ≤ consumed then .exhausted else .not_reached
    let reasonCode : BoundReasonCode := if state = .exhausted then .USE_COUNT_EXHAUSTED else .BOUND_NOT_REACHED
    boundEvaluation bound state reasonCode [] [] (some (decimal (limit - consumed)))
  | .budget => do
    let ceiling ← decimalOf (some bound.value)
    let committed ← decimalOf (input.budgetCounter.map (·.committed))
    let reserved ← decimalOf (input.budgetCounter.map (·.reserved))
    let state : BoundState := if ceiling ≤ committed + reserved then .exhausted else .not_reached
    let reasonCode : BoundReasonCode := if state = .exhausted then .BUDGET_EXHAUSTED else .BOUND_NOT_REACHED
    boundEvaluation bound state reasonCode [] [] none

end AgentPassport.AuthorityBounds
