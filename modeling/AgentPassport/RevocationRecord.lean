import AgentPassport.DelegationVerify

/-! Direct revocations of authority delegations: the closed schema, the three preimages and the
verification against the target (`v2/authority-revocation/schema.ts`, `canonical.ts` and
`verify.ts`). -/
namespace AgentPassport.RevocationRecord
open JsText Js CanonicalJcs PlainData DelegationSchema DelegationVerify Outcome

inductive AuthorityRevocationFailureCode where
  | SCHEMA_INVALID | UNSUPPORTED_RECORD_TYPE | UNSUPPORTED_VERSION | NONCANONICAL_VALUE
  | ID_MISMATCH | CASCADE_TRANSACTION_MISMATCH | TARGET_MISMATCH | TARGET_ID_MISMATCH
  | REVOKER_NOT_ISSUER | KEY_RESOLUTION_FAILED | KEY_SCHEME_UNSUPPORTED | KEY_NOT_FOUND
  | KEY_AMBIGUOUS | KEY_UNREACHABLE | KEY_MATERIAL_MALFORMED | SIGNATURE_INVALID
  deriving DecidableEq

structure AuthorityRevocationFailure where
  code : AuthorityRevocationFailureCode
  message : Str
  deriving DecidableEq

structure AuthorityRevocationVerificationResult where
  state : AuthorityValidationState
  failures : List AuthorityRevocationFailure
  deriving DecidableEq

/-- The member `valid` of a result. -/
def AuthorityRevocationVerificationResult.valid (r : AuthorityRevocationVerificationResult) : Bool :=
  r.state = .valid

def AUTHORITY_REVOCATION_RECORD_TYPE : Str := lit "aps:authority-revocation:v1"
def AUTHORITY_REVOCATION_VERSION : Str := lit "1.0"

def REQUIRED_KEYS : List String :=
  ["record_type", "version", "revocation_id", "delegation_id", "revoker", "verification_method",
    "revoked_at", "reason_code", "cascade_transaction_id", "nonce", "signature"]

def OPTIONAL_KEYS : List String := ["detail"]

def hasOwn (top : List (Str × JsValue)) (key : String) : Bool := (member? (lit key) top).isSome

/-- One failure unless the check passes. -/
def check (ok : Bool) (code : AuthorityRevocationFailureCode) (message : Str) :
    List AuthorityRevocationFailure :=
  if ok then [] else [⟨code, message⟩]

def memberFailures (top : List (Str × JsValue)) : List AuthorityRevocationFailure :=
  REQUIRED_KEYS.flatMap (fun key => check (hasOwn top key) .SCHEMA_INVALID (lit key ++ lit " is required")) ++
    top.flatMap (fun m => check (decide (m.1 ∈ (REQUIRED_KEYS ++ OPTIONAL_KEYS).map lit)) .SCHEMA_INVALID
      (lit "unknown member " ++ m.1)) ++
    check (stringWhere isDelegationId (field top "revocation_id")) .SCHEMA_INVALID
      (lit "revocation_id must be sha256:<64 lowercase hex>") ++
    check (stringWhere isDelegationId (field top "delegation_id")) .SCHEMA_INVALID
      (lit "delegation_id must be sha256:<64 lowercase hex>") ++
    check (stringWhere isDelegationId (field top "cascade_transaction_id")) .SCHEMA_INVALID
      (lit "cascade_transaction_id must be sha256:<64 lowercase hex>") ++
    check (isAdmissibleIdentifier (field top "revoker")) .SCHEMA_INVALID
      (lit "revoker must be a non-empty string") ++
    check (isAdmissibleIdentifier (field top "verification_method")) .SCHEMA_INVALID
      (lit "verification_method must be a non-empty string") ++
    check (isCanonicalTimestamp (field top "revoked_at")) .NONCANONICAL_VALUE
      (lit "revoked_at must be a canonical UTC-millisecond timestamp") ++
    check (isAdmissibleIdentifier (field top "reason_code")) .SCHEMA_INVALID
      (lit "reason_code must be a non-empty string") ++
    check (!hasOwn top "detail" || (str? (field top "detail")).isSome) .SCHEMA_INVALID
      (lit "detail, when present, must be a string") ++
    check (stringWhere (isLowerHexOf 32) (field top "nonce")) .NONCANONICAL_VALUE
      (lit "nonce must be 32 lowercase hex characters") ++
    check (stringWhere (isLowerHexOf 128) (field top "signature")) .SCHEMA_INVALID
      (lit "signature must be 128 lowercase hex characters")

def revocationShapeFailures (snapshot : JsValue) : List AuthorityRevocationFailure :=
  match record snapshot with
  | none => [⟨.SCHEMA_INVALID, lit "revocation must be a JSON object"⟩]
  | some top =>
    if str? (field top "record_type") ≠ some AUTHORITY_REVOCATION_RECORD_TYPE then
      [⟨.UNSUPPORTED_RECORD_TYPE, lit "record_type must be " ++ AUTHORITY_REVOCATION_RECORD_TYPE⟩]
    else if str? (field top "version") ≠ some AUTHORITY_REVOCATION_VERSION then
      [⟨.UNSUPPORTED_VERSION, lit "version must be " ++ AUTHORITY_REVOCATION_VERSION⟩]
    else memberFailures top

def validateAuthorityRevocationShape (value : CallerValue) : List AuthorityRevocationFailure :=
  revocationShapeFailures (snapshotPlainData value)

/-- The members of a revocation that verification reads. -/
structure AuthorityRevocation where
  revocationId : Str
  delegationId : Str
  revoker : Str
  verificationMethod : Str
  revokedAt : Str
  cascadeTransactionId : Str
  signature : Str

def readRevocation (v : JsValue) : Option AuthorityRevocation := do
  let top ← record v
  let revocationId ← str? (field top "revocation_id")
  let delegationId ← str? (field top "delegation_id")
  let revoker ← str? (field top "revoker")
  let verificationMethod ← str? (field top "verification_method")
  let revokedAt ← str? (field top "revoked_at")
  let cascadeTransactionId ← str? (field top "cascade_transaction_id")
  let signature ← str? (field top "signature")
  return ⟨revocationId, delegationId, revoker, verificationMethod, revokedAt, cascadeTransactionId, signature⟩

theorem check_eq_nil {ok : Bool} {code : AuthorityRevocationFailureCode} {message : Str} :
    check ok code message = [] ↔ ok = true := by
  unfold check
  split
  · rename_i h
    simp [h]
  · rename_i h
    simp [h]

theorem identifier_read {v : JsValue} (h : isAdmissibleIdentifier v = true) : ∃ s, str? v = some s := by
  unfold isAdmissibleIdentifier at h
  split at h
  · rename_i s hs
    exact ⟨s, hs⟩
  · cases h

theorem revocation_read {v : JsValue} (h : revocationShapeFailures v = []) :
    ∃ r, readRevocation v = some r := by
  unfold revocationShapeFailures at h
  split at h
  · cases h
  rename_i top htop
  split at h
  · cases h
  split at h
  · cases h
  simp only [memberFailures, List.append_eq_nil_iff, check_eq_nil] at h
  obtain ⟨⟨⟨⟨⟨⟨⟨⟨⟨⟨-, hid⟩, hdelegation⟩, htransaction⟩, hrevoker⟩, hmethod⟩, hat⟩, -⟩, -⟩, -⟩, hsignature⟩ := h
  obtain ⟨id, hid, -⟩ := stringWhere_read hid
  obtain ⟨delegation, hdelegation, -⟩ := stringWhere_read hdelegation
  obtain ⟨transaction, htransaction, -⟩ := stringWhere_read htransaction
  obtain ⟨revoker, hrevoker⟩ := identifier_read hrevoker
  obtain ⟨method, hmethod⟩ := identifier_read hmethod
  obtain ⟨revokedAt, hat, -⟩ := @stringWhere_read canonicalTimestamp _ hat
  obtain ⟨signature, hsignature, -⟩ := stringWhere_read hsignature
  refine ⟨⟨id, delegation, revoker, method, revokedAt, transaction, signature⟩, ?_⟩
  simp only [readRevocation, htop, hid, hdelegation, htransaction, hrevoker, hmethod, hat, hsignature,
    Option.bind_eq_bind, Option.bind_some, Option.pure_def]

/-- `AuthorityRevocationV1`: a snapshot that has passed the schema. -/
structure ShapedRevocation where
  value : JsValue
  shape : revocationShapeFailures value = []

theorem ShapedRevocation.eq_of_value {r r' : ShapedRevocation} (h : r.value = r'.value) : r = r' := by
  obtain ⟨value, shape⟩ := r
  obtain ⟨value', shape'⟩ := r'
  cases h
  rfl

def ShapedRevocation.revocation (r : ShapedRevocation) : AuthorityRevocation :=
  (readRevocation r.value).get (by
    obtain ⟨d, hd⟩ := revocation_read r.shape
    rw [hd]
    rfl)

def AUTHORITY_REVOCATION_ID_DOMAIN : Str := lit "APS-AUTHORITY-REVOCATION-ID-V1\x00"
def AUTHORITY_REVOCATION_SIGNATURE_DOMAIN : Str := lit "APS-AUTHORITY-REVOCATION-SIGNATURE-V1\x00"
def AUTHORITY_REVOCATION_CASCADE_TRANSACTION_DOMAIN : Str :=
  lit "APS-AUTHORITY-REVOCATION-CASCADE-TRANSACTION-ID-V1\x00"

def authorityRevocationBody (revocation : JsValue) : JsValue :=
  omitMember (lit "signature") (omitMember (lit "revocation_id") revocation)

def authorityRevocationCascadeOrigin (body : JsValue) : JsValue :=
  omitMember (lit "cascade_transaction_id") body

section
variable (P : Primitives)

def computeAuthorityRevocationCascadeTransactionId (origin : JsValue) : Except JcsError Str := do
  return lit "sha256:" ++
    P.sha256Hex (AUTHORITY_REVOCATION_CASCADE_TRANSACTION_DOMAIN ++ (← canonicalizeJCS P.numText origin))

def computeAuthorityRevocationId (body : JsValue) : Except JcsError Str := do
  return lit "sha256:" ++ P.sha256Hex (AUTHORITY_REVOCATION_ID_DOMAIN ++ (← canonicalizeJCS P.numText body))

def authorityRevocationSignatureInput (unsigned : JsValue) : Except JcsError Str := do
  return AUTHORITY_REVOCATION_SIGNATURE_DOMAIN ++ (← canonicalizeJCS P.numText unsigned)

def verifyAuthorityRevocationSignature (r : ShapedRevocation) (publicKey : Str) : Except JcsError Bool := do
  return P.verify (← authorityRevocationSignatureInput P (omitMember (lit "signature") r.value))
    r.revocation.signature publicKey

end

/-- How a step leaves the function: with a result, or with an exception of the canonicalizer. -/
inductive RevocationExit where
  | refused (state : Refusal) (failures : List AuthorityRevocationFailure)
  | threw (e : JcsError)

def refuse {α : Type} (state : Refusal) (code : AuthorityRevocationFailureCode) (message : String) :
    Except RevocationExit α :=
  throw (.refused state [⟨code, lit message⟩])

def orRaise {α : Type} : Except JcsError α → Except RevocationExit α
  | .ok a => .ok a
  | .error e => .error (.threw e)

def isUnsupported (code : AuthorityRevocationFailureCode) : Bool :=
  code = .UNSUPPORTED_RECORD_TYPE || code = .UNSUPPORTED_VERSION

/-- Step 1: the closed schema. -/
def shapeCandidate (candidate : CallerValue) : Except RevocationExit ShapedRevocation :=
  let snapshot := snapshotPlainData candidate
  let failures := validateAuthorityRevocationShape (plain snapshot)
  if h : failures = [] then
    return ⟨snapshot, (snapshot_idem candidate ▸ h : revocationShapeFailures (snapshotPlainData candidate) = [])⟩
  else throw (.refused (if failures.all (fun f => isUnsupported f.code) then .unsupported else .invalid) failures)

section
variable (P : Primitives)

def checkContent (r : ShapedRevocation) : Except RevocationExit Unit := do
  let body := authorityRevocationBody r.value
  let transaction ← orRaise
    (computeAuthorityRevocationCascadeTransactionId P (authorityRevocationCascadeOrigin body))
  if transaction ≠ r.revocation.cascadeTransactionId then
    refuse .invalid .CASCADE_TRANSACTION_MISMATCH "cascade_transaction_id does not recompute from the record"
  else
    let id ← orRaise (computeAuthorityRevocationId P body)
    if id ≠ r.revocation.revocationId then
      refuse .invalid .ID_MISMATCH "revocation content address does not match its body"
    else return ()

def codeName : AuthorityFailureCode → String
  | .SCHEMA_INVALID => "SCHEMA_INVALID"
  | .UNSUPPORTED_VERSION => "UNSUPPORTED_VERSION"
  | .UNSUPPORTED_RECORD_TYPE => "UNSUPPORTED_RECORD_TYPE"
  | .UNSUPPORTED_PROFILE => "UNSUPPORTED_PROFILE"
  | .RESOURCE_LIMIT => "RESOURCE_LIMIT"
  | .NONCANONICAL_VALUE => "NONCANONICAL_VALUE"
  | .ID_MISMATCH => "ID_MISMATCH"
  | .KEY_RESOLUTION_FAILED => "KEY_RESOLUTION_FAILED"
  | .KEY_SCHEME_UNSUPPORTED => "KEY_SCHEME_UNSUPPORTED"
  | .KEY_NOT_FOUND => "KEY_NOT_FOUND"
  | .KEY_AMBIGUOUS => "KEY_AMBIGUOUS"
  | .KEY_UNREACHABLE => "KEY_UNREACHABLE"
  | .KEY_MATERIAL_MALFORMED => "KEY_MATERIAL_MALFORMED"
  | .SIGNATURE_INVALID => "SIGNATURE_INVALID"
  | .ROOT_UNTRUSTED => "ROOT_UNTRUSTED"
  | .CHAIN_DUPLICATE_ID => "CHAIN_DUPLICATE_ID"
  | .PARENT_MISMATCH => "PARENT_MISMATCH"
  | .CHAIN_CONTINUITY => "CHAIN_CONTINUITY"
  | .ISSUED_AT_OUTSIDE_PARENT => "ISSUED_AT_OUTSIDE_PARENT"
  | .SCOPE_WIDENING => "SCOPE_WIDENING"
  | .SPEND_WIDENING => "SPEND_WIDENING"
  | .SPEND_UNIT_CHANGE => "SPEND_UNIT_CHANGE"
  | .DEPTH_EXHAUSTED => "DEPTH_EXHAUSTED"
  | .DEPTH_WIDENING => "DEPTH_WIDENING"
  | .TIME_WIDENING => "TIME_WIDENING"
  | .REPUTATION_WIDENING => "REPUTATION_WIDENING"
  | .VALUES_WEAKENING => "VALUES_WEAKENING"
  | .REVERSIBILITY_WIDENING => "REVERSIBILITY_WIDENING"
  | .NOT_YET_VALID => "NOT_YET_VALID"
  | .EXPIRED => "EXPIRED"
  | .REVOKED => "REVOKED"
  | .REVOCATION_UNKNOWN => "REVOCATION_UNKNOWN"

theorem shape_of_none {delegation : CallerValue}
    (h : validateAuthorityDelegationShape (plain (snapshotPlainData delegation)) = []) :
    shapeFailures (snapshotPlainData delegation) = [] :=
  snapshot_idem delegation ▸ h

def readTarget (delegation : CallerValue) : Except RevocationExit ShapedRecord :=
  let target := snapshotPlainData delegation
  match h : validateAuthorityDelegationShape (plain target) with
  | first :: _ =>
    throw (.refused .invalid
      [⟨.SCHEMA_INVALID, lit "target delegation invalid (" ++ lit (codeName first.code) ++ lit ")"⟩])
  | [] => do
    let r : ShapedRecord := ⟨target, shape_of_none h⟩
    let id ← orRaise (computeAuthorityDelegationId P (authorityDelegationBody r.value))
    if id ≠ r.delegation.delegationId then
      refuse .invalid .TARGET_ID_MISMATCH "target delegation content address does not match its body"
    else return r

def checkTarget (r : ShapedRevocation) (target : ShapedRecord) : Except RevocationExit Unit :=
  if r.revocation.delegationId ≠ target.delegation.delegationId then
    refuse .invalid .TARGET_MISMATCH "revocation does not name this delegation"
  else if r.revocation.revoker ≠ target.delegation.issuer then
    refuse .invalid .REVOKER_NOT_ISSUER "revoker is not the target delegation issuer"
  else return ()

/-- `keyResolutionFailure`, or the usable key. -/
def revokerKey : KeyAnswer → Except RevocationExit Str
  | .key material =>
    if isKeyMaterial material then return material
    else refuse .indeterminate .KEY_MATERIAL_MALFORMED "resolved key material is not a 32-byte Ed25519 public key"
  | .outcome name =>
    if name = lit "unsupported_scheme" then
      refuse .unsupported .KEY_SCHEME_UNSUPPORTED "identifier scheme is not supported by the resolver"
    else if name = lit "not_found" then
      refuse .indeterminate .KEY_NOT_FOUND "revoker or key was not found"
    else if name = lit "ambiguous" then
      refuse .indeterminate .KEY_AMBIGUOUS "key resolution was ambiguous"
    else if name = lit "unreachable" then
      refuse .indeterminate .KEY_UNREACHABLE "key material was unreachable"
    else if name = lit "malformed" then
      refuse .indeterminate .KEY_MATERIAL_MALFORMED "resolved key material is structurally malformed"
    else refuse .indeterminate .KEY_RESOLUTION_FAILED "revoker verification key could not be resolved"
  | .other => refuse .indeterminate .KEY_RESOLUTION_FAILED "revoker verification key could not be resolved"

/-- The options as read: what the resolver answers for an identity, a method and a time. A
missing resolver has a message of its own. -/
structure AuthorityRevocationVerificationOptions where
  resolveVerificationKey : Option (Str → Str → Str → KeyAnswer)

variable (options : AuthorityRevocationVerificationOptions)

/-- Steps 8 and 9: the key of the target's issuer at the time of the revocation, then the
signature. -/
def checkRevocationSignature (r : ShapedRevocation) (target : ShapedRecord) : Except RevocationExit Unit :=
  match options.resolveVerificationKey with
  | none => refuse .indeterminate .KEY_RESOLUTION_FAILED "no verification key resolver was supplied"
  | some resolve => do
    let key ← revokerKey (resolve target.delegation.issuer r.revocation.verificationMethod r.revocation.revokedAt)
    let verified ← orRaise (verifyAuthorityRevocationSignature P r key)
    if !verified then refuse .invalid .SIGNATURE_INVALID "Ed25519 signature is invalid" else return ()

def settleRevocation : Except RevocationExit Unit → Except JcsError AuthorityRevocationVerificationResult
  | .ok () => .ok ⟨.valid, []⟩
  | .error (.refused state failures) => .ok ⟨state.state, failures⟩
  | .error (.threw e) => .error e

def verifyAuthorityRevocation (candidate delegation : CallerValue) :
    Except JcsError AuthorityRevocationVerificationResult :=
  settleRevocation do
    let r ← shapeCandidate candidate
    checkContent P r
    let target ← readTarget P delegation
    checkTarget r target
    checkRevocationSignature P options r target

/-- A revocation that stands against its target: its identifiers and the target's recompute, it
names the target, its revoker is the target's issuer, and it is signed by that issuer's key. -/
structure Revokes (r : ShapedRevocation) (target : ShapedRecord) : Prop where
  content : checkContent P r = .ok ()
  targetId : computeAuthorityDelegationId P (authorityDelegationBody target.value) =
    .ok target.delegation.delegationId
  names : r.revocation.delegationId = target.delegation.delegationId
  revoker : r.revocation.revoker = target.delegation.issuer
  signed : checkRevocationSignature P options r target = .ok ()

theorem orRaise_eq_ok {α : Type} {x : Except JcsError α} {a : α} (h : orRaise x = .ok a) : x = .ok a := by
  cases x with
  | ok b =>
    cases h
    rfl
  | error e => cases h

variable {v : AuthorityRevocationVerificationResult}

theorem settle_valid {x : Except RevocationExit Unit} (h : settleRevocation x = .ok v) (hv : v.valid = true) :
    x = .ok () := by
  cases x with
  | ok u => rfl
  | error e =>
    cases e with
    | refused state failures =>
      cases h
      cases state <;> cases hv
    | threw e => cases h

theorem shapeCandidate_ok {candidate : CallerValue} {r : ShapedRevocation}
    (h : shapeCandidate candidate = .ok r) : r.value = snapshotPlainData candidate := by
  unfold shapeCandidate at h
  simp only at h
  split at h
  · cases h
    rfl
  · cases h

theorem readTarget_ok {delegation : CallerValue} {target : ShapedRecord}
    (h : readTarget P delegation = .ok target) :
    target.value = snapshotPlainData delegation ∧
      computeAuthorityDelegationId P (authorityDelegationBody target.value) =
        .ok target.delegation.delegationId := by
  unfold readTarget at h
  simp only at h
  split at h
  · cases h
  · obtain ⟨id, hid, h⟩ := bind_eq_ok.mp h
    split at h
    · cases h
    · rename_i heq
      cases h
      exact ⟨rfl, (orRaise_eq_ok hid).trans (congrArg _ (not_not.mp heq))⟩

theorem checkTarget_ok {r : ShapedRevocation} {target : ShapedRecord} (h : checkTarget r target = .ok ()) :
    r.revocation.delegationId = target.delegation.delegationId ∧
      r.revocation.revoker = target.delegation.issuer := by
  unfold checkTarget at h
  split at h
  · cases h
  rename_i hid
  split at h
  · cases h
  · rename_i hrevoker
    exact ⟨not_not.mp hid, not_not.mp hrevoker⟩

variable {P options}

theorem revokes_of_valid {candidate delegation : CallerValue}
    (h : verifyAuthorityRevocation P options candidate delegation = .ok v) (hv : v.valid = true) :
    ∃ r target, r.value = snapshotPlainData candidate ∧ target.value = snapshotPlainData delegation ∧
      Revokes P options r target := by
  have hrun := settle_valid h hv
  obtain ⟨r, hr, hrun⟩ := bind_eq_ok.mp hrun
  obtain ⟨hcontent, hrun⟩ := bind_unit_eq_ok.mp hrun
  obtain ⟨target, htarget, hrun⟩ := bind_eq_ok.mp hrun
  obtain ⟨hnames, hsigned⟩ := bind_unit_eq_ok.mp hrun
  obtain ⟨hvalue, hid⟩ := readTarget_ok P htarget
  obtain ⟨hdelegation, hrevoker⟩ := checkTarget_ok hnames
  exact ⟨r, target, shapeCandidate_ok hr, hvalue, hcontent, hid, hdelegation, hrevoker, hsigned⟩

theorem shape_of_valid {candidate delegation : CallerValue}
    (h : verifyAuthorityRevocation P options candidate delegation = .ok v) (hv : v.valid = true) :
    revocationShapeFailures (snapshotPlainData candidate) = [] := by
  obtain ⟨r, target, hr, -⟩ := revokes_of_valid h hv
  exact hr ▸ r.shape

theorem verify_snapshot (candidate delegation : CallerValue) :
    verifyAuthorityRevocation P options (plain (snapshotPlainData candidate)) delegation =
      verifyAuthorityRevocation P options candidate delegation := by
  have hshape : shapeCandidate (plain (snapshotPlainData candidate)) = shapeCandidate candidate := by
    unfold shapeCandidate
    simp only [snapshot_idem]
  unfold verifyAuthorityRevocation
  rw [hshape]

end

end AgentPassport.RevocationRecord
