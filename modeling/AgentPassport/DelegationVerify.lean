import AgentPassport.CanonicalJcs
import AgentPassport.DelegationCompare
import AgentPassport.Outcome

/-! Root-to-leaf verification of a delegation chain (`v2/authority-delegation/verify.ts` and
`canonical.ts`): eleven phases over the whole chain, of which the first that fails decides. -/
namespace AgentPassport.DelegationVerify
open JsText Js CanonicalJcs PlainData DelegationSchema DelegationCompare Outcome

/-- What the runtime supplies: the text of a number, SHA-256 in hexadecimal, and Ed25519 over
hexadecimal keys. Signing fails on key material it cannot use. -/
structure Primitives where
  numText : Double → Str
  sha256Hex : Str → Str
  sign : Str → Str → Option Str
  verify : Str → Str → Str → Bool

section Canonical
variable (P : Primitives)

def computeAuthorityDelegationId (body : JsValue) : Except JcsError Str := do
  return lit "sha256:" ++ P.sha256Hex (← authorityDelegationIdInput P.numText body)

def computeAuthorityDelegationIdForWrite (body : JsValue) : Except JcsError Str := do
  return lit "sha256:" ++ P.sha256Hex (← authorityDelegationIdInputForWrite P.numText body)

/-- `verifyAuthorityDelegationSignature`, with the signature read from the record. -/
def verifyAuthorityDelegationSignature (delegation : JsValue) (signature publicKey : Str) :
    Except JcsError Bool := do
  return P.verify (← authorityDelegationSignatureInput P.numText (unsignedDelegation delegation))
    signature publicKey

end Canonical

inductive AuthorityValidationState where
  | valid | invalid | indeterminate | unsupported
  deriving DecidableEq

/-- The states a failure can have. -/
inductive Refusal where
  | invalid | indeterminate | unsupported
  deriving DecidableEq

def Refusal.state : Refusal → AuthorityValidationState
  | .invalid => .invalid
  | .indeterminate => .indeterminate
  | .unsupported => .unsupported

structure AuthorityValidationResult where
  state : AuthorityValidationState
  failures : List AuthorityFailure
  deriving DecidableEq

/-- What the key resolver gave: a string, an object with a string `outcome`, or anything else,
a missing or throwing resolver included. -/
inductive KeyAnswer where
  | key (material : Str)
  | outcome (name : Str)
  | other
  deriving DecidableEq

inductive TrustAnswer where
  | threw
  | notBoolean
  | decided (trusted : Bool)
  deriving DecidableEq

/-- `other` is any other answer, and a missing or throwing resolver. -/
inductive RevocationAnswer where
  | active | revoked | other
  deriving DecidableEq

/-- The options as read: a member that is missing or whose getter throws is `undefined`, and a
trust policy that is not a function is none. -/
structure AuthorityChainVerificationOptions where
  now : JsValue
  resolveVerificationKey : Str → Str → Str → KeyAnswer
  trustRoot : Option (JsValue → TrustAnswer)
  resolveRevocation : JsValue → RevocationAnswer

/-- How a phase leaves the function: with a result, or with an exception of the canonicalizer. -/
inductive Exit where
  | refused (state : Refusal) (failures : List AuthorityFailure)
  | threw (e : JcsError)

def refuseAt (state : Refusal) (code : AuthorityFailureCode) (i : Nat) (message : String) : Except Exit Unit :=
  throw (.refused state [⟨code, message, some i, none⟩])

def orThrow {α : Type} : Except JcsError α → Except Exit α
  | .ok a => .ok a
  | .error e => .error (.threw e)

def indexed (i : Nat) (f : AuthorityFailure) : AuthorityFailure := { f with index := some i }

def isUnsupportedCode (code : AuthorityFailureCode) : Bool :=
  code = .UNSUPPORTED_VERSION || code = .UNSUPPORTED_RECORD_TYPE || code = .UNSUPPORTED_PROFILE

def shapeState (failures : List AuthorityFailure) : Refusal :=
  if failures.any (fun f => !isUnsupportedCode f.code && f.code ≠ .RESOURCE_LIMIT) then .invalid
  else if failures.any (fun f => isUnsupportedCode f.code) then .unsupported
  else .indeterminate

/-- Phase 1: closed schema and canonical values, member by member. -/
def shapeAll : Nat → List CallerValue → Except Exit (List ShapedRecord)
  | _, [] => return []
  | i, member :: rest =>
    let snapshot := snapshotPlainData member
    let failures := validateAuthorityDelegationShape (plain snapshot)
    if h : failures = [] then do
      let chain ← shapeAll (i + 1) rest
      return ⟨snapshot, (snapshot_idem member ▸ h : shapeFailures (snapshotPlainData member) = [])⟩ :: chain
    else throw (.refused (shapeState (failures.map (indexed i))) (failures.map (indexed i)))

def isKeyMaterial (s : Str) : Bool := s.length = 64 && s.all isHex

/-- Phase 2: the content address. -/
def checkId (P : Primitives) (i : Nat) (r : ShapedRecord) : Except Exit Unit := do
  let id ← orThrow (computeAuthorityDelegationId P (authorityDelegationBody r.value))
  if id ≠ r.delegation.delegationId then
    refuseAt .invalid .ID_MISMATCH i "delegation content address does not match body"

/-- `keyResolutionFailure`, or the usable key. -/
def usableKey : KeyAnswer → Except (Refusal × AuthorityFailureCode × String) Str
  | .key material =>
    if isKeyMaterial material then .ok material
    else .error (.indeterminate, .KEY_MATERIAL_MALFORMED, "resolved key material is not a 32-byte Ed25519 public key")
  | .outcome name =>
    if name = lit "unsupported_scheme" then
      .error (.unsupported, .KEY_SCHEME_UNSUPPORTED, "identifier scheme is not supported by the resolver")
    else if name = lit "not_found" then
      .error (.indeterminate, .KEY_NOT_FOUND, "subject or key was not found")
    else if name = lit "ambiguous" then
      .error (.indeterminate, .KEY_AMBIGUOUS, "key resolution was ambiguous")
    else if name = lit "unreachable" then
      .error (.indeterminate, .KEY_UNREACHABLE, "key material was unreachable")
    else if name = lit "malformed" then
      .error (.indeterminate, .KEY_MATERIAL_MALFORMED, "resolved key material is structurally malformed")
    else .error (.indeterminate, .KEY_RESOLUTION_FAILED, "issuer verification key could not be resolved")
  | .other => .error (.indeterminate, .KEY_RESOLUTION_FAILED, "issuer verification key could not be resolved")

/-- Phase 3: the historical signing key, then the signature. -/
def checkSignature (P : Primitives) (options : AuthorityChainVerificationOptions) (i : Nat)
    (r : ShapedRecord) : Except Exit Unit :=
  match usableKey (options.resolveVerificationKey r.delegation.issuer r.delegation.verificationMethod
      r.delegation.issuedAt) with
  | .error (state, code, message) => refuseAt state code i message
  | .ok key => do
    let verified ← orThrow (verifyAuthorityDelegationSignature P r.value r.delegation.signature key)
    if !verified then refuseAt .invalid .SIGNATURE_INVALID i "Ed25519 signature is invalid"

/-- Phase 4: duplicate identifiers. -/
def checkDistinct : Nat → List Str → List ShapedRecord → Except Exit Unit
  | _, _, [] => .ok ()
  | i, seen, r :: rest =>
    if r.delegation.delegationId ∈ seen then
      refuseAt .invalid .CHAIN_DUPLICATE_ID i "delegation ID repeats in chain"
    else checkDistinct (i + 1) (r.delegation.delegationId :: seen) rest

/-- Phase 5: root trust, decided on a fresh copy. -/
def checkRootTrust (options : AuthorityChainVerificationOptions) (root : ShapedRecord) : Except Exit Unit :=
  match options.trustRoot with
  | none => refuseAt .indeterminate .ROOT_UNTRUSTED 0 "root trust policy is unavailable"
  | some trustRoot =>
    match trustRoot (snapshotPlainData (plain root.value)) with
    | .threw => refuseAt .indeterminate .ROOT_UNTRUSTED 0 "root trust policy could not decide"
    | .notBoolean => refuseAt .indeterminate .ROOT_UNTRUSTED 0 "root trust policy returned no boolean decision"
    | .decided false => refuseAt .invalid .ROOT_UNTRUSTED 0 "root is not accepted by verifier trust policy"
    | .decided true => .ok ()

/-- Phase 6: the root's null and every child's link. -/
def checkRootParent (root : ShapedRecord) : Except Exit Unit :=
  if root.delegation.parentDelegationId ≠ none then
    refuseAt .invalid .PARENT_MISMATCH 0 "full chain root must carry null parent_delegation_id"
  else .ok ()

def checkParent (i : Nat) (parent child : ShapedRecord) : Except Exit Unit :=
  if child.delegation.parentDelegationId ≠ some parent.delegation.delegationId then
    refuseAt .invalid .PARENT_MISMATCH i "child does not name immediate parent content address"
  else .ok ()

/-- Phase 7: issuer-to-subject continuity. -/
def checkContinuity (i : Nat) (parent child : ShapedRecord) : Except Exit Unit :=
  if child.delegation.issuer ≠ parent.delegation.subject then
    refuseAt .invalid .CHAIN_CONTINUITY i "child issuer is not parent subject"
  else .ok ()

/-- Phase 8: child issuance time. -/
def checkIssuance (i : Nat) (parent child : ShapedRecord) : Except Exit Unit :=
  if child.delegation.issuedAt < parent.delegation.authority.time.notBefore ∨
      parent.delegation.authority.time.notAfter ≤ child.delegation.issuedAt then
    refuseAt .invalid .ISSUED_AT_OUTSIDE_PARENT i "child was issued outside parent validity window"
  else .ok ()

/-- Phase 9: the seven facet comparisons. -/
def checkNarrowing (i : Nat) (parent child : ShapedRecord) : Except Exit Unit :=
  let failures := compareAuthority parent.delegation.authority child.delegation.authority
  if failures ≠ [] then
    throw (.refused (if failures.all (fun f => f.code = .UNSUPPORTED_PROFILE) then .unsupported else .invalid)
      (failures.map (indexed i)))
  else .ok ()

/-- Phase 10: current validity. -/
def checkCurrent (now : Str) (i : Nat) (r : ShapedRecord) : Except Exit Unit :=
  if now < r.delegation.authority.time.notBefore then
    refuseAt .invalid .NOT_YET_VALID i "delegation is not yet valid"
  else if r.delegation.authority.time.notAfter ≤ now then
    refuseAt .invalid .EXPIRED i "delegation has expired"
  else .ok ()

/-- Phase 11: revocation, asked with a fresh copy. -/
def checkRevocation (options : AuthorityChainVerificationOptions) (i : Nat) (r : ShapedRecord) :
    Except Exit Unit :=
  match options.resolveRevocation (snapshotPlainData (plain r.value)) with
  | .revoked => refuseAt .invalid .REVOKED i "delegation is revoked"
  | .other => refuseAt .indeterminate .REVOCATION_UNKNOWN i "revocation status is unknown"
  | .active => .ok ()

section
variable (P : Primitives) (options : AuthorityChainVerificationOptions)

/-- Phases 5 and the first half of 6, on the root. -/
def checkRoot : List ShapedRecord → Except Exit Unit
  | [] => .ok ()
  | root :: _ => do
    checkRootTrust options root
    checkRootParent root

def verifyChain (now : Str) (chain : List ShapedRecord) : Except Exit Unit := do
  forEach (checkId P) 0 chain
  forEach (checkSignature P options) 0 chain
  checkDistinct 0 [] chain
  checkRoot options chain
  forPairs checkParent 1 chain
  forPairs checkContinuity 1 chain
  forPairs checkIssuance 1 chain
  forPairs checkNarrowing 1 chain
  forEach (checkCurrent now) 0 chain
  forEach (checkRevocation options) 0 chain

def settle : Except Exit Unit → Except JcsError AuthorityValidationResult
  | .ok () => .ok ⟨.valid, []⟩
  | .error (.refused state failures) => .ok ⟨state.state, failures⟩
  | .error (.threw e) => .error e

def verifyAuthorityDelegationChain (rawChain : CallerValue) : Except JcsError AuthorityValidationResult :=
  match readPlainDataChainContainer 1 256 rawChain with
  | .error .overCeiling =>
    .ok ⟨.indeterminate, [failure .RESOURCE_LIMIT "chain exceeds this implementation's 256-record ceiling"]⟩
  | .error .notAContainer =>
    .ok ⟨.invalid, [failure .SCHEMA_INVALID "chain must be a container of at least one record"]⟩
  | .ok container =>
    match str? options.now with
    | none =>
      .ok ⟨.invalid, [failure .NONCANONICAL_VALUE "verification clock must be canonical UTC milliseconds"]⟩
    | some now =>
      if !canonicalTimestamp now then
        .ok ⟨.invalid, [failure .NONCANONICAL_VALUE "verification clock must be canonical UTC milliseconds"]⟩
      else settle (do
        let chain ← shapeAll 0 container
        verifyChain P options now chain)

end

end AgentPassport.DelegationVerify
