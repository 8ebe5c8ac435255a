import AgentPassport.BindingRevocation
import AgentPassport.EvidenceRows

/-! Revocation artifacts read against the objects they name (`v2/revocation-verification/verify.ts`,
`digest.ts`; `verifyRevocation` of `core/delegation.ts`). The key resolver is a function of what it
is asked. -/
namespace AgentPassport.RevocationEvidence
open JsText Js CanonicalJcs LegacyCanonical CanonicalRead EvidenceRows Utf8 Sha256 BindingRevocation
open DelegationSchema (str?)

/-- What the verifier reads of a delegation, and of a binding. -/
structure Delegation where
  delegationId : Str
  delegatedBy : Str

structure PrincipalBinding where
  binding_id : Str

/-- An artifact: any value a JavaScript object can hold. -/
structure Artifact where
  value : JsValue
  made : wellMade value = true

structure RevocationVerificationInput where
  artifacts : List Artifact
  delegations : OrderedMap Str Delegation
  bindings : OrderedMap Str PrincipalBinding
  resolver : HistoricalKeyResolver

inductive RevocationSubjectKind where
  | delegation | principal_binding
  deriving DecidableEq

def kindText : RevocationSubjectKind → Str
  | .delegation => lit "delegation"
  | .principal_binding => lit "principal_binding"

abbrev Subject := RevocationSubjectKind × Str

structure RevocationRecord where
  delegationId : Str
  revocationId : Str
  revokedBy : Str
  signature : Str
  value : JsValue

inductive Classified where
  | delegation (record : RevocationRecord)
  | principal_binding (subject_id : Str) (record : JsValue)
  | unclassifiable (reason : Str)

def nonEmptyString (artifact : JsValue) (name : String) : Option Str :=
  match artifact.get (lit name) with
  | .str (c :: s) => some (c :: s)
  | _ => none

def classifyBinding (artifact : JsValue) : Classified :=
  if str? (artifact.get (lit "record_type")) ≠ some (lit "aps.principal-binding-revocation") then
    .unclassifiable (lit "unknown record_type for a revocation artifact")
  else
    match nonEmptyString artifact "binding_id" with
    | some id => .principal_binding id artifact
    | none => .unclassifiable (lit "binding revocation carries no readable binding_id")

def classifyDelegation (artifact : JsValue) : Classified :=
  match nonEmptyString artifact "delegationId", nonEmptyString artifact "revocationId",
    nonEmptyString artifact "revokedBy", nonEmptyString artifact "signature" with
  | some delegationId, some revocationId, some revokedBy, some signature =>
    .delegation ⟨delegationId, revocationId, revokedBy, signature, artifact⟩
  | _, _, _, _ => .unclassifiable (lit "artifact matches no known revocation record shape")

def classify : JsValue → Classified
  | .obj members =>
    if (member? (lit "record_type") members).isSome then classifyBinding (.obj members)
    else classifyDelegation (.obj members)
  | _ => .unclassifiable (lit "artifact is not a JSON object")

inductive RevocationDiscardOutcome where
  | invalid_reference | unauthorized_revoker | invalid_signature | invalid | malformed
  deriving DecidableEq

/-- Why an artifact was left out; `malformed` stands for those without a subject. -/
structure Failure where
  outcome : RevocationDiscardOutcome
  reason : Str
  deriving DecidableEq

/-- What a verifier throws through. -/
inductive EvidenceError where
  | legacy (e : LegacyError)
  | jcs (e : JcsError)

section
variable (R : Runtime)

def verifyRevocation (record : RevocationRecord) : Except LegacyError Bool := do
  let canonical ← canonicalize R.numText (omitMember (lit "signature") record.value)
  return R.verify (canonical.getD []) record.signature record.revokedBy

def checkDelegationArtifact (record : RevocationRecord) (delegations : OrderedMap Str Delegation) :
    Except EvidenceError (Option Failure) :=
  match verifyRevocation R record with
  | .error e => throw (.legacy e)
  | .ok false => return some ⟨.invalid_signature, lit "verifyRevocation rejected the record signature"⟩
  | .ok true =>
    match delegations.get record.delegationId with
    | none => return some ⟨.invalid_reference, lit "no supplied delegation matches delegationId"⟩
    | some delegation =>
      if delegation.delegationId ≠ record.delegationId then
        return some ⟨.invalid_reference, lit "no supplied delegation matches delegationId"⟩
      else if record.revokedBy ≠ delegation.delegatedBy then
        return some ⟨.unauthorized_revoker, lit "revokedBy is not the delegation delegatedBy key"⟩
      else return none

def checkBindingArtifact (bindingId : Str) (record : JsValue) (bindings : OrderedMap Str PrincipalBinding)
    (resolver : HistoricalKeyResolver) : Except EvidenceError (Option Failure) :=
  match verifyPrincipalBindingRevocationV1 R record resolver with
  | .error e => throw (.jcs e)
  | .ok verified =>
    if verified.state ≠ .valid then return some ⟨.invalid, verified.code⟩
    else
      match bindings.get bindingId with
      | none => return some ⟨.invalid_reference, lit "no supplied binding matches binding_id"⟩
      | some binding =>
        if binding.binding_id ≠ bindingId then
          return some ⟨.invalid_reference, lit "no supplied binding matches binding_id"⟩
        else return none

def REVOCATION_ARTIFACT_DOMAIN : Str := lit "APS-REVOCATION-ARTIFACT-V0"

def preimage (text : Str) : List UInt8 := utf8 REVOCATION_ARTIFACT_DOMAIN ++ 0 :: utf8 text

def revocationArtifactDigest (artifact : JsValue) : Except JcsError Str := do
  let text ← canonicalizeJCSForWrite R.numText artifact
  return lit "sha256:" ++ hex (R.sha256 (preimage text))

structure RevocationArtifactEntry where
  revocation_artifact_digest : Str
  ref_id : Str
  deriving DecidableEq

abbrev MutableSubject := Row Subject Str RevocationArtifactEntry Failure

abbrev Subjects := Rows Str Subject Str RevocationArtifactEntry Failure

def subjectKey (subject : Subject) : Str := kindText subject.1 ++ 0x20 :: subject.2

def setRow (st : Subjects) (subject : Subject) (row : MutableSubject) : Subjects :=
  { st with rows := st.rows.set (subjectKey subject) row }

/-- The rows when a classified artifact has been checked; its subject has a row from here on. -/
def addArtifact (st : Subjects) (index : Nat) (artifact : JsValue) (subject : Subject) (refId : Str)
    (failure : Option Failure) : Subjects :=
  let row := st.row subjectKey subject
  match failure with
  | some failure => setRow st subject { row with discards := row.discards ++ [(index, failure)] }
  | none =>
    match revocationArtifactDigest R artifact with
    | .error _ =>
      setRow st subject { row with
        discards := row.discards ++
          [(index, ⟨.invalid, lit "artifact has no canonical form at the write boundary"⟩)] }
    | .ok digest =>
      if (row.artifacts.get digest).isSome then
        setRow st subject { row with duplicates := row.duplicates + 1 }
      else setRow st subject { row with artifacts := row.artifacts.set digest ⟨digest, refId⟩ }

/-- One turn of the loop. The identifier of a binding revocation that was verified is a string. -/
def readArtifact (input : RevocationVerificationInput) (st : Subjects) (index : Nat) (artifact : JsValue) :
    Except EvidenceError Subjects :=
  match classify artifact with
  | .unclassifiable reason => return { st with unplaced := st.unplaced ++ [(index, ⟨.malformed, reason⟩)] }
  | .delegation record => do
    let failure ← checkDelegationArtifact R record input.delegations
    return addArtifact R st index artifact (.delegation, record.delegationId) record.revocationId failure
  | .principal_binding id record => do
    let failure ← checkBindingArtifact R id record input.bindings input.resolver
    return addArtifact R st index artifact (.principal_binding, id)
      ((str? (record.get (lit "revocation_id"))).getD []) failure

def readArtifacts (input : RevocationVerificationInput) (st : Subjects) (index : Nat) :
    List Artifact → Except EvidenceError Subjects
  | [] => return st
  | artifact :: rest => do
    let st ← readArtifact R input st index artifact.value
    readArtifacts input st (index + 1) rest

inductive RevocationSubjectOutcome where
  | REVOKED | no_revocation_evidence_observed
  deriving DecidableEq

structure RevocationSubjectResult where
  subject_kind : RevocationSubjectKind
  subject_id : Str
  outcome : RevocationSubjectOutcome
  artifacts : List RevocationArtifactEntry
  duplicate_count : Nat
  discards : List (Nat × Failure)
  deriving DecidableEq

structure RevocationVerificationResult where
  subjects : List RevocationSubjectResult
  unclassifiable : List (Nat × Failure)
  deriving DecidableEq

def subjectResult (row : MutableSubject) : RevocationSubjectResult where
  subject_kind := row.subject.1
  subject_id := row.subject.2
  outcome := if 0 < row.artifacts.entries.length then .REVOKED else .no_revocation_evidence_observed
  artifacts := row.artifacts.values.insertionSort
    (fun a b => a.revocation_artifact_digest ≤ b.revocation_artifact_digest)
  duplicate_count := row.duplicates
  discards := row.discards

/-- `compare(a.subject_kind, b.subject_kind) || compare(a.subject_id, b.subject_id)`. -/
def subjectLe (a b : Subject) : Prop := kindText a.1 < kindText b.1 ∨ (kindText a.1 = kindText b.1 ∧ a.2 ≤ b.2)

instance : DecidableRel subjectLe := fun _ _ => inferInstanceAs (Decidable (_ ∨ (_ ∧ _)))

def seeds (input : RevocationVerificationInput) : List Subject :=
  input.delegations.values.map (fun d => (RevocationSubjectKind.delegation, d.delegationId)) ++
    input.bindings.values.map (fun b => (RevocationSubjectKind.principal_binding, b.binding_id))

def verifyRevocationEvidence (input : RevocationVerificationInput) :
    Except EvidenceError RevocationVerificationResult := do
  let st ← readArtifacts R input (Rows.seeded subjectKey (seeds input)) 0 input.artifacts
  return ⟨(st.sorted subjectLe).map subjectResult, st.unplaced⟩

end

end AgentPassport.RevocationEvidence
