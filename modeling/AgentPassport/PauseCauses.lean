import AgentPassport.CanonicalJcs
import AgentPassport.LifecycleState
import AgentPassport.MapLoops

/-! Suspension and restriction as a set of causes (`v2/suspension/types.ts`,
`v2/suspension/evaluate.ts`): every cause and release record is disposed of on its own, and the
pause state is read off what remains. -/
namespace AgentPassport.PauseCauses
open JsText Js CanonicalJcs LifecycleState

def SUSPENSION_CAUSE_TYPE : Str := lit "proposed:aps:suspension-cause:v0"
def SUSPENSION_RELEASE_TYPE : Str := lit "proposed:aps:cause-release:v0"

inductive PauseKind where
  | suspension | restriction
  deriving DecidableEq

def kindName : PauseKind → Str
  | .suspension => lit "suspension"
  | .restriction => lit "restriction"

inductive ReleaseStanding where
  | has_standing | no_standing | unknown
  deriving DecidableEq

/-- A cause that passed its shape check, with the record it was read from: every member is signed. -/
structure SuspensionCause where
  record : JsValue
  record_type : Str
  cause_id : Str
  delegation_id : Str
  imposed_by : Str
  issued_at : Str
  reason_code : Str
  verification_method : Str
  signature : Str
  kind : PauseKind

/-- A release that passed its shape check, with its record. -/
structure SuspensionRelease where
  record : JsValue
  record_type : Str
  release_id : Str
  delegation_id : Str
  issuer : Str
  issued_at : Str
  verification_method : Str
  signature : Str
  cause_ids : List Str

inductive SuspensionReasonCode where
  | NO_CAUSE_PRESENTED | NO_CAUSE_IN_EVIDENCE | ALL_CAUSES_RELEASED | CAUSES_OUTSTANDING
  | RELEASE_STANDING_NOT_ESTABLISHED
  | CAUSE_IN_EVIDENCE | CAUSE_NOT_ON_DELEGATION | CAUSE_RECORD_TYPE_UNRECOGNISED | CAUSE_NOT_YET_IN_EVIDENCE
  | CAUSE_SIGNATURE_UNVERIFIED | CAUSE_IMPOSER_BINDING_MISMATCH | CAUSE_RELEASED
  | RELEASE_IN_EVIDENCE | RELEASE_NOT_ON_DELEGATION | RELEASE_RECORD_TYPE_UNRECOGNISED
  | RELEASE_SIGNATURE_UNVERIFIED | RELEASE_ISSUER_BINDING_MISMATCH | RELEASE_AFTER_EVALUATION_INSTANT
  | CAUSE_NOT_PRESENTED | RELEASE_PRECEDES_IMPOSITION | RELEASER_WITHOUT_STANDING
  deriving DecidableEq

structure ReleaseCauseDisposition where
  cause_id : Str
  disposition : SuspensionReasonCode
  deriving DecidableEq

structure ReleaseDisposition where
  release_id : Str
  disposition : SuspensionReasonCode
  causes : List ReleaseCauseDisposition
  deriving DecidableEq

structure CauseDisposition where
  cause_id : Str
  disposition : SuspensionReasonCode
  released_by : Option Str := none
  deriving DecidableEq

structure PauseStateExplanation where
  state : LifecycleStateResult
  causes : List CauseDisposition
  releases : List ReleaseDisposition
  outstanding : List OutstandingCause
  deriving DecidableEq

inductive SuspensionCauseCode where
  | INPUT_MALFORMED | CAUSE_MALFORMED | CAUSE_KIND_UNKNOWN | RELEASE_MALFORMED | DUPLICATE_CAUSE_ID
  | DUPLICATE_RELEASE_ID | STANDING_ANSWER_UNKNOWN
  deriving DecidableEq

/-- What the evaluation throws: its own error, that of the lifecycle constructor, or what the standing
resolver threw. -/
inductive PauseError where
  | suspension (code : SuspensionCauseCode) (message : Str)
  | lifecycle (error : LifecycleStateError)
  | resolver (thrown : JsValue)

def fail {α : Type} (code : SuspensionCauseCode) (message : Str) : Except PauseError α :=
  throw (.suspension code message)

/-- The caller's two resolvers and the runtime: each resolver returns a value or throws one. -/
structure Resolvers where
  resolveReleaseStanding : SuspensionRelease → SuspensionCause → Except JsValue JsValue
  resolveVerificationKey : Str → Str → Except JsValue JsValue
  numText : Double → Str
  verifyEd25519 : Str → Str → Str → Bool

/-- The data of the input, as it is found. -/
structure PauseStateInput where
  delegationId : JsValue
  causes : JsValue
  releases : JsValue
  atInstant : JsValue

/-- `isNonEmptyString`, with the string. -/
def nonEmpty? : JsValue → Option Str
  | .str (c :: rest) => some (c :: rest)
  | _ => none

def requireText (code : SuspensionCauseCode) (place : Str) (value : JsValue) : Except PauseError Str :=
  match nonEmpty? value with
  | some s => return s
  | none => fail code (place ++ lit " must be a non-empty string")

def textField (code : SuspensionCauseCode) (place : Str) (record : JsValue) (field : String) : Except PauseError Str :=
  requireText code (place ++ lit "." ++ lit field) (record.get (lit field))

def pauseKind (place : Str) (value : JsValue) : Except PauseError PauseKind :=
  match value with
  | .str s =>
    if s = lit "suspension" then return .suspension
    else if s = lit "restriction" then return .restriction
    else fail .CAUSE_KIND_UNKNOWN (place ++ lit ".kind must be one of suspension, restriction")
  | _ => fail .CAUSE_KIND_UNKNOWN (place ++ lit ".kind must be one of suspension, restriction")

def requireRecord (code : SuspensionCauseCode) (place : Str) (record : JsValue) : Except PauseError Unit :=
  if record.isObject then pure () else fail code (place ++ lit " is not an object")

/-- `assertCauseShape`, with the cause it lets through. -/
def assertCauseShape (record : JsValue) (index : Nat) : Except PauseError SuspensionCause := do
  let place := lit "causes[" ++ decimal index ++ lit "]"
  requireRecord .CAUSE_MALFORMED place record
  let record_type ← textField .CAUSE_MALFORMED place record "record_type"
  let cause_id ← textField .CAUSE_MALFORMED place record "cause_id"
  let delegation_id ← textField .CAUSE_MALFORMED place record "delegation_id"
  let imposed_by ← textField .CAUSE_MALFORMED place record "imposed_by"
  let issued_at ← textField .CAUSE_MALFORMED place record "issued_at"
  let reason_code ← textField .CAUSE_MALFORMED place record "reason_code"
  let verification_method ← textField .CAUSE_MALFORMED place record "verification_method"
  let signature ← textField .CAUSE_MALFORMED place record "signature"
  let kind ← pauseKind place (record.get (lit "kind"))
  return { record, record_type, cause_id, delegation_id, imposed_by, issued_at, reason_code, verification_method,
           signature, kind }

def causeIds (place : Str) (index : Nat) : List JsValue → Except PauseError (List Str)
  | [] => return []
  | value :: rest => do
    let id ← requireText .RELEASE_MALFORMED (place ++ lit ".cause_ids[" ++ decimal index ++ lit "]") value
    let ids ← causeIds place (index + 1) rest
    return id :: ids

def readCauseIds (place : Str) (value : JsValue) : Except PauseError (List Str) :=
  match value with
  | .arr items => causeIds place 0 items
  | _ => fail .RELEASE_MALFORMED (place ++ lit ".cause_ids must be an array")

/-- `assertReleaseShape`, with the release it lets through. -/
def assertReleaseShape (record : JsValue) (index : Nat) : Except PauseError SuspensionRelease := do
  let place := lit "releases[" ++ decimal index ++ lit "]"
  requireRecord .RELEASE_MALFORMED place record
  let record_type ← textField .RELEASE_MALFORMED place record "record_type"
  let release_id ← textField .RELEASE_MALFORMED place record "release_id"
  let delegation_id ← textField .RELEASE_MALFORMED place record "delegation_id"
  let issuer ← textField .RELEASE_MALFORMED place record "issuer"
  let issued_at ← textField .RELEASE_MALFORMED place record "issued_at"
  let verification_method ← textField .RELEASE_MALFORMED place record "verification_method"
  let signature ← textField .RELEASE_MALFORMED place record "signature"
  let cause_ids ← readCauseIds place (record.get (lit "cause_ids"))
  return { record, record_type, release_id, delegation_id, issuer, issued_at, verification_method, signature,
           cause_ids }

/-- `forEach` of a shape check over the records. -/
def assertShapes {α : Type} (check : JsValue → Nat → Except PauseError α) (index : Nat) :
    List JsValue → Except PauseError (List α)
  | [] => return []
  | record :: rest => do
    let first ← check record index
    let others ← assertShapes check (index + 1) rest
    return first :: others

/-- The loop that refuses a second record under one id. -/
def refuseDuplicates (code : SuspensionCauseCode) (field : Str) (seen : List Str) : List Str → Except PauseError Unit
  | [] => return ()
  | id :: rest =>
    if id ∈ seen then fail code (field ++ lit " " ++ id ++ lit " appears more than once")
    else refuseDuplicates code field (id :: seen) rest

/-- The input once its records have their shape and their own ids. -/
structure PauseQuery where
  delegationId : Str
  atInstant : Str
  causes : List SuspensionCause
  releases : List SuspensionRelease

def readArray (place : String) (value : JsValue) : Except PauseError (List JsValue) :=
  match value with
  | .arr items => return items
  | _ => fail .INPUT_MALFORMED (lit place ++ lit " must be an array")

def readInput (input : PauseStateInput) : Except PauseError PauseQuery := do
  let delegationId ← requireText .INPUT_MALFORMED (lit "delegationId") input.delegationId
  let atInstant ← requireText .INPUT_MALFORMED (lit "atInstant") input.atInstant
  let causeRecords ← readArray "causes" input.causes
  let releaseRecords ← readArray "releases" input.releases
  let causes ← assertShapes assertCauseShape 0 causeRecords
  let releases ← assertShapes assertReleaseShape 0 releaseRecords
  refuseDuplicates .DUPLICATE_CAUSE_ID (lit "cause_id") [] (causes.map (·.cause_id))
  refuseDuplicates .DUPLICATE_RELEASE_ID (lit "release_id") [] (releases.map (·.release_id))
  return { delegationId, atInstant, causes, releases }

section
variable (R : Resolvers) (q : PauseQuery)

/-- `suspensionRecordPreimage`: every own member but `signature` and `record_id`. An assignment to
`__proto__` makes no member. -/
def suspensionRecordPreimage (record : JsValue) : Except JcsError Str :=
  canonicalizeJCS R.numText
    (omitMember (lit "signature") (omitMember (lit "record_id") (omitMember (lit "__proto__") record)))

def signatureVerifies (record : JsValue) (signer method signature : Str) : Bool :=
  match R.resolveVerificationKey signer method with
  | .error _ => false
  | .ok value =>
    match nonEmpty? value with
    | none => false
    | some publicKey =>
      match suspensionRecordPreimage R record with
      | .error _ => false
      | .ok preimage => R.verifyEd25519 preimage signature publicKey

/-- `method.startsWith(party + '#')`. -/
def boundTo (party method : Str) : Bool := (party ++ lit "#").isPrefixOf method

def disposeCause (cause : SuspensionCause) : SuspensionReasonCode :=
  if cause.delegation_id ≠ q.delegationId then .CAUSE_NOT_ON_DELEGATION
  else if cause.record_type ≠ SUSPENSION_CAUSE_TYPE then .CAUSE_RECORD_TYPE_UNRECOGNISED
  else if q.atInstant < cause.issued_at then .CAUSE_NOT_YET_IN_EVIDENCE
  else if !signatureVerifies R cause.record cause.imposed_by cause.verification_method cause.signature then
    .CAUSE_SIGNATURE_UNVERIFIED
  else if !boundTo cause.imposed_by cause.verification_method then .CAUSE_IMPOSER_BINDING_MISMATCH
  else .CAUSE_IN_EVIDENCE

/-- The checks of a release record, before any cause is looked at. -/
def disposeRecord (release : SuspensionRelease) : SuspensionReasonCode :=
  if release.delegation_id ≠ q.delegationId then .RELEASE_NOT_ON_DELEGATION
  else if release.record_type ≠ SUSPENSION_RELEASE_TYPE then .RELEASE_RECORD_TYPE_UNRECOGNISED
  else if !signatureVerifies R release.record release.issuer release.verification_method release.signature then
    .RELEASE_SIGNATURE_UNVERIFIED
  else if !boundTo release.issuer release.verification_method then .RELEASE_ISSUER_BINDING_MISMATCH
  else if q.atInstant < release.issued_at then .RELEASE_AFTER_EVALUATION_INSTANT
  else .RELEASE_IN_EVIDENCE

def RELEASE_STANDINGS : List (Str × ReleaseStanding) :=
  [(lit "has_standing", .has_standing), (lit "no_standing", .no_standing), (lit "unknown", .unknown)]

def standing? : JsValue → Option ReleaseStanding
  | .str s => (RELEASE_STANDINGS.find? (fun a => a.1 = s)).map (·.2)
  | _ => none

def standingCode : ReleaseStanding → SuspensionReasonCode
  | .has_standing => .CAUSE_RELEASED
  | .no_standing => .RELEASER_WITHOUT_STANDING
  | .unknown => .RELEASE_STANDING_NOT_ESTABLISHED

def resolveStanding (release : SuspensionRelease) (cause : SuspensionCause) : Except PauseError ReleaseStanding :=
  match R.resolveReleaseStanding release cause with
  | .error thrown => throw (.resolver thrown)
  | .ok value =>
    match standing? value with
    | some standing => return standing
    | none => fail .STANDING_ANSWER_UNKNOWN
      (lit "resolveReleaseStanding must answer one of has_standing, no_standing, unknown")

def disposeNamed (inEvidence : OrderedMap Str SuspensionCause) (release : SuspensionRelease) (causeId : Str) :
    Except PauseError SuspensionReasonCode :=
  match inEvidence.get causeId with
  | none => return .CAUSE_NOT_PRESENTED
  | some cause =>
    if release.issued_at < cause.issued_at then return .RELEASE_PRECEDES_IMPOSITION
    else do
      let standing ← resolveStanding R release cause
      return standingCode standing

def disposeEach (inEvidence : OrderedMap Str SuspensionCause) (release : SuspensionRelease) :
    List Str → Except PauseError (List ReleaseCauseDisposition)
  | [] => return []
  | causeId :: rest => do
    let disposition ← disposeNamed R inEvidence release causeId
    let others ← disposeEach inEvidence release rest
    return ⟨causeId, disposition⟩ :: others

def disposeRelease (inEvidence : OrderedMap Str SuspensionCause) (release : SuspensionRelease) :
    Except PauseError ReleaseDisposition :=
  if disposeRecord R q release = .RELEASE_IN_EVIDENCE then do
    let causes ← disposeEach R inEvidence release release.cause_ids
    return ⟨release.release_id, .RELEASE_IN_EVIDENCE, causes⟩
  else return ⟨release.release_id, disposeRecord R q release, []⟩

def disposeReleases (inEvidence : OrderedMap Str SuspensionCause) :
    List SuspensionRelease → Except PauseError (List ReleaseDisposition)
  | [] => return []
  | release :: rest => do
    let first ← disposeRelease R q inEvidence release
    let others ← disposeReleases inEvidence rest
    return first :: others

def inEvidence : OrderedMap Str SuspensionCause :=
  OrderedMap.indexWhere (fun cause => disposeCause R q cause = .CAUSE_IN_EVIDENCE) (·.cause_id) q.causes .empty

/-- What the loop over the release dispositions has recorded: which release first cleared a cause, and the
causes some release got `unknown` standing for. -/
structure Recorded where
  releasedBy : OrderedMap Str Str
  unresolved : List Str

def noteEntry (release_id : Str) (s : Recorded) (entry : ReleaseCauseDisposition) : Recorded :=
  if entry.disposition = .CAUSE_RELEASED ∧ (s.releasedBy.get entry.cause_id).isNone then
    { s with releasedBy := s.releasedBy.set entry.cause_id release_id }
  else if entry.disposition = .RELEASE_STANDING_NOT_ESTABLISHED then
    { s with unresolved := s.unresolved.insert entry.cause_id }
  else s

def noteDisposition (s : Recorded) (d : ReleaseDisposition) : Recorded :=
  d.causes.foldl (noteEntry d.release_id) s

/-- The second pass takes out of `unresolved` what was released. -/
def record (ds : List ReleaseDisposition) : Recorded :=
  let s := ds.foldl noteDisposition ⟨.empty, []⟩
  { s with unresolved := s.releasedBy.keys.foldl (fun unresolved id => unresolved.erase id) s.unresolved }

/-- Everything the verdict is read off. -/
structure PauseSets where
  releaseDispositions : List ReleaseDisposition
  releasedBy : OrderedMap Str Str
  unresolved : List Str
  remaining : List SuspensionCause

def sortCauses (causes : List SuspensionCause) : List SuspensionCause :=
  causes.insertionSort (fun a b => a.cause_id ≤ b.cause_id)

def pauseSets : Except PauseError PauseSets := do
  let releaseDispositions ← disposeReleases R q (inEvidence R q) q.releases
  let s := record releaseDispositions
  let remaining :=
    sortCauses ((inEvidence R q).values.filter (fun cause => (s.releasedBy.get cause.cause_id).isNone))
  return ⟨releaseDispositions, s.releasedBy, s.unresolved, remaining⟩

/-- A cause with the release that cleared it. -/
def finalCause (releasedBy : OrderedMap Str Str) (cause : SuspensionCause) : CauseDisposition :=
  match disposeCause R q cause, releasedBy.get cause.cause_id with
  | .CAUSE_IN_EVIDENCE, some releaseId => ⟨cause.cause_id, .CAUSE_RELEASED, some releaseId⟩
  | disposition, _ => ⟨cause.cause_id, disposition, none⟩

def outstandingOf (cause : SuspensionCause) : OutstandingCause :=
  ⟨cause.cause_id, kindName cause.kind, cause.reason_code⟩

def reasonText : SuspensionReasonCode → Str
  | .NO_CAUSE_PRESENTED => lit "NO_CAUSE_PRESENTED"
  | .NO_CAUSE_IN_EVIDENCE => lit "NO_CAUSE_IN_EVIDENCE"
  | .ALL_CAUSES_RELEASED => lit "ALL_CAUSES_RELEASED"
  | .CAUSES_OUTSTANDING => lit "CAUSES_OUTSTANDING"
  | _ => lit "RELEASE_STANDING_NOT_ESTABLISHED"

def pauseState (s : PauseSets) : Except LifecycleStateError LifecycleStateResult :=
  if 0 < s.unresolved.length then
    notEstablished [.source] (reasonText .RELEASE_STANDING_NOT_ESTABLISHED)
  else if s.remaining.length = 0 then
    let reasonCode : SuspensionReasonCode :=
      if q.causes.length = 0 then .NO_CAUSE_PRESENTED
      else if (inEvidence R q).entries.length = 0 then .NO_CAUSE_IN_EVIDENCE
      else .ALL_CAUSES_RELEASED
    lifecycleState { verdict := .valid, reason_code := reasonText reasonCode }
  else
    lifecycleState {
      verdict := if s.remaining.any (fun cause => cause.kind = .suspension) then .suspended else .restricted
      reason_code := reasonText .CAUSES_OUTSTANDING
      outstanding := some (s.remaining.map outstandingOf) }

def explain (s : PauseSets) : Except PauseError PauseStateExplanation :=
  match pauseState R q s with
  | .error e => throw (.lifecycle e)
  | .ok state =>
    return { state, causes := q.causes.map (finalCause R q s.releasedBy), releases := s.releaseDispositions,
             outstanding := state.outstanding.getD [] }

end

def explainPauseState (R : Resolvers) (input : PauseStateInput) : Except PauseError PauseStateExplanation := do
  let q ← readInput input
  let s ← pauseSets R q
  explain R q s

def evaluatePauseState (R : Resolvers) (input : PauseStateInput) : Except PauseError LifecycleStateResult := do
  let explanation ← explainPauseState R input
  return explanation.state

end AgentPassport.PauseCauses
