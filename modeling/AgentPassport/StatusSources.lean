import AgentPassport.LifecycleState
import AgentPassport.MapLoops
import AgentPassport.Rfc3339
import Mathlib.Data.List.Sort

/-! The multi-source status decision (`v2/status-coverage/decide.ts`): what an authorization
boundary can establish from a set of status answers, each aged against its own source's bound. -/
namespace AgentPassport.StatusSources
open JsText Js Rfc3339 LifecycleState

inductive StatusAnswer where
  | active | revoked | unavailable
  deriving DecidableEq

inductive SilencePolicy where
  | coverage_gap | unavailable_answer
  deriving DecidableEq

inductive VerifierMode where
  | online | offline
  deriving DecidableEq

inductive ConflictPolicy where
  | deny_with_conflict | not_established
  deriving DecidableEq

structure StaleAnswerPolicy where
  stale_revoked_still_counts : Bool
  stale_active_still_counts : Bool
  deriving DecidableEq

inductive StatusUseBasis where
  | within_freshness_bound | revocation_observed_outside_bound_still_used | stale_active_admitted_by_policy
  | stale_beyond_bound | source_gave_no_answer | answer_dated_after_boundary | source_not_accepted
  deriving DecidableEq

structure StatusSourceLine where
  source_id : Str
  answer : StatusAnswer
  as_of : Option Str
  age_s : Option Int
  freshness_bound_s : Option Int
  within_bound : Bool
  used : Bool
  use_basis : StatusUseBasis
  deriving DecidableEq

structure StatusConflict where
  states : List StatusAnswer
  sources : List Str
  deriving DecidableEq

inductive CoverageDenominator where
  | declared_required_set | sources_that_answered
  deriving DecidableEq

structure StatusCoverage where
  required : Nat
  answered : Nat
  usable_determinate : Nat
  silent : List Str
  measured_over : CoverageDenominator
  complete : Bool
  deriving DecidableEq

structure AdmittedSnapshot where
  source_id : Str
  as_of : Option Str
  age_s : Option Int
  declared_bound_s : Int
  deriving DecidableEq

inductive StatusCoverageReasonCode where
  | STATUS_ACTIVE_ALL_SOURCES_AGREE | ADMITTED_ON_SNAPSHOT_WITHIN_DECLARED_BOUND | STATUS_REVOKED
  | STATUS_SOURCES_CONFLICT | STATUS_STALE_BEYOND_BOUND | STATUS_COVERAGE_INCOMPLETE
  | STATUS_NO_USABLE_OBSERVATION
  deriving DecidableEq

def reasonText : StatusCoverageReasonCode → Str
  | .STATUS_ACTIVE_ALL_SOURCES_AGREE => lit "STATUS_ACTIVE_ALL_SOURCES_AGREE"
  | .ADMITTED_ON_SNAPSHOT_WITHIN_DECLARED_BOUND => lit "ADMITTED_ON_SNAPSHOT_WITHIN_DECLARED_BOUND"
  | .STATUS_REVOKED => lit "STATUS_REVOKED"
  | .STATUS_SOURCES_CONFLICT => lit "STATUS_SOURCES_CONFLICT"
  | .STATUS_STALE_BEYOND_BOUND => lit "STATUS_STALE_BEYOND_BOUND"
  | .STATUS_COVERAGE_INCOMPLETE => lit "STATUS_COVERAGE_INCOMPLETE"
  | .STATUS_NO_USABLE_OBSERVATION => lit "STATUS_NO_USABLE_OBSERVATION"

structure MultiSourceStatusBasis where
  authority_ref : Str
  evaluated_at : JsValue
  verifier_mode : VerifierMode
  required_sources : List Str
  sources_consulted : List StatusSourceLine
  sources_silent : List Str
  coverage : StatusCoverage
  conflict : Option StatusConflict
  snapshot : Option AdmittedSnapshot
  conflict_policy : ConflictPolicy
  stale_policy : StaleAnswerPolicy
  silence_is : SilencePolicy

structure MultiSourceStatusDecision where
  outcome : BoundaryOutcome
  lifecycle : LifecycleStateResult
  reason_code : StatusCoverageReasonCode
  basis : MultiSourceStatusBasis

inductive StatusCoverageCode where
  | INSTANT_INVALID | BOUND_INVALID | FIELD_INVALID | INPUT_INVALID | MODE_UNKNOWN | SILENCE_POLICY_REQUIRED
  | REQUIRED_SET_EMPTY | CONFLICT_POLICY_REQUIRED | STALE_POLICY_REQUIRED | SOURCE_DECLARED_TWICE
  | SNAPSHOT_SOURCE_REQUIRED | SNAPSHOT_SOURCE_ALSO_REQUIRED | SNAPSHOT_SOURCE_NOT_ALLOWED
  | SOURCE_ANSWERED_TWICE | ANSWER_UNKNOWN | UNAVAILABLE_CARRIES_AS_OF
  deriving DecidableEq

/-- What the decision throws: its own error, or that of the lifecycle constructor. -/
inductive StatusError where
  | coverage (code : StatusCoverageCode) (message : Str)
  | lifecycle (error : LifecycleStateError)
  deriving DecidableEq

def fail {α : Type} (code : StatusCoverageCode) (message : Str) : Except StatusError α :=
  throw (.coverage code message)

def parseFailure : Rfc3339FailureReason → Str
  | .notAString => lit "not_a_string"
  | .malformed => lit "malformed"
  | .fieldOutOfRange => lit "field_out_of_range"
  | .leapSecond => lit "leap_second"
  | .notRepresentable => lit "not_representable"

def requireInstant (value : JsValue) (field : Str) : Except StatusError Int :=
  match parseRfc3339 value with
  | .ok ms => return ms
  | .error reason =>
    fail .INSTANT_INVALID (field ++ lit " must be an RFC 3339 instant, got " ++ parseFailure reason)

def requireWholeSecondBound (value : JsValue) (field : Str) : Except StatusError Int :=
  match value with
  | .num (.finite d) =>
    if d.isSafeInteger && decide (0 ≤ d.scaled) then return d.toInt
    else fail .BOUND_INVALID (field ++ lit " must be a non-negative whole number of seconds")
  | _ => fail .BOUND_INVALID (field ++ lit " must be a non-negative whole number of seconds")

def requireNonEmptyString (value : JsValue) (field : Str) : Except StatusError Str :=
  match value with
  | .str (c :: rest) => return c :: rest
  | _ => fail .FIELD_INVALID (field ++ lit " must be a non-empty string")

def requireObject (value : JsValue) (field : Str) : Except StatusError Unit :=
  if value.isObject then pure () else fail .INPUT_INVALID (field ++ lit " must be an object")

/-- The members of the input, as they are found. -/
structure MultiSourceStatusInput where
  authority_ref : JsValue
  trustPolicy : JsValue
  answers : JsValue
  conflictPolicy : JsValue
  stalePolicy : JsValue
  now : JsValue

def MultiSourceStatusInput.read (value : JsValue) : MultiSourceStatusInput :=
  { authority_ref := value.get (lit "authority_ref"), trustPolicy := value.get (lit "trustPolicy"),
    answers := value.get (lit "answers"), conflictPolicy := value.get (lit "conflictPolicy"),
    stalePolicy := value.get (lit "stalePolicy"), now := value.get (lit "now") }

def readMode : JsValue → Except StatusError VerifierMode
  | .str s =>
    if s = lit "online" then return .online
    else if s = lit "offline" then return .offline
    else fail .MODE_UNKNOWN (lit "trustPolicy.mode must be online or offline")
  | _ => fail .MODE_UNKNOWN (lit "trustPolicy.mode must be online or offline")

/-- `trustPolicy.sources.required`, when it is an array. -/
def readRequired (sourceSet : JsValue) : Except StatusError (List JsValue) :=
  match sourceSet.get (lit "required") with
  | .arr required => return required
  | _ => fail .INPUT_INVALID (lit "trustPolicy.sources.required must be an array")

def requireDeclared (required : List JsValue) : Except StatusError Unit :=
  if required.isEmpty then
    fail .REQUIRED_SET_EMPTY (lit ("trustPolicy.sources.required must name at least one source: a verifier " ++
      "that accepts no source for a claim cannot establish it"))
  else pure ()

def silenceRequired : Str :=
  lit ("trustPolicy.sources.silence_is is required and has no default: it decides whether a " ++
    "silent required source is a coverage gap or an unavailable answer")

def readSilence : JsValue → Except StatusError SilencePolicy
  | .str s =>
    if s = lit "coverage_gap" then return .coverage_gap
    else if s = lit "unavailable_answer" then return .unavailable_answer
    else fail .SILENCE_POLICY_REQUIRED silenceRequired
  | _ => fail .SILENCE_POLICY_REQUIRED silenceRequired

def conflictRequired : Str :=
  lit ("conflictPolicy is required and has no default: the proposed text does not choose between " ++
    "denying on a conflict and returning not established")

def readConflictPolicy : JsValue → Except StatusError ConflictPolicy
  | .str s =>
    if s = lit "deny_with_conflict" then return .deny_with_conflict
    else if s = lit "not_established" then return .not_established
    else fail .CONFLICT_POLICY_REQUIRED conflictRequired
  | _ => fail .CONFLICT_POLICY_REQUIRED conflictRequired

def readStalePolicy (value : JsValue) : Except StatusError StaleAnswerPolicy :=
  match value.get (lit "stale_revoked_still_counts"), value.get (lit "stale_active_still_counts") with
  | .bool revoked, .bool active => return ⟨revoked, active⟩
  | _, _ =>
    fail .STALE_POLICY_REQUIRED (lit ("stalePolicy is required with both members set and has no default: " ++
      "whether an answer past its own bound still counts decides the deployment-relevant case and the " ++
      "proposed text does not choose"))

/-- The loop over the declared sources: a bound for every id, and the ids in their order. -/
def declareSources (bounds : OrderedMap Str Int) (requiredIds : List Str) :
    List JsValue → Except StatusError (OrderedMap Str Int × List Str)
  | [] => return (bounds, requiredIds)
  | declared :: rest => do
    let id ← requireNonEmptyString (declared.get (lit "source_id")) (lit "required[].source_id")
    if (bounds.get id).isSome then
      fail .SOURCE_DECLARED_TWICE
        (lit "source " ++ id ++ lit " is declared more than once, so its bound is ambiguous")
    else do
      let bound ← requireWholeSecondBound (declared.get (lit "freshness_bound_s"))
        (id ++ lit ".freshness_bound_s")
      declareSources (bounds.set id bound) (requiredIds ++ [id]) rest

def readSnapshot (mode : VerifierMode) (bounds : OrderedMap Str Int) (snap : JsValue) :
    Except StatusError (Option (Str × Int)) :=
  match mode, snap with
  | .online, .undefined => return none
  | .online, _ =>
    fail .SNAPSHOT_SOURCE_NOT_ALLOWED (lit "trustPolicy.snapshot_source is only meaningful in offline mode")
  | .offline, snap =>
    match snap with
    | .undefined | .null =>
      fail .SNAPSHOT_SOURCE_REQUIRED (lit ("offline mode requires trustPolicy.snapshot_source with a declared " ++
        "bound: BROAD-L7 forbids admitting on a snapshot with no declared bound"))
    | snap => do
      let id ← requireNonEmptyString (snap.get (lit "source_id")) (lit "snapshot_source.source_id")
      let bound ← requireWholeSecondBound (snap.get (lit "declared_bound_s")) (lit "snapshot_source.declared_bound_s")
      if (bounds.get id).isSome then
        fail .SNAPSHOT_SOURCE_ALSO_REQUIRED (id ++ lit (" is both the snapshot source and a required source, so " ++
          "which bound applies is ambiguous"))
      else return some (id, bound)

/-- An input that passed every check before the answers are read. -/
structure Validated where
  authorityRef : Str
  now : JsValue
  nowMs : Int
  mode : VerifierMode
  silence_is : SilencePolicy
  conflictPolicy : ConflictPolicy
  stalePolicy : StaleAnswerPolicy
  bounds : OrderedMap Str Int
  requiredIds : List Str
  snapshot : Option (Str × Int)
  answers : List JsValue

def readAnswers : JsValue → Except StatusError (List JsValue)
  | .arr answers => return answers
  | _ => fail .INPUT_INVALID (lit "answers must be an array")

def validate (input : MultiSourceStatusInput) : Except StatusError Validated := do
  let authorityRef ← requireNonEmptyString input.authority_ref (lit "authority_ref")
  let nowMs ← requireInstant input.now (lit "now")
  let policy := input.trustPolicy
  requireObject policy (lit "trustPolicy")
  let mode ← readMode (policy.get (lit "mode"))
  let sourceSet := policy.get (lit "sources")
  let required ← readRequired sourceSet
  let silence ← readSilence (sourceSet.get (lit "silence_is"))
  requireDeclared required
  let conflictPolicy ← readConflictPolicy input.conflictPolicy
  let stalePolicy ← readStalePolicy input.stalePolicy
  let (bounds, requiredIds) ← declareSources .empty [] required
  let snapshot ← readSnapshot mode bounds (policy.get (lit "snapshot_source"))
  let answers ← readAnswers input.answers
  return { authorityRef, now := input.now, nowMs, mode, silence_is := silence, conflictPolicy, stalePolicy,
           bounds, requiredIds, snapshot, answers }

def STATUS_ANSWERS : List (Str × StatusAnswer) :=
  [(lit "active", .active), (lit "revoked", .revoked), (lit "unavailable", .unavailable)]

/-- `isStatusAnswer`, with the answer it recognises. -/
def statusAnswer? : JsValue → Option StatusAnswer
  | .str s => (STATUS_ANSWERS.find? (fun a => a.1 = s)).map (·.2)
  | _ => none

def str? : JsValue → Option Str
  | .str s => some s
  | _ => none

/-- The bound of an accepted source: the snapshot's own, or the one declared for a required source. -/
def Validated.boundOf (v : Validated) (id : Str) : Option Int :=
  match v.snapshot with
  | some (snapshotId, bound) => if id = snapshotId then some bound else v.bounds.get id
  | none => v.bounds.get id

/-- How a determinate answer of known age is used. -/
def useOf (stale : StaleAnswerPolicy) (answer : StatusAnswer) (withinBound : Bool) : Bool × StatusUseBasis :=
  if withinBound then (true, .within_freshness_bound)
  else if answer = .revoked && stale.stale_revoked_still_counts then
    (true, .revocation_observed_outside_bound_still_used)
  else if answer = .active && stale.stale_active_still_counts then (true, .stale_active_admitted_by_policy)
  else (false, .stale_beyond_bound)

def ageAnswer (v : Validated) (id : Str) (answer : StatusAnswer) (as_of : JsValue) :
    Except StatusError StatusSourceLine :=
  match v.boundOf id with
  | none =>
    return { source_id := id, answer, as_of := str? as_of, age_s := none, freshness_bound_s := none,
             within_bound := false, used := false, use_basis := .source_not_accepted }
  | some boundS =>
    if answer = .unavailable then
      match as_of with
      | .undefined | .null =>
        return { source_id := id, answer, as_of := none, age_s := none, freshness_bound_s := some boundS,
                 within_bound := false, used := false, use_basis := .source_gave_no_answer }
      | _ =>
        fail .UNAVAILABLE_CARRIES_AS_OF (lit "source " ++ id ++
          lit " answered unavailable and also supplied as_of: an unavailable answer dates nothing")
    else do
      let asOfMs ← requireInstant as_of (lit "answers[" ++ id ++ lit "].as_of")
      let ageS := (v.nowMs - asOfMs) / 1000
      if ageS < 0 then
        return { source_id := id, answer, as_of := str? as_of, age_s := some ageS, freshness_bound_s := some boundS,
                 within_bound := false, used := false, use_basis := .answer_dated_after_boundary }
      else
        let withinBound := decide (ageS ≤ boundS)
        let (used, basis) := useOf v.stalePolicy answer withinBound
        return { source_id := id, answer, as_of := str? as_of, age_s := some ageS, freshness_bound_s := some boundS,
                 within_bound := withinBound, used, use_basis := basis }

/-- The loop over the answers, with the sources seen so far. -/
def ageAnswers (v : Validated) (seen : List Str) : List JsValue → Except StatusError (List StatusSourceLine)
  | [] => return []
  | supplied :: rest => do
    let id ← requireNonEmptyString (supplied.get (lit "source_id")) (lit "answers[].source_id")
    if id ∈ seen then
      fail .SOURCE_ANSWERED_TWICE (lit "source " ++ id ++ lit (" supplied more than one answer, which is a " ++
        "conflict inside one source rather than between two and is not what this module decides"))
    else
      match statusAnswer? (supplied.get (lit "answer")) with
      | none => fail .ANSWER_UNKNOWN (lit "answers[].answer must be one of active, revoked, unavailable")
      | some answer => do
        let line ← ageAnswer v id answer (supplied.get (lit "as_of"))
        let lines ← ageAnswers v (id :: seen) rest
        return line :: lines

section
variable (v : Validated) (lines : List StatusSourceLine)

/-- `byId.get(id)`; the ids of the lines are distinct. -/
def lineOf (id : Str) : Option StatusSourceLine := lines.find? (fun l => l.source_id = id)

def isDeterminateUse (line : StatusSourceLine) : Bool := line.used && line.answer ≠ .unavailable

def isStale (line : StatusSourceLine) : Bool :=
  line.use_basis = .stale_beyond_bound || line.use_basis = .answer_dated_after_boundary

def sortTexts (texts : List Str) : List Str := texts.insertionSort (fun a b => a ≤ b)

def silentIds : List Str := sortTexts (v.requiredIds.filter (fun id => (lineOf lines id).isNone))

def answeredRequired : List Str := v.requiredIds.filter (fun id => (lineOf lines id).isSome)

def usableRequired : List Str := v.requiredIds.filter (fun id => (lineOf lines id).any isDeterminateUse)

def measuredOver : CoverageDenominator :=
  if v.silence_is = .coverage_gap then .declared_required_set else .sources_that_answered

def coverage : StatusCoverage :=
  let denominator :=
    if measuredOver v = .declared_required_set then v.requiredIds.length else (answeredRequired v lines).length
  { required := v.requiredIds.length, answered := (answeredRequired v lines).length,
    usable_determinate := (usableRequired v lines).length, silent := silentIds v lines,
    measured_over := measuredOver v,
    complete := 0 < denominator && (usableRequired v lines).length = denominator }

def usedDeterminate : List StatusSourceLine := lines.filter isDeterminateUse

/-- The used states in sorted order; `'active'` is before `'revoked'`. -/
def usedStates : List StatusAnswer :=
  [StatusAnswer.active, .revoked].filter (fun answer => (usedDeterminate lines).any (fun l => l.answer = answer))

def missingLimbs (conflicted : Bool) : List EstablishmentGap :=
  (if conflicted || (usedDeterminate lines).isEmpty then [EstablishmentGap.source] else []) ++
    (if lines.any isStale then [EstablishmentGap.freshness] else []) ++
    (if !(coverage v lines).complete then [EstablishmentGap.coverage] else [])

def makeBasis (conflict : Option StatusConflict) (snapshot : Option AdmittedSnapshot) : MultiSourceStatusBasis :=
  { authority_ref := v.authorityRef, evaluated_at := v.now, verifier_mode := v.mode,
    required_sources := v.requiredIds, sources_consulted := lines, sources_silent := silentIds v lines,
    coverage := coverage v lines, conflict, snapshot, conflict_policy := v.conflictPolicy,
    stale_policy := v.stalePolicy, silence_is := v.silence_is }

/-- `decide`, with the lifecycle constructor's error passed on. -/
def decideAs (outcome : BoundaryOutcome) (lifecycle : Except LifecycleStateError LifecycleStateResult)
    (reasonCode : StatusCoverageReasonCode) (basis : MultiSourceStatusBasis) :
    Except StatusError MultiSourceStatusDecision :=
  match lifecycle with
  | .ok lifecycle => return { outcome, lifecycle, reason_code := reasonCode, basis }
  | .error e => throw (.lifecycle e)

def conclude (outcome : BoundaryOutcome) (verdict : LifecycleVerdict) (code : StatusCoverageReasonCode)
    (snapshot : Option AdmittedSnapshot) : Except StatusError MultiSourceStatusDecision :=
  decideAs outcome (lifecycleState { verdict, reason_code := reasonText code }) code (makeBasis v lines none snapshot)

/-- No conclusion was reached and no answers conflict. -/
def leaveOpen (code : StatusCoverageReasonCode) : Except StatusError MultiSourceStatusDecision :=
  decideAs .not_established (notEstablished (missingLimbs v lines false) (reasonText code)) code
    (makeBasis v lines none none)

def decideConflict : Except StatusError MultiSourceStatusDecision :=
  let conflict : StatusConflict :=
    { states := usedStates lines, sources := sortTexts ((usedDeterminate lines).map (·.source_id)) }
  let outcome : BoundaryOutcome :=
    if v.conflictPolicy = .deny_with_conflict then .denied else .not_established
  decideAs outcome (notEstablished (missingLimbs v lines true) (reasonText .STATUS_SOURCES_CONFLICT))
    .STATUS_SOURCES_CONFLICT (makeBasis v lines (some conflict) none)

def decideOffline : Except StatusError MultiSourceStatusDecision :=
  match v.snapshot.bind (fun s => (lineOf lines s.1).map (·, s.2)) with
  | some (snapLine, boundS) =>
    if snapLine.used && snapLine.answer = .active then
      conclude v lines .authorized .valid .ADMITTED_ON_SNAPSHOT_WITHIN_DECLARED_BOUND
        (some { source_id := snapLine.source_id, as_of := snapLine.as_of, age_s := snapLine.age_s,
                declared_bound_s := boundS })
    else if isStale snapLine then leaveOpen v lines .STATUS_STALE_BEYOND_BOUND
    else leaveOpen v lines .STATUS_NO_USABLE_OBSERVATION
  | none => leaveOpen v lines .STATUS_NO_USABLE_OBSERVATION

def onlineReason : StatusCoverageReasonCode :=
  let blockingStale := v.requiredIds.any (fun id => (lineOf lines id).any isStale)
  if (usedDeterminate lines).isEmpty then .STATUS_NO_USABLE_OBSERVATION
  else if (silentIds v lines).length > 0 && measuredOver v = .declared_required_set then .STATUS_COVERAGE_INCOMPLETE
  else if blockingStale then .STATUS_STALE_BEYOND_BOUND
  else .STATUS_COVERAGE_INCOMPLETE

def decideOnline : Except StatusError MultiSourceStatusDecision :=
  if (coverage v lines).complete && usedStates lines = [.active] then
    conclude v lines .authorized .valid .STATUS_ACTIVE_ALL_SOURCES_AGREE none
  else leaveOpen v lines (onlineReason v lines)

/-- The cascade: a conflict never admits, a revocation counts before coverage and before the mode. -/
def decideLines : Except StatusError MultiSourceStatusDecision :=
  if (usedStates lines).length > 1 then decideConflict v lines
  else if usedStates lines = [.revoked] then conclude v lines .denied .invalid .STATUS_REVOKED none
  else
    match v.mode with
    | .offline => decideOffline v lines
    | .online => decideOnline v lines

end

def decideMultiSourceStatus (value : JsValue) : Except StatusError MultiSourceStatusDecision := do
  requireObject value (lit "input")
  let v ← validate (.read value)
  let lines ← ageAnswers v [] v.answers
  decideLines v lines

end AgentPassport.StatusSources
