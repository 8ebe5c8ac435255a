import AgentPassport.CanonicalJcs
import AgentPassport.DelegationScope
import AgentPassport.HalfOpen
import AgentPassport.LifecycleState

/-! Continuity of an identifier a grant depends on (`v2/capability-binding/identifier.ts`): who holds it by the
accepted custodian records, and whether it was held or retained all the time since the grant was issued. -/
namespace AgentPassport.IdentifierContinuity
open JsText Js CanonicalJcs SeparatedText HalfOpen LifecycleState Outcome
open DelegationScope (startsWith)

/-- Number texts and Ed25519. -/
structure Runtime where
  numText : Double → Str
  verify : Str → Str → Str → Bool

/-- Extra members are signed over too. -/
structure IdentifierBindingRecord where
  identifier_kind : Str
  identifier : Str
  controller : Str
  bound_from : Str
  bound_until : Option Str
  custodian : Str
  signature : Str
  extra : List (Str × JsValue)

structure IdentifierRetentionRecord where
  identifier_kind : Str
  identifier : Str
  retained_from : Str
  retained_until : Str
  custodian : Str
  signature : Str
  extra : List (Str × JsValue)

/-- What both kinds of record have; `entries` are the members of the record itself. -/
class SignedRecord (T : Type) where
  entries : T → List (Str × JsValue)
  identifier_kind : T → Str
  identifier : T → Str
  custodian : T → Str
  signature : T → Str

def nullable : Option Str → JsValue
  | some s => .str s
  | none => .null

instance : SignedRecord IdentifierBindingRecord where
  entries r :=
    [(lit "identifier_kind", .str r.identifier_kind), (lit "identifier", .str r.identifier),
      (lit "controller", .str r.controller), (lit "bound_from", .str r.bound_from),
      (lit "bound_until", nullable r.bound_until), (lit "custodian", .str r.custodian),
      (lit "signature", .str r.signature)] ++ r.extra
  identifier_kind := (·.identifier_kind)
  identifier := (·.identifier)
  custodian := (·.custodian)
  signature := (·.signature)

instance : SignedRecord IdentifierRetentionRecord where
  entries r :=
    [(lit "identifier_kind", .str r.identifier_kind), (lit "identifier", .str r.identifier),
      (lit "retained_from", .str r.retained_from), (lit "retained_until", .str r.retained_until),
      (lit "custodian", .str r.custodian), (lit "signature", .str r.signature)] ++ r.extra
  identifier_kind := (·.identifier_kind)
  identifier := (·.identifier)
  custodian := (·.custodian)
  signature := (·.signature)

/-- A `CapabilityBindingError`, or what `canonicalizeJCS` throws. -/
inductive ContinuityError where
  | capability (code message : Str)
  | jcs (e : JcsError)

inductive ReferentContinuity where
  | established | not_established | mismatch
  deriving DecidableEq

structure ReferentBindingResult where
  outcome : BoundaryOutcome
  continuity : ReferentContinuity
  reason_code : Str
  missing : Option (List EstablishmentGap) := none
  detail : Option Str := none

structure IdentifierContinuityResult extends ReferentBindingResult where
  controller_at_instant : Option Str

def outcomeText : BoundaryOutcome → Str
  | .authorized => lit "authorized"
  | .denied => lit "denied"
  | .not_established => lit "not_established"

def referentBindingResult (input : ReferentBindingResult) : Except ContinuityError ReferentBindingResult :=
  if input.outcome = .not_established ∧ input.missing.getD [] = [] then
    throw (.capability (lit "MISSING_REQUIRED")
      (lit "a not_established outcome must name at least one missing establishment limb"))
  else if input.outcome ≠ .not_established ∧ input.missing.isSome then
    throw (.capability (lit "MISSING_NOT_ALLOWED")
      (lit "missing is only meaningful on not_established, not on " ++ outcomeText input.outcome))
  else return input

def withController (result : ReferentBindingResult) (controller : Option Str) :
    Except ContinuityError IdentifierContinuityResult := do
  let result ← referentBindingResult result
  return { result with controller_at_instant := controller }

def assertSegment (label value : Str) : Except ContinuityError Unit :=
  if value.length = 0 then throw (.capability (lit "SEGMENT_INVALID") (label ++ lit " must be a non-empty string"))
  else return ()

def dependencyGrant (kind identifier : Str) : Str := lit "extid:" ++ kind ++ lit ":" ++ identifier

def identifierDependencyScopeGrant (kind identifier : Str) : Except ContinuityError Str := do
  assertSegment (lit "kind") kind
  assertSegment (lit "identifier") identifier
  return dependencyGrant kind identifier

def pinsUnder (pinStart : Str) (grants : List Str) : List Str :=
  distinct ((grants.filter (startsWith · pinStart)).map (·.drop pinStart.length) |>.filter (·.length > 0))

def parseIdentifierControllerPins (grants : List Str) (kind identifier : Str) : Except ContinuityError (List Str) := do
  let dependency ← identifierDependencyScopeGrant kind identifier
  return pinsUnder (dependency ++ lit ":controller:") grants

/-- `from` is the start and `until` the stop; null is none. -/
abbrev Interval := Span Str

/-- `until === null || instant < until`. -/
def runsPast (until? : Option Str) (instant : Str) : Bool :=
  match until? with
  | none => true
  | some limit => instant < limit

def covers (start : Str) (until? : Option Str) (instant : Str) : Bool :=
  if instant < start then false else runsPast until? instant

/-- Subtract a covered interval from a list of gaps; `from >= gapUntil` where the gap does not run past it. -/
def subtract (gaps : List Interval) (start stop : Str) : List Interval :=
  gaps.flatMap fun gap =>
    if !runsPast gap.stop start then [gap]
    else if stop ≤ gap.start then [gap]
    else (if gap.start < start then [⟨gap.start, some start⟩] else []) ++
      if runsPast gap.stop stop then [⟨stop, gap.stop⟩] else []

/-- `atTime` is the member `at`. -/
structure IdentifierContinuityInput where
  identifierKind : Str
  identifier : Str
  grantedScopes : List Str
  grantIssuedAt : Str
  atTime : Str
  bindings : List IdentifierBindingRecord
  retentions : List IdentifierRetentionRecord
  resolveCustodianStanding : Str → Option Str
  resolveCustodianKey : Str → Option Str

def IDENTIFIER_BINDING_UNSIGNED_FIELDS : List Str := [lit "binding_id", lit "signature"]
def IDENTIFIER_RETENTION_UNSIGNED_FIELDS : List Str := [lit "retention_id", lit "signature"]

/-- Assigning `__proto__` makes no member. -/
def identifierRecordSignedBytes (numText : Double → Str) (entries : List (Str × JsValue)) (unsignedFields : List Str) :
    Except ContinuityError Str :=
  (canonicalizeJCS numText (.obj (entries.filter
    (fun m => !unsignedFields.contains m.1 && !(m.1 = lit "__proto__"))))).mapError .jcs

section
variable {T : Type} [SignedRecord T] (R : Runtime) (input : IdentifierContinuityInput) (unsignedFields : List Str)
open SignedRecord

/-- Signed by the key of its custodian, who has standing for the kind. -/
def isAcceptable (record : T) : Except ContinuityError Bool :=
  match input.resolveCustodianKey (custodian record) with
  | none => return false
  | some key =>
    if key.length = 0 then return false
    else do
      let bytes ← identifierRecordSignedBytes R.numText (entries record) unsignedFields
      if !R.verify bytes (signature record) key then return false
      else return input.resolveCustodianStanding (identifier_kind record) = some (custodian record)

def acceptable : List T → Except ContinuityError (List T)
  | [] => return []
  | record :: rest => do
    let kept ← isAcceptable R input unsignedFields record
    let others ← acceptable rest
    return if kept then record :: others else others

def isNamed (record : T) : Bool :=
  identifier_kind record = input.identifierKind && SignedRecord.identifier record = input.identifier

/-- The record is accepted; a record that throws is not. -/
def accepts (record : T) : Bool :=
  match isAcceptable R input unsignedFields record with
  | .ok kept => kept
  | .error _ => false

end

def sorted (values : List Str) : List Str := values.insertionSort (· ≤ ·)

def holdersAt (instant : Str) (relevant : List IdentifierBindingRecord) : List Str :=
  sorted (distinct ((relevant.filter (fun b => covers b.bound_from b.bound_until instant)).map (·.controller)))

def gapText (gap : Interval) : Str := gap.start ++ lit ".." ++ gap.stop.getD (lit "open")

def gapTexts (gaps : List Interval) : Str := join 0x2C (gaps.map gapText)

/-- What the bindings of the holder leave of the span from the grant to the instant. -/
def unbound (input : IdentifierContinuityInput) (relevant : List IdentifierBindingRecord) (holder : Str) :
    List Interval :=
  relevant.foldl
    (fun gaps binding =>
      if binding.controller ≠ holder then gaps
      else subtract gaps binding.bound_from (binding.bound_until.getD input.atTime))
    [⟨input.grantIssuedAt, some input.atTime⟩]

def subtractRetentions (gaps : List Interval) (retentions : List IdentifierRetentionRecord) : List Interval :=
  retentions.foldl (fun gaps retention => subtract gaps retention.retained_from retention.retained_until) gaps

/-- The fourth step. A retention is among the acceptable ones just when it was accepted. -/
def continuitySinceIssuance (R : Runtime) (input : IdentifierContinuityInput)
    (relevant : List IdentifierBindingRecord) (holder : Str) : Except ContinuityError IdentifierContinuityResult := do
  let gaps := unbound input relevant holder
  if gaps.length = 0 then
    withController
      { outcome := .authorized
        continuity := .established
        reason_code := lit "IDENTIFIER_CONTINUITY_ESTABLISHED"
        detail := some (lit "continuously_bound") } (some holder)
  else
    let accepted ← acceptable R input IDENTIFIER_RETENTION_UNSIGNED_FIELDS input.retentions
    let acceptableRetentions := accepted.filter (isNamed input)
    let uncovered := subtractRetentions gaps acceptableRetentions
    if uncovered.length = 0 then
      withController
        { outcome := .authorized
          continuity := .established
          reason_code := lit "IDENTIFIER_CONTINUITY_ESTABLISHED"
          detail := some (lit "retained_gap=" ++ gapTexts gaps) } (some holder)
    else
      let presentButUnacceptable := input.retentions.filter
        (fun r => isNamed input r && !accepts R input IDENTIFIER_RETENTION_UNSIGNED_FIELDS r)
      if (subtractRetentions uncovered presentButUnacceptable).length = 0 then
        withController
          { outcome := .not_established
            continuity := .not_established
            reason_code := lit "RETENTION_CUSTODIAN_WITHOUT_STANDING"
            missing := some [.source]
            detail := some (join 0x7C (sorted (distinct (presentButUnacceptable.map (·.custodian))))) } (some holder)
      else
        withController
          { outcome := .not_established
            continuity := .not_established
            reason_code := lit "IDENTIFIER_CONTINUITY_GAP_UNCOVERED"
            missing := some [.coverage]
            detail := some (gapTexts uncovered) } (some holder)

def evaluateIdentifierContinuity (R : Runtime) (input : IdentifierContinuityInput) :
    Except ContinuityError IdentifierContinuityResult := do
  assertSegment (lit "identifierKind") input.identifierKind
  assertSegment (lit "identifier") input.identifier
  assertSegment (lit "at") input.atTime
  assertSegment (lit "grantIssuedAt") input.grantIssuedAt
  let dependency ← identifierDependencyScopeGrant input.identifierKind input.identifier
  if dependency ∉ input.grantedScopes then
    withController
      { outcome := .not_established
        continuity := .not_established
        reason_code := lit "IDENTIFIER_DEPENDENCY_NOT_DECLARED"
        missing := some [.coverage]
        detail := some dependency } none
  else
    let pins ← parseIdentifierControllerPins input.grantedScopes input.identifierKind input.identifier
    if pins.length = 0 then
      withController
        { outcome := .not_established
          continuity := .not_established
          reason_code := lit "IDENTIFIER_CONTROLLER_NOT_PINNED"
          missing := some [.coverage]
          detail := some dependency } none
    else
      let accepted ← acceptable R input IDENTIFIER_BINDING_UNSIGNED_FIELDS input.bindings
      let relevant := accepted.filter (isNamed input)
      match holdersAt input.atTime relevant with
      | [] =>
        withController
          { outcome := .not_established
            continuity := .not_established
            reason_code := lit "IDENTIFIER_BINDING_LAPSED"
            missing := some [.coverage]
            detail := some (lit "no_binding_covers=" ++ input.atTime) } none
      | [holder] =>
        if holder ∉ pins then
          withController
            { outcome := .denied
              continuity := .mismatch
              reason_code := lit "IDENTIFIER_CONTROLLER_CHANGED"
              detail := some (lit "pinned=" ++ join 0x7C pins ++ lit " holder=" ++ holder) } (some holder)
        else continuitySinceIssuance R input relevant holder
      | holders =>
        withController
          { outcome := .not_established
            continuity := .not_established
            reason_code := lit "IDENTIFIER_BINDING_CONFLICT"
            missing := some [.source]
            detail := some (lit "holders=" ++ join 0x7C holders) } none

section
variable {T : Type} [SignedRecord T] (R : Runtime) (input : IdentifierContinuityInput) (unsignedFields : List Str)

/-- The record is accepted or not, without a throw. -/
def Judged (record : T) : Prop := ∃ kept, isAcceptable R input unsignedFields record = .ok kept

def accepted (records : List T) : List T :=
  (records.filter (accepts R input unsignedFields)).filter (isNamed input)

theorem isAcceptable_decides (record : T) :
    Decides (isAcceptable R input unsignedFields record) (Judged R input unsignedFields record)
      (accepts R input unsignedFields record) := by
  rw [Judged, accepts]
  cases isAcceptable R input unsignedFields record with
  | ok kept => exact (Decides.pure kept).of_iff ⟨fun _ => ⟨kept, rfl⟩, fun _ => trivial⟩
  | error e => exact (Decides.fail e false).of_iff ⟨False.elim, fun ⟨_, h⟩ => by cases h⟩

theorem acceptable_decides (records : List T) :
    Decides (acceptable R input unsignedFields records) (∀ r ∈ records, Judged R input unsignedFields r)
      (records.filter (accepts R input unsignedFields)) := by
  induction records with
  | nil => exact (Decides.pure ([] : List T)).of_iff (iff_of_true trivial (List.forall_mem_nil _))
  | cons record rest ih =>
    rw [acceptable, List.filter_cons]
    exact ((isAcceptable_decides R input unsignedFields record).bind fun _ => ih.map).of_iff List.forall_mem_cons.symm

end

section
variable (R : Runtime) (input : IdentifierContinuityInput)

def acceptedBindings : List IdentifierBindingRecord :=
  accepted R input IDENTIFIER_BINDING_UNSIGNED_FIELDS input.bindings

def acceptedRetentions : List IdentifierRetentionRecord :=
  accepted R input IDENTIFIER_RETENTION_UNSIGNED_FIELDS input.retentions

theorem subtract_eq (gaps : List Interval) (start stop : Str) :
    subtract gaps start stop = cutAll gaps (start, stop) := by
  rw [subtract, cutAll]
  congr 1
  funext gap
  obtain ⟨first, limit⟩ := gap
  cases limit with
  | none => simp [runsPast, Span.cut, piece]
  | some limit => simp [runsPast, Span.cut, piece]

/-- The intervals of the holder's bindings; an open end is taken at the instant asked about. -/
def bindingCuts (relevant : List IdentifierBindingRecord) (holder : Str) : List (Str × Str) :=
  (relevant.filter (fun b => decide (b.controller = holder))).map
    (fun b => (b.bound_from, b.bound_until.getD input.atTime))

def retentionCuts (retentions : List IdentifierRetentionRecord) : List (Str × Str) :=
  retentions.map (fun r => (r.retained_from, r.retained_until))

def wholeSpan : Interval := ⟨input.grantIssuedAt, some input.atTime⟩

theorem unbound_eq (relevant : List IdentifierBindingRecord) (holder : Str) :
    unbound input relevant holder = (bindingCuts input relevant holder).foldl cutAll [wholeSpan input] := by
  rw [unbound, bindingCuts, List.foldl_map, List.foldl_filter]
  congr 1
  funext gaps binding
  rw [subtract_eq]
  by_cases h : binding.controller = holder
  · rw [if_neg (not_not_intro h), if_pos (by simpa using h)]
  · rw [if_pos h, if_neg (by simpa using h)]

theorem subtractRetentions_eq (gaps : List Interval) (retentions : List IdentifierRetentionRecord) :
    subtractRetentions gaps retentions = (retentionCuts retentions).foldl cutAll gaps := by
  rw [subtractRetentions, retentionCuts, List.foldl_map]
  simp only [subtract_eq]

/-- What neither the holder's bindings nor the retentions cover. -/
def uncovered (holder : Str) : List Interval :=
  (bindingCuts input (acceptedBindings R input) holder ++ retentionCuts (acceptedRetentions R input)).foldl cutAll
    [wholeSpan input]

theorem uncovered_eq (holder : Str) :
    uncovered R input holder =
      subtractRetentions (unbound input (acceptedBindings R input) holder) (acceptedRetentions R input) := by
  rw [uncovered, List.foldl_append, subtractRetentions_eq, unbound_eq]

def outcomeOf (result : Except ContinuityError IdentifierContinuityResult) : Except ContinuityError BoundaryOutcome :=
  result.map (·.outcome)

def RetentionsJudged : Prop := ∀ r ∈ input.retentions, Judged R input IDENTIFIER_RETENTION_UNSIGNED_FIELDS r

theorem sinceIssuance_decides (holder : Str) :
    Decides (outcomeOf (continuitySinceIssuance R input (acceptedBindings R input) holder))
      (unbound input (acceptedBindings R input) holder = [] ∨ RetentionsJudged R input)
      (if uncovered R input holder = [] then .authorized else .not_established) := by
  rw [continuitySinceIssuance, uncovered_eq]
  generalize unbound input (acceptedBindings R input) holder = gaps
  by_cases hgaps : gaps = []
  · rw [hgaps, if_pos List.length_nil, if_pos (by rw [subtractRetentions_eq, cuts_nil])]
    exact (Decides.pure _).of_iff (iff_of_true trivial (.inl rfl))
  · rw [if_neg (fun h => hgaps (List.length_eq_zero_iff.mp h))]
    have hjudged := acceptable_decides R input IDENTIFIER_RETENTION_UNSIGNED_FIELDS input.retentions
    constructor
    · intro h
      rw [hjudged.1 (h.resolve_left hgaps)]
      show outcomeOf (if (subtractRetentions gaps (acceptedRetentions R input)).length = 0 then _ else _) = _
      by_cases hrest : subtractRetentions gaps (acceptedRetentions R input) = []
      · rw [if_pos (List.length_eq_zero_iff.mpr hrest), if_pos hrest]
        rfl
      · rw [if_neg (fun h => hrest (List.length_eq_zero_iff.mp h)), if_neg hrest]
        split
        · rfl
        · rfl
    · intro h
      obtain ⟨e, he⟩ := hjudged.2 (fun hall => h (.inr hall))
      exact ⟨e, by rw [he]; rfl⟩

/-- The controllers that the accepted bindings name at the instant asked about. -/
def holders : List Str := holdersAt input.atTime (acceptedBindings R input)

def pins : List Str :=
  pinsUnder (dependencyGrant input.identifierKind input.identifier ++ lit ":controller:") input.grantedScopes

/-- No record that the evaluation comes to throws. -/
def AllJudged : Prop :=
  (∀ b ∈ input.bindings, Judged R input IDENTIFIER_BINDING_UNSIGNED_FIELDS b) ∧
    ∀ holder ∈ pins input, holders R input = [holder] →
      unbound input (acceptedBindings R input) holder = [] ∨ RetentionsJudged R input

def decision : BoundaryOutcome :=
  match holders R input with
  | [holder] =>
    if holder ∉ pins input then .denied
    else if uncovered R input holder = [] then .authorized
    else .not_established
  | _ => .not_established

/-- The input is well formed, and the grant declares the dependency and pins a controller. -/
structure Pinned : Prop where
  identifierKind : input.identifierKind ≠ []
  identifier : input.identifier ≠ []
  atTime : input.atTime ≠ []
  grantIssuedAt : input.grantIssuedAt ≠ []
  declared : dependencyGrant input.identifierKind input.identifier ∈ input.grantedScopes
  pinned : pins input ≠ []

theorem assertSegment_ok {label value : Str} (h : value ≠ []) : assertSegment label value = .ok () :=
  if_neg (fun hlength => h (List.length_eq_zero_iff.mp hlength))

theorem evaluate_decides (h : Pinned input) :
    Decides (outcomeOf (evaluateIdentifierContinuity R input)) (AllJudged R input) (decision R input) := by
  have hdependency : identifierDependencyScopeGrant input.identifierKind input.identifier =
      .ok (dependencyGrant input.identifierKind input.identifier) := by
    rw [identifierDependencyScopeGrant, assertSegment_ok h.identifierKind, assertSegment_ok h.identifier]
    rfl
  have hpins : parseIdentifierControllerPins input.grantedScopes input.identifierKind input.identifier =
      .ok (pins input) := by
    rw [parseIdentifierControllerPins, hdependency]
    rfl
  have hjudged := acceptable_decides R input IDENTIFIER_BINDING_UNSIGNED_FIELDS input.bindings
  rw [evaluateIdentifierContinuity, assertSegment_ok h.identifierKind, assertSegment_ok h.identifier,
    assertSegment_ok h.atTime, assertSegment_ok h.grantIssuedAt, hdependency, hpins]
  show Decides (outcomeOf (if dependencyGrant input.identifierKind input.identifier ∉ input.grantedScopes then _ else
    if (pins input).length = 0 then _ else _)) _ _
  rw [if_neg (not_not_intro h.declared), if_neg (fun hlength => h.pinned (List.length_eq_zero_iff.mp hlength))]
  by_cases hall : ∀ b ∈ input.bindings, Judged R input IDENTIFIER_BINDING_UNSIGNED_FIELDS b
  · rw [hjudged.1 hall]
    show Decides (outcomeOf (match holders R input with | [] => _ | [holder] => _ | more => _)) _ _
    rw [AllJudged, decision]
    match holders R input with
    | [] =>
      exact (Decides.pure _).of_iff (iff_of_true trivial ⟨hall, fun _ _ h => by cases h⟩)
    | [holder] =>
      dsimp only
      by_cases hpin : holder ∈ pins input
      · rw [if_neg (not_not_intro hpin), if_neg (not_not_intro hpin)]
        apply (sinceIssuance_decides R input holder).of_iff
        constructor
        · rintro hsince
          refine ⟨hall, ?_⟩
          rintro _ - ⟨⟩
          exact hsince
        · rintro ⟨-, hsince⟩
          exact hsince holder hpin rfl
      · rw [if_pos hpin, if_pos hpin]
        refine (Decides.pure _).of_iff (iff_of_true trivial ⟨hall, ?_⟩)
        rintro _ hmem ⟨⟩
        exact absurd hmem hpin
    | _ :: _ :: _ =>
      exact (Decides.pure _).of_iff (iff_of_true trivial ⟨hall, fun _ _ h => by cases h⟩)
  · obtain ⟨e, he⟩ := hjudged.2 hall
    rw [he]
    exact (Decides.fail e (decision R input)).of_iff (iff_of_false id (fun h => hall h.1))

def IdentifierBindingRecord.Covers (b : IdentifierBindingRecord) (t : Str) : Prop :=
  b.bound_from ≤ t ∧ ∀ stop, b.bound_until = some stop → t < stop

/-- The accepted bindings that cover the instant asked about name this controller and no other. -/
def SoleController (controller : Str) : Prop :=
  ∀ c, (∃ b ∈ acceptedBindings R input, b.Covers input.atTime ∧ b.controller = c) ↔ c = controller

/-- The instant lies in an accepted binding of the controller or in an accepted retention. -/
def Covered (controller t : Str) : Prop :=
  (∃ b ∈ acceptedBindings R input, b.controller = controller ∧ b.Covers t) ∨
    ∃ r ∈ acceptedRetentions R input, r.retained_from ≤ t ∧ t < r.retained_until

/-- One pinned controller holds the identifier, and every instant since the grant is covered. -/
def Continuous : Prop :=
  ∃ controller, SoleController R input controller ∧ controller ∈ pins input ∧
    ∀ t, input.grantIssuedAt ≤ t → t < input.atTime → Covered R input controller t

/-- The span holds an instant, or one interval that is not open-ended reaches over both its ends. -/
def Reached (controller : Str) : Prop :=
  input.grantIssuedAt < input.atTime ∨
    (∃ b ∈ acceptedBindings R input, b.controller = controller ∧ b.bound_from < input.atTime ∧
      ∃ stop, b.bound_until = some stop ∧ input.grantIssuedAt < stop) ∨
    ∃ r ∈ acceptedRetentions R input, r.retained_from < input.atTime ∧ input.grantIssuedAt < r.retained_until

theorem covers_iff (b : IdentifierBindingRecord) (t : Str) :
    covers b.bound_from b.bound_until t = true ↔ b.Covers t := by
  rw [covers, IdentifierBindingRecord.Covers]
  cases b.bound_until with
  | none => simp [runsPast]
  | some stop => simp [runsPast]

theorem holders_eq_singleton_iff (controller : Str) :
    holders R input = [controller] ↔ SoleController R input controller := by
  have hmem : ∀ c, c ∈ holders R input ↔
      ∃ b ∈ acceptedBindings R input, b.Covers input.atTime ∧ b.controller = c := by
    intro c
    rw [holders, holdersAt, sorted, List.mem_insertionSort, mem_distinct, List.mem_map]
    simp only [List.mem_filter, covers_iff, and_assoc]
  have hnodup : (holders R input).Nodup := (List.perm_insertionSort _ _).nodup_iff.mpr (nodup_distinct _)
  rw [SoleController]
  simp only [← hmem]
  constructor
  · intro h c
    rw [h, List.mem_singleton]
  · intro h
    apply List.perm_singleton.mp
    rw [List.perm_ext_iff_of_nodup hnodup (List.nodup_singleton _)]
    simpa using h

theorem SoleController.unique {R : Runtime} {input : IdentifierContinuityInput} {c c' : Str}
    (h : SoleController R input c) (h' : SoleController R input c') : c = c' :=
  (h' c).mp ((h c).mpr rfl)

theorem decision_authorized_iff : decision R input = .authorized ↔
    ∃ c, SoleController R input c ∧ c ∈ pins input ∧ uncovered R input c = [] := by
  simp only [← holders_eq_singleton_iff]
  rw [decision]
  match holders R input with
  | [] => simp
  | [holder] =>
    by_cases hpin : holder ∈ pins input <;> by_cases hrest : uncovered R input holder = [] <;> simp [hpin, hrest]
  | _ :: _ :: _ => simp

theorem decision_denied_iff : decision R input = .denied ↔ ∃ c, SoleController R input c ∧ c ∉ pins input := by
  simp only [← holders_eq_singleton_iff]
  rw [decision]
  match holders R input with
  | [] => simp
  | [holder] =>
    by_cases hpin : holder ∈ pins input <;> by_cases hrest : uncovered R input holder = [] <;> simp [hpin, hrest]
  | _ :: _ :: _ => simp

theorem mem_bindingCuts {relevant : List IdentifierBindingRecord} {holder : Str} {c : Str × Str} :
    c ∈ bindingCuts input relevant holder ↔
      ∃ b ∈ relevant, b.controller = holder ∧ (b.bound_from, b.bound_until.getD input.atTime) = c := by
  simp only [bindingCuts, List.mem_map, List.mem_filter, decide_eq_true_eq, and_assoc]

theorem mem_retentionCuts {retentions : List IdentifierRetentionRecord} {c : Str × Str} :
    c ∈ retentionCuts retentions ↔ ∃ r ∈ retentions, (r.retained_from, r.retained_until) = c := by
  rw [retentionCuts, List.mem_map]

theorem exists_cut_iff (holder : Str) (P : Str × Str → Prop) :
    (∃ c ∈ bindingCuts input (acceptedBindings R input) holder ++ retentionCuts (acceptedRetentions R input), P c) ↔
      (∃ b ∈ acceptedBindings R input, b.controller = holder ∧ P (b.bound_from, b.bound_until.getD input.atTime)) ∨
        ∃ r ∈ acceptedRetentions R input, P (r.retained_from, r.retained_until) := by
  simp only [List.mem_append, mem_bindingCuts, mem_retentionCuts]
  constructor
  · rintro ⟨c, ⟨b, hb, hholder, rfl⟩ | ⟨r, hr, rfl⟩, hP⟩
    · exact .inl ⟨b, hb, hholder, hP⟩
    · exact .inr ⟨r, hr, hP⟩
  · rintro (⟨b, hb, hholder, hP⟩ | ⟨r, hr, hP⟩)
    · exact ⟨_, .inl ⟨b, hb, hholder, rfl⟩, hP⟩
    · exact ⟨_, .inr ⟨r, hr, rfl⟩, hP⟩

theorem uncovered_nil_iff (h : input.grantIssuedAt < input.atTime) (holder : Str) : uncovered R input holder = [] ↔
    ∀ t, input.grantIssuedAt ≤ t → t < input.atTime → Covered R input holder t := by
  have hproper : (wholeSpan input).Proper := by
    rintro _ ⟨⟩
    exact h
  rw [uncovered, cuts_eq_nil_iff hproper]
  refine forall_congr' fun t => ?_
  rw [wholeSpan, Span.holds_some, and_imp]
  refine imp_congr_right fun _ => imp_congr_right fun hbefore => ?_
  rw [exists_cut_iff R input holder (fun c => c.1 ≤ t ∧ t < c.2), Covered]
  refine or_congr_left (exists_congr fun b => and_congr_right fun _ => and_congr_right fun _ => ?_)
  rw [IdentifierBindingRecord.Covers]
  cases b.bound_until with
  | none => simpa using fun _ => hbefore
  | some stop => simp

theorem uncovered_nil_of_empty (h : input.atTime ≤ input.grantIssuedAt) (holder : Str) :
    uncovered R input holder = [] ↔ Reached R input holder := by
  rw [uncovered, wholeSpan, cuts_of_empty h,
    exists_cut_iff R input holder (fun c => c.1 < input.atTime ∧ input.grantIssuedAt < c.2), Reached,
    or_iff_right (Std.not_lt.mpr h)]
  refine or_congr_left (exists_congr fun b => and_congr_right fun _ => and_congr_right fun _ =>
    and_congr_right fun _ => ?_)
  cases b.bound_until with
  | none => simpa using h
  | some stop => simp

theorem decision_continuous_iff : (decision R input = .authorized ↔ Continuous R input) ↔
    ∀ c ∈ pins input, SoleController R input c → Reached R input c := by
  rw [decision_authorized_iff, Continuous]
  by_cases hspan : input.grantIssuedAt < input.atTime
  · simp only [uncovered_nil_iff R input hspan, true_iff]
    exact fun c _ _ => .inl hspan
  · have hempty := Std.not_lt.mp hspan
    simp only [uncovered_nil_of_empty R input hempty]
    constructor
    · intro h c hpin hsole
      obtain ⟨c', hsole', -, hreached⟩ := h.mpr ⟨c, hsole, hpin, fun t hfrom hbefore =>
        absurd (Std.lt_of_le_of_lt hfrom hbefore) hspan⟩
      rwa [hsole.unique hsole']
    · intro h
      constructor
      · rintro ⟨c, hsole, hpin, -⟩
        exact ⟨c, hsole, hpin, fun t hfrom hbefore => absurd (Std.lt_of_le_of_lt hfrom hbefore) hspan⟩
      · rintro ⟨c, hsole, hpin, -⟩
        exact ⟨c, hsole, hpin, h c hpin hsole⟩

end

/-- The same question, on the same accepted records up to their order, their number and intervals that end
before they start. -/
structure SameEvidence (R : Runtime) (a b : IdentifierContinuityInput) : Prop where
  atTime : a.atTime = b.atTime
  grantIssuedAt : a.grantIssuedAt = b.grantIssuedAt
  pins : pins a = pins b
  bindings : ∀ r : IdentifierBindingRecord, (∀ stop, r.bound_until = some stop → r.bound_from < stop) →
    (r ∈ acceptedBindings R a ↔ r ∈ acceptedBindings R b)
  retentions : ∀ r : IdentifierRetentionRecord, r.retained_from < r.retained_until →
    (r ∈ acceptedRetentions R a ↔ r ∈ acceptedRetentions R b)

section
variable {R : Runtime} {a b : IdentifierContinuityInput} (h : SameEvidence R a b)
include h

theorem SameEvidence.soleController_iff (c : Str) : SoleController R a c ↔ SoleController R b c := by
  refine forall_congr' fun c' => iff_congr (exists_congr fun r => ?_) Iff.rfl
  rw [h.atTime]
  refine and_congr_left fun hcovers => h.bindings r fun stop hstop => ?_
  exact Std.lt_of_le_of_lt hcovers.1.1 (hcovers.1.2 stop hstop)

theorem SameEvidence.bindingCuts_iff (holder : Str) (c : Str × Str) (hc : c.1 < c.2) :
    c ∈ bindingCuts a (acceptedBindings R a) holder ↔ c ∈ bindingCuts b (acceptedBindings R b) holder := by
  rw [mem_bindingCuts, mem_bindingCuts, h.atTime]
  refine exists_congr fun r => and_congr_left fun ⟨_, hcut⟩ => h.bindings r fun stop hstop => ?_
  rw [← hcut, hstop] at hc
  exact hc

theorem SameEvidence.unbound_nil_iff (holder : Str) :
    unbound a (acceptedBindings R a) holder = [] ↔ unbound b (acceptedBindings R b) holder = [] := by
  rw [unbound_eq, unbound_eq, wholeSpan, wholeSpan, h.atTime, h.grantIssuedAt]
  exact cuts_eq_nil_congr (h.bindingCuts_iff holder)

theorem SameEvidence.uncovered_nil_iff (holder : Str) : uncovered R a holder = [] ↔ uncovered R b holder = [] := by
  rw [uncovered, uncovered, wholeSpan, wholeSpan, h.atTime, h.grantIssuedAt]
  apply cuts_eq_nil_congr
  intro c hc
  rw [List.mem_append, List.mem_append, mem_retentionCuts, mem_retentionCuts]
  refine or_congr (h.bindingCuts_iff holder c hc) (exists_congr fun r => and_congr_left fun hcut => h.retentions r ?_)
  rw [← hcut] at hc
  exact hc

theorem SameEvidence.decision_eq : decision R a = decision R b := by
  have hauthorized : decision R a = .authorized ↔ decision R b = .authorized := by
    simp only [decision_authorized_iff, h.soleController_iff, h.pins, h.uncovered_nil_iff]
  have hdenied : decision R a = .denied ↔ decision R b = .denied := by
    simp only [decision_denied_iff, h.soleController_iff, h.pins]
  cases ha : decision R a <;> cases hb : decision R b <;> simp_all

end

section
variable {R : Runtime} {input : IdentifierContinuityInput}

theorem mem_acceptedBindings {r : IdentifierBindingRecord} : r ∈ acceptedBindings R input ↔
    r ∈ input.bindings ∧ accepts R input IDENTIFIER_BINDING_UNSIGNED_FIELDS r = true ∧ isNamed input r = true := by
  rw [acceptedBindings, accepted, List.mem_filter, List.mem_filter, and_assoc]

theorem mem_acceptedRetentions {r : IdentifierRetentionRecord} : r ∈ acceptedRetentions R input ↔
    r ∈ input.retentions ∧ accepts R input IDENTIFIER_RETENTION_UNSIGNED_FIELDS r = true ∧ isNamed input r = true := by
  rw [acceptedRetentions, accepted, List.mem_filter, List.mem_filter, and_assoc]

def IdentifierContinuityInput.withRecords (input : IdentifierContinuityInput) (bindings : List IdentifierBindingRecord)
    (retentions : List IdentifierRetentionRecord) : IdentifierContinuityInput := { input with bindings, retentions }

theorem sameEvidence_of_perm {bindings : List IdentifierBindingRecord} {retentions : List IdentifierRetentionRecord}
    (hbindings : input.bindings.Perm bindings) (hretentions : input.retentions.Perm retentions) :
    SameEvidence R input (input.withRecords bindings retentions) where
  atTime := rfl
  grantIssuedAt := rfl
  pins := rfl
  bindings r _ := by
    rw [mem_acceptedBindings, mem_acceptedBindings]
    exact and_congr_left fun _ => hbindings.mem_iff
  retentions r _ := by
    rw [mem_acceptedRetentions, mem_acceptedRetentions]
    exact and_congr_left fun _ => hretentions.mem_iff

theorem allJudged_of_perm {bindings : List IdentifierBindingRecord} {retentions : List IdentifierRetentionRecord}
    (hbindings : input.bindings.Perm bindings) (hretentions : input.retentions.Perm retentions)
    (h : AllJudged R input) : AllJudged R (input.withRecords bindings retentions) := by
  have hsame := sameEvidence_of_perm (R := R) hbindings hretentions
  refine ⟨fun r hr => h.1 r (hbindings.mem_iff.mpr hr), fun holder hpin hholders => ?_⟩
  rw [holders_eq_singleton_iff, ← hsame.soleController_iff, ← holders_eq_singleton_iff] at hholders
  rw [← hsame.unbound_nil_iff]
  exact (h.2 holder hpin hholders).imp_right fun hjudged r hr => hjudged r (hretentions.mem_iff.mpr hr)

theorem Pinned.withRecords (h : Pinned input) (bindings : List IdentifierBindingRecord)
    (retentions : List IdentifierRetentionRecord) : Pinned (input.withRecords bindings retentions) :=
  ⟨h.identifierKind, h.identifier, h.atTime, h.grantIssuedAt, h.declared, h.pinned⟩

theorem evaluate_ok (h : Pinned input) {result : IdentifierContinuityResult}
    (hresult : evaluateIdentifierContinuity R input = .ok result) :
    AllJudged R input ∧ result.outcome = decision R input := by
  have houtcome : outcomeOf (evaluateIdentifierContinuity R input) = .ok result.outcome := by
    rw [hresult]
    rfl
  exact (evaluate_decides R input h).eq_ok_iff.mp houtcome

theorem evaluate_returns (h : Pinned input) (hjudged : AllJudged R input) :
    ∃ result, evaluateIdentifierContinuity R input = .ok result ∧ result.outcome = decision R input := by
  have houtcome := (evaluate_decides R input h).1 hjudged
  cases hresult : evaluateIdentifierContinuity R input with
  | error e =>
    rw [hresult] at houtcome
    cases houtcome
  | ok result =>
    rw [hresult] at houtcome
    exact ⟨result, rfl, Except.ok.inj houtcome⟩

theorem ne_nil_of_assertSegment {label value : Str} {u : Unit} (h : assertSegment label value = .ok u) : value ≠ [] := by
  rintro rfl
  cases h

theorem pinned_of_ok (hdeclared : dependencyGrant input.identifierKind input.identifier ∈ input.grantedScopes)
    (hpinned : pins input ≠ []) {result : IdentifierContinuityResult}
    (hresult : evaluateIdentifierContinuity R input = .ok result) : Pinned input := by
  rw [evaluateIdentifierContinuity] at hresult
  obtain ⟨_, hkind, hresult⟩ := bind_eq_ok.mp hresult
  obtain ⟨_, hidentifier, hresult⟩ := bind_eq_ok.mp hresult
  obtain ⟨_, hat, hresult⟩ := bind_eq_ok.mp hresult
  obtain ⟨_, hissued, -⟩ := bind_eq_ok.mp hresult
  exact ⟨ne_nil_of_assertSegment hkind, ne_nil_of_assertSegment hidentifier, ne_nil_of_assertSegment hat,
    ne_nil_of_assertSegment hissued, hdeclared, hpinned⟩

theorem sameEvidence_binding {b : IdentifierBindingRecord} {stop : Str} (hstop : b.bound_until = some stop)
    (hinverted : stop ≤ b.bound_from) :
    SameEvidence R input (input.withRecords (b :: input.bindings) input.retentions) where
  atTime := rfl
  grantIssuedAt := rfl
  pins := rfl
  bindings r hr := by
    have hne : r ≠ b := by
      rintro rfl
      exact absurd (hr stop hstop) (Std.not_lt.mpr hinverted)
    rw [mem_acceptedBindings, mem_acceptedBindings]
    exact and_congr_left fun _ => (List.mem_cons.trans (or_iff_right hne)).symm
  retentions _ _ := Iff.rfl

theorem sameEvidence_retention {r : IdentifierRetentionRecord} (hinverted : r.retained_until ≤ r.retained_from) :
    SameEvidence R input (input.withRecords input.bindings (r :: input.retentions)) where
  atTime := rfl
  grantIssuedAt := rfl
  pins := rfl
  bindings _ _ := Iff.rfl
  retentions other hother := by
    have hne : other ≠ r := by
      rintro rfl
      exact absurd hother (Std.not_lt.mpr hinverted)
    rw [mem_acceptedRetentions, mem_acceptedRetentions]
    exact and_congr_left fun _ => (List.mem_cons.trans (or_iff_right hne)).symm

end

/-- The outcome is coverage exactly when the span from the grant to the instant holds an instant or is reached
over; the order of the records and intervals that end before they start never change it. -/
theorem continuity_covers_iff (R : Runtime) (input : IdentifierContinuityInput)
    (hdeclared : dependencyGrant input.identifierKind input.identifier ∈ input.grantedScopes)
    (hpinned : pins input ≠ []) {result : IdentifierContinuityResult}
    (hresult : evaluateIdentifierContinuity R input = .ok result) :
    ((result.outcome = .authorized ↔ Continuous R input) ↔
      ∀ c ∈ pins input, SoleController R input c → Reached R input c) ∧
    (∀ bindings retentions, input.bindings.Perm bindings → input.retentions.Perm retentions →
      ∃ other, evaluateIdentifierContinuity R (input.withRecords bindings retentions) = .ok other ∧
        other.outcome = result.outcome) ∧
    (∀ (b : IdentifierBindingRecord) (stop : Str), b.bound_until = some stop → stop ≤ b.bound_from → ∀ other,
      evaluateIdentifierContinuity R (input.withRecords (b :: input.bindings) input.retentions) = .ok other →
        other.outcome = result.outcome) ∧
    (∀ r : IdentifierRetentionRecord, r.retained_until ≤ r.retained_from → ∀ other,
      evaluateIdentifierContinuity R (input.withRecords input.bindings (r :: input.retentions)) = .ok other →
        other.outcome = result.outcome) := by
  have h := pinned_of_ok hdeclared hpinned hresult
  obtain ⟨hjudged, houtcome⟩ := evaluate_ok h hresult
  rw [houtcome]
  refine ⟨decision_continuous_iff R input, ?_, ?_, ?_⟩
  · intro bindings retentions hbindings hretentions
    obtain ⟨other, hother, hdecision⟩ :=
      evaluate_returns (h.withRecords bindings retentions) (allJudged_of_perm hbindings hretentions hjudged)
    exact ⟨other, hother, hdecision.trans (sameEvidence_of_perm hbindings hretentions).decision_eq.symm⟩
  · intro b stop hstop hinverted other hother
    have hdecision := (evaluate_ok (h.withRecords _ _) hother).2
    exact hdecision.trans (sameEvidence_binding hstop hinverted).decision_eq.symm
  · intro r hinverted other hother
    have hdecision := (evaluate_ok (h.withRecords _ _) hother).2
    exact hdecision.trans (sameEvidence_retention hinverted).decision_eq.symm

def sampleKey : Str := lit "8a88e3dd7409f195fd52db2d3cba5d72ca6709bf1d94121bf3748801b40f6f5c"

def openSignature : Str :=
  lit "36ee005f2e9f642991a5fb57ffd7e1d597e6f8f785c50e6e815c1cedd6404b2f" ++
    lit "b0adc920ddfae12dd5295e808437d6dafd49e6011da19eb70c27001ceecd700f"

def earlierSignature : Str :=
  lit "65899236495934475809dad1fbefd30fe055eddcb909f4971011b3a8e72ee004" ++
    lit "5df1370369ecaefbad3a0d7ca923cf23ba836c870d23bca5f2024207f3fd0308"

def laterSignature : Str :=
  lit "ccd17f036870782eefa9c903cf9fd728410f4a13da9c5a83ded45de853a4884a" ++
    lit "5cccb1dbb30dbd7e11678b33460af03ce2925ac630c09c4539c98fc77377000b"

def retentionSignature : Str :=
  lit "47af405b25c30901141517763e36d53c815449af5c4db6a8aa5eb8d4829fdeb1" ++
    lit "1e6bd6cc06bcc6a358e5222bcd7113df51af83272a68b9b371545d4d92c57a08"

def bindingText (bound_from bound_until : Str) : Str :=
  lit "\x7b\"bound_from\":\"" ++ bound_from ++ lit "\",\"bound_until\":" ++ bound_until ++
    lit ",\"controller\":\"did:aps:a\",\"custodian\":\"registrar\",\"identifier\":\"a.example\"," ++
    lit "\"identifier_kind\":\"mail-domain\"\x7d"

def retentionText : Str :=
  lit "\x7b\"custodian\":\"registrar\",\"identifier\":\"a.example\",\"identifier_kind\":\"mail-domain\"," ++
    lit "\"retained_from\":\"2026-02-10T00:00:00Z\",\"retained_until\":\"2026-02-20T00:00:00Z\"\x7d"

/-- The texts of the records with their Ed25519 signatures. -/
def sampleSignatures : List (Str × Str) := [
  (bindingText (lit "2026-01-01T00:00:00Z") (lit "null"), openSignature),
  (bindingText (lit "2026-01-01T00:00:00Z") (lit "\"2026-02-10T00:00:00Z\""), earlierSignature),
  (bindingText (lit "2026-02-20T00:00:00Z") (lit "null"), laterSignature),
  (retentionText, retentionSignature)]

def sampleRuntime : Runtime where
  numText _ := lit "0"
  verify message signature key := sampleSignatures.contains (message, signature) && key = sampleKey

def sampleBinding (bound_from : Str) (bound_until : Option Str) (signature : Str) : IdentifierBindingRecord where
  identifier_kind := lit "mail-domain"
  identifier := lit "a.example"
  controller := lit "did:aps:a"
  bound_from
  bound_until
  custodian := lit "registrar"
  signature
  extra := []

/-- The domain has been bound since the year began, with an open end. -/
def openBinding : IdentifierBindingRecord := sampleBinding (lit "2026-01-01T00:00:00Z") none openSignature

def sampleRetention : IdentifierRetentionRecord where
  identifier_kind := lit "mail-domain"
  identifier := lit "a.example"
  retained_from := lit "2026-02-10T00:00:00Z"
  retained_until := lit "2026-02-20T00:00:00Z"
  custodian := lit "registrar"
  signature := retentionSignature
  extra := []

def sampleScopes : List Str :=
  [lit "extid:mail-domain:a.example", lit "extid:mail-domain:a.example:controller:did:aps:a"]

def sampleInput (atTime : Str) (bindings : List IdentifierBindingRecord) (retentions : List IdentifierRetentionRecord) :
    IdentifierContinuityInput where
  identifierKind := lit "mail-domain"
  identifier := lit "a.example"
  grantedScopes := sampleScopes
  grantIssuedAt := lit "2026-02-01T00:00:00Z"
  atTime
  bindings
  retentions
  resolveCustodianStanding _ := some (lit "registrar")
  resolveCustodianKey _ := some sampleKey

/-- At the end of the month: bound until the tenth and again from the twentieth on, and retained between. -/
def monthInput : IdentifierContinuityInput :=
  sampleInput (lit "2026-03-01T00:00:00Z")
    [sampleBinding (lit "2026-01-01T00:00:00Z") (some (lit "2026-02-10T00:00:00Z")) earlierSignature,
      sampleBinding (lit "2026-02-20T00:00:00Z") none laterSignature] [sampleRetention]

theorem sample_declared : dependencyGrant (lit "mail-domain") (lit "a.example") ∈ sampleScopes := by
  decide

theorem sample_pins : pinsUnder (dependencyGrant (lit "mail-domain") (lit "a.example") ++ lit ":controller:")
    sampleScopes = [lit "did:aps:a"] := by
  decide

theorem month_authorized :
    (evaluateIdentifierContinuity sampleRuntime monthInput).toOption.map (·.outcome) = some .authorized := by
  decide +kernel

/-- The outcome is that the month is covered, and it is, whichever binding is given first. -/
theorem continuity_covers_month : Continuous sampleRuntime monthInput ∧ ∃ result other,
    evaluateIdentifierContinuity sampleRuntime monthInput = .ok result ∧ result.outcome = .authorized ∧
    evaluateIdentifierContinuity sampleRuntime
      (monthInput.withRecords monthInput.bindings.reverse monthInput.retentions) = .ok other ∧
    other.outcome = .authorized := by
  obtain ⟨result, hresult, hauthorized⟩ := exists_ok_of_map month_authorized
  have hpinned : pins monthInput ≠ [] := ne_of_eq_of_ne sample_pins (List.cons_ne_nil _ _)
  obtain ⟨hcovers, horder, -⟩ := continuity_covers_iff sampleRuntime monthInput sample_declared hpinned hresult
  obtain ⟨other, hother, hsame⟩ := horder _ _ (List.reverse_perm _).symm (List.Perm.refl _)
  -- the grant is older than the instant
  have hreached : ∀ c ∈ pins monthInput, SoleController sampleRuntime monthInput c →
      Reached sampleRuntime monthInput c :=
    fun _ _ _ => .inl (by decide)
  exact ⟨(hcovers.mpr hreached).mp hauthorized, result, other, hresult, hauthorized, hother, hsame.trans hauthorized⟩

/-- The binding is open-ended and nobody else ever held the domain, but the span from the grant to the instant
is empty, and an open end reaches only to the instant. -/
theorem issue_instant_not_established : ∃ result,
    evaluateIdentifierContinuity sampleRuntime (sampleInput (lit "2026-02-01T00:00:00Z") [openBinding] []) = .ok result ∧
    dependencyGrant (lit "mail-domain") (lit "a.example") ∈ sampleScopes ∧
    pins (sampleInput (lit "2026-02-01T00:00:00Z") [openBinding] []) = [lit "did:aps:a"] ∧
    Continuous sampleRuntime (sampleInput (lit "2026-02-01T00:00:00Z") [openBinding] []) ∧
    result.outcome = .not_established := by
  have houtcome : (evaluateIdentifierContinuity sampleRuntime
      (sampleInput (lit "2026-02-01T00:00:00Z") [openBinding] [])).toOption.map (·.outcome) = some .not_established := by
    decide +kernel
  have hholders : holders sampleRuntime (sampleInput (lit "2026-02-01T00:00:00Z") [openBinding] []) =
      [lit "did:aps:a"] := by
    decide +kernel
  obtain ⟨result, hresult, hnot⟩ := exists_ok_of_map houtcome
  have hsole := (holders_eq_singleton_iff _ _ _).mp hholders
  refine ⟨result, hresult, sample_declared, sample_pins, ⟨_, hsole, List.mem_singleton_self _, ?_⟩, hnot⟩
  intro t hfrom hbefore
  exact absurd (Std.lt_of_le_of_lt hfrom hbefore) (Std.lt_irrefl)

end AgentPassport.IdentifierContinuity
