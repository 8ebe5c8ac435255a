import AgentPassport.JsArithmetic
import AgentPassport.StatusDecision

/-! When the multi-source status decision returns: a verdict left open must name a missing limb, and in
offline mode the limbs are computed from sources the verdict does not rest on. And how old a snapshot
is when it is admitted. -/
namespace AgentPassport.StatusOutcomes
open JsText Js Rfc3339 LifecycleState StatusSources StatusDecision Outcome
variable {v : Validated} {lines : List StatusSourceLine} {d : MultiSourceStatusDecision}

/-- Whatever is thrown is the module's own error. -/
def OwnErrors {α : Type} (r : Except StatusError α) : Prop := ∀ e, r ≠ .error (.lifecycle e)

variable {α : Type}

theorem ownErrors_ok (a : α) : OwnErrors (.ok a) := by
  intro e h
  cases h

theorem ownErrors_fail (code : StatusCoverageCode) (message : Str) :
    OwnErrors (fail code message : Except StatusError α) := by
  intro e h
  cases h

theorem OwnErrors.bind {α β : Type} {r : Except StatusError α} {f : α → Except StatusError β} (hr : OwnErrors r)
    (hf : ∀ a, OwnErrors (f a)) : OwnErrors (r >>= f) := by
  cases r with
  | ok a => exact hf a
  | error error =>
    intro e h
    cases h
    exact hr e rfl

theorem ownErrors_ite {c : Prop} [Decidable c] {r r' : Except StatusError α} (h : OwnErrors r) (h' : OwnErrors r') :
    OwnErrors (if c then r else r') := by
  split
  · exact h
  · exact h'

theorem requireInstant_own (value : JsValue) (field : Str) : OwnErrors (requireInstant value field) := by
  unfold requireInstant
  split
  · exact ownErrors_ok _
  · exact ownErrors_fail _ _

theorem requireWholeSecondBound_own (value : JsValue) (field : Str) :
    OwnErrors (requireWholeSecondBound value field) := by
  unfold requireWholeSecondBound
  split
  · exact ownErrors_ite (ownErrors_ok _) (ownErrors_fail _ _)
  · exact ownErrors_fail _ _

theorem requireNonEmptyString_own (value : JsValue) (field : Str) : OwnErrors (requireNonEmptyString value field) := by
  unfold requireNonEmptyString
  split
  · exact ownErrors_ok _
  · exact ownErrors_fail _ _

theorem requireObject_own (value : JsValue) (field : Str) : OwnErrors (requireObject value field) :=
  ownErrors_ite (ownErrors_ok _) (ownErrors_fail _ _)

theorem readMode_own (value : JsValue) : OwnErrors (readMode value) := by
  unfold readMode
  split
  · exact ownErrors_ite (ownErrors_ok _) (ownErrors_ite (ownErrors_ok _) (ownErrors_fail _ _))
  · exact ownErrors_fail _ _

theorem readRequired_own (value : JsValue) : OwnErrors (readRequired value) := by
  unfold readRequired
  split
  · exact ownErrors_ok _
  · exact ownErrors_fail _ _

theorem readSilence_own (value : JsValue) : OwnErrors (readSilence value) := by
  unfold readSilence
  split
  · exact ownErrors_ite (ownErrors_ok _) (ownErrors_ite (ownErrors_ok _) (ownErrors_fail _ _))
  · exact ownErrors_fail _ _

theorem readConflictPolicy_own (value : JsValue) : OwnErrors (readConflictPolicy value) := by
  unfold readConflictPolicy
  split
  · exact ownErrors_ite (ownErrors_ok _) (ownErrors_ite (ownErrors_ok _) (ownErrors_fail _ _))
  · exact ownErrors_fail _ _

theorem readStalePolicy_own (value : JsValue) : OwnErrors (readStalePolicy value) := by
  unfold readStalePolicy
  split
  · exact ownErrors_ok _
  · exact ownErrors_fail _ _

theorem declareSources_own (required : List JsValue) : ∀ (bounds : OrderedMap Str Int) (requiredIds : List Str),
    OwnErrors (declareSources bounds requiredIds required) := by
  induction required with
  | nil => exact fun bounds requiredIds => ownErrors_ok _
  | cons declared rest ih =>
    intro bounds requiredIds
    refine (requireNonEmptyString_own _ _).bind ?_
    intro id
    refine ownErrors_ite (ownErrors_fail _ _) ((requireWholeSecondBound_own _ _).bind ?_)
    intro bound
    exact ih _ _

theorem readSnapshot_own (mode : VerifierMode) (bounds : OrderedMap Str Int) (snap : JsValue) :
    OwnErrors (readSnapshot mode bounds snap) := by
  unfold readSnapshot
  split
  · exact ownErrors_ok _
  · exact ownErrors_fail _ _
  · split
    · exact ownErrors_fail _ _
    · exact ownErrors_fail _ _
    · refine (requireNonEmptyString_own _ _).bind ?_
      intro id
      refine (requireWholeSecondBound_own _ _).bind ?_
      intro bound
      exact ownErrors_ite (ownErrors_fail _ _) (ownErrors_ok _)

theorem validate_own (input : MultiSourceStatusInput) : OwnErrors (validate input) := by
  refine (requireNonEmptyString_own _ _).bind fun _ => (requireInstant_own _ _).bind fun _ => ?_
  refine (requireObject_own _ _).bind fun _ => (readMode_own _).bind fun _ => (readRequired_own _).bind fun _ => ?_
  refine (readSilence_own _).bind fun _ => (ownErrors_ite (ownErrors_fail _ _) (ownErrors_ok _)).bind fun _ => ?_
  refine (readConflictPolicy_own _).bind fun _ => (readStalePolicy_own _).bind fun _ => ?_
  refine (declareSources_own _ _ _).bind fun _ => (readSnapshot_own _ _ _).bind fun _ => ?_
  refine OwnErrors.bind ?_ fun _ => ownErrors_ok _
  unfold readAnswers
  split
  · exact ownErrors_ok _
  · exact ownErrors_fail _ _

theorem ageAnswer_own (id : Str) (answer : StatusAnswer) (as_of : JsValue) :
    OwnErrors (ageAnswer v id answer as_of) := by
  unfold ageAnswer
  split
  · exact ownErrors_ok _
  · refine ownErrors_ite ?_ ((requireInstant_own _ _).bind fun _ => ownErrors_ite (ownErrors_ok _) (ownErrors_ok _))
    split
    · exact ownErrors_ok _
    · exact ownErrors_ok _
    · exact ownErrors_fail _ _

theorem ageAnswers_own (answers : List JsValue) : ∀ seen, OwnErrors (ageAnswers v seen answers) := by
  induction answers with
  | nil => exact fun seen => ownErrors_ok _
  | cons supplied rest ih =>
    intro seen
    refine (requireNonEmptyString_own _ _).bind fun id => ownErrors_ite (ownErrors_fail _ _) ?_
    split
    · exact ownErrors_fail _ _
    · exact (ageAnswer_own _ _ _).bind fun _ => (ih _).bind fun _ => ownErrors_ok _

def Accepted (value : JsValue) : Prop := ∀ code message, decideMultiSourceStatus value ≠ .error (.coverage code message)

theorem exists_ok_of_own {r : Except StatusError α} (hown : OwnErrors r)
    (hr : ∀ code message, r ≠ .error (.coverage code message)) : ∃ a, r = .ok a := by
  cases r with
  | ok a => exact ⟨a, rfl⟩
  | error e =>
    cases e with
    | coverage code message => exact absurd rfl (hr code message)
    | lifecycle e => exact absurd rfl (hown e)

variable {value : JsValue}

theorem exists_lines_of_accepted (h : Accepted value) :
    ∃ v lines, validate (.read value) = .ok v ∧ ageAnswers v [] v.answers = .ok lines ∧
      decideMultiSourceStatus value = decideLines v lines := by
  have hobject : ∃ u, requireObject value (lit "input") = .ok u := by
    refine exists_ok_of_own (requireObject_own _ _) fun code message hfail => ?_
    exact h code message (by rw [decideMultiSourceStatus, hfail]; rfl)
  obtain ⟨u, hu⟩ := hobject
  have hvalid : ∃ v, validate (.read value) = .ok v := by
    refine exists_ok_of_own (validate_own _) fun code message hfail => ?_
    exact h code message (by rw [decideMultiSourceStatus, hu, hfail]; rfl)
  obtain ⟨v, hv⟩ := hvalid
  have haged : ∃ lines, ageAnswers v [] v.answers = .ok lines := by
    refine exists_ok_of_own (ageAnswers_own _ _) fun code message hfail => ?_
    exact h code message (by rw [decideMultiSourceStatus, hu, hv]; exact congrArg (· >>= _) hfail)
  obtain ⟨lines, hlines⟩ := haged
  refine ⟨v, lines, hv, hlines, ?_⟩
  rw [decideMultiSourceStatus, hu, hv]
  exact congrArg (· >>= _) hlines

theorem reasonText_isReasonCode (code : StatusCoverageReasonCode) : isReasonCode (reasonText code) = true := by
  cases code with
  | STATUS_ACTIVE_ALL_SOURCES_AGREE => rw [reasonText, lit_ofList]; decide
  | ADMITTED_ON_SNAPSHOT_WITHIN_DECLARED_BOUND => rw [reasonText, lit_ofList]; decide
  | STATUS_REVOKED => rw [reasonText, lit_ofList]; decide
  | STATUS_SOURCES_CONFLICT => rw [reasonText, lit_ofList]; decide
  | STATUS_STALE_BEYOND_BOUND => rw [reasonText, lit_ofList]; decide
  | STATUS_COVERAGE_INCOMPLETE => rw [reasonText, lit_ofList]; decide
  | STATUS_NO_USABLE_OBSERVATION => rw [reasonText, lit_ofList]; decide

theorem notEstablished_nil (code : StatusCoverageReasonCode) :
    ∃ e, notEstablished [] (reasonText code) = .error e := by
  rw [notEstablished, lifecycleState, checkReasonCode, if_pos (reasonText_isReasonCode code)]
  exact ⟨_, rfl⟩

theorem notEstablished_of_ne_nil {limbs : List EstablishmentGap} (h : limbs ≠ []) (code : StatusCoverageReasonCode) :
    notEstablished limbs (reasonText code) = .ok ⟨.not_established, reasonText code, some limbs, none, none⟩ := by
  rw [notEstablished, lifecycleState, checkReasonCode, if_pos (reasonText_isReasonCode code), checkMissing,
    if_pos rfl, Option.getD_some, if_neg h]
  rfl

/-- A decision that leaves something open names a limb. -/
def NamesLimb (d : MultiSourceStatusDecision) : Prop :=
  d.outcome = .not_established ∨ d.lifecycle.verdict = .not_established →
    ∃ limb limbs, d.lifecycle.missing = some (limb :: limbs)

/-- The decision is returned, and where it leaves something open it names a limb. -/
def Returned (r : Except StatusError MultiSourceStatusDecision) : Prop := ∃ d, r = .ok d ∧ NamesLimb d

variable {code : StatusCoverageReasonCode}

theorem conclude_eq {outcome : BoundaryOutcome} {verdict : LifecycleVerdict} {snapshot : Option AdmittedSnapshot}
    (h : verdict = .valid ∨ verdict = .invalid) : conclude v lines outcome verdict code snapshot =
      .ok ⟨outcome, ⟨verdict, reasonText code, none, none, none⟩, code, makeBasis v lines none snapshot⟩ := by
  rw [conclude, lifecycleState, checkReasonCode, if_pos (reasonText_isReasonCode code)]
  obtain rfl | rfl := h
  · rfl
  · rfl

theorem conclude_returned {outcome : BoundaryOutcome} {verdict : LifecycleVerdict} {snapshot : Option AdmittedSnapshot}
    (h : verdict = .valid ∨ verdict = .invalid) (houtcome : outcome ≠ .not_established) :
    Returned (conclude v lines outcome verdict code snapshot) := by
  refine ⟨_, conclude_eq h, ?_⟩
  intro hopen
  obtain hopen | hopen := hopen
  · exact absurd hopen houtcome
  · obtain rfl | rfl := h
    · cases hopen
    · cases hopen

theorem leaveOpen_returned_iff : Returned (leaveOpen v lines code) ↔ missingLimbs v lines false ≠ [] := by
  constructor
  · intro hreturned hnil
    obtain ⟨d, hd, -⟩ := hreturned
    obtain ⟨e, he⟩ := notEstablished_nil code
    rw [leaveOpen, hnil, he] at hd
    cases hd
  · intro hlimbs
    rw [leaveOpen, notEstablished_of_ne_nil hlimbs]
    exact ⟨_, rfl, fun _ => ⟨_, _, congrArg some (List.cons_head_tail hlimbs).symm⟩⟩

theorem decideConflict_returned : Returned (decideConflict v lines) := by
  have hlimbs : missingLimbs v lines true ≠ [] := List.cons_ne_nil _ _
  simp only [decideConflict, notEstablished_of_ne_nil hlimbs]
  exact ⟨_, rfl, fun _ => ⟨_, _, rfl⟩⟩

theorem missingLimbs_nil_iff : missingLimbs v lines false = [] ↔
    usedDeterminate lines ≠ [] ∧ lines.any isStale = false ∧ (coverage v lines).complete = true := by
  rw [missingLimbs, List.append_eq_nil_iff, List.append_eq_nil_iff, and_assoc]
  refine and_congr ?_ (and_congr ?_ ?_)
  · cases usedDeterminate lines with
    | nil => simp
    | cons line rest => simp
  · cases lines.any isStale with
    | true => simp
    | false => simp
  · cases (coverage v lines).complete with
    | true => simp
    | false => simp

theorem mem_usedStates_iff {answer : StatusAnswer} (h : answer ≠ .unavailable) :
    answer ∈ usedStates lines ↔ ∃ line ∈ lines, line.used = true ∧ line.answer = answer := by
  constructor
  · intro hmem
    obtain ⟨line, hline, hanswer⟩ := List.any_eq_true.mp (List.mem_filter.mp hmem).2
    obtain ⟨hline, huse⟩ := List.mem_filter.mp hline
    simp only [isDeterminateUse, Bool.and_eq_true] at huse
    exact ⟨line, hline, huse.1, of_decide_eq_true hanswer⟩
  · intro hline
    obtain ⟨line, hline, hused, rfl⟩ := hline
    exact mem_usedStates hline hused h

theorem usedStates_of_notMem (h : StatusAnswer.revoked ∉ usedStates lines) :
    usedStates lines = if (usedDeterminate lines).isEmpty then [] else [.active] := by
  have hrevoked : (usedDeterminate lines).any (fun l => l.answer = .revoked) = false := by
    by_contra hany
    refine h (List.mem_filter.mpr ⟨by decide, ?_⟩)
    exact (Bool.not_eq_false _).mp hany
  have hactive : (usedDeterminate lines).any (fun l => l.answer = .active) = !(usedDeterminate lines).isEmpty := by
    cases hused : usedDeterminate lines with
    | nil => rfl
    | cons line rest =>
      have hmem : line ∈ usedDeterminate lines := by
        rw [hused]
        exact List.mem_cons_self
      have hdet := (List.mem_filter.mp hmem).2
      have hnot := List.any_eq_false.mp hrevoked line hmem
      cases hanswer : line.answer with
      | active => simp [hanswer]
      | revoked => simp [hanswer] at hnot
      | unavailable => simp [isDeterminateUse, hanswer] at hdet
  rw [usedStates, List.filter_cons, List.filter_cons, hrevoked, hactive]
  cases (usedDeterminate lines).isEmpty with
  | true => rfl
  | false => rfl

theorem decideLines_of_mem (h : StatusAnswer.revoked ∈ usedStates lines) :
    decideLines v lines = decideConflict v lines ∨
      decideLines v lines = conclude v lines .denied .invalid .STATUS_REVOKED none := by
  unfold decideLines
  split
  · exact .inl rfl
  · rename_i hone
    split
    · exact .inr rfl
    · rename_i hrevoked
      exact absurd h (revoked_notMem hone hrevoked)

theorem usedStates_notMem (h : StatusAnswer.revoked ∉ usedStates lines) :
    ¬ (usedStates lines).length > 1 ∧ usedStates lines ≠ [.revoked] := by
  rw [usedStates_of_notMem h]
  split
  · decide
  · decide

theorem decideLines_online (h : StatusAnswer.revoked ∉ usedStates lines) (hmode : v.mode = .online) :
    decideLines v lines = decideOnline v lines := by
  obtain ⟨hone, hrevoked⟩ := usedStates_notMem h
  rw [decideLines, if_neg hone, if_neg hrevoked, hmode]

theorem decideLines_offline (h : StatusAnswer.revoked ∉ usedStates lines) (hmode : v.mode = .offline) :
    decideLines v lines = decideOffline v lines := by
  obtain ⟨hone, hrevoked⟩ := usedStates_notMem h
  rw [decideLines, if_neg hone, if_neg hrevoked, hmode]

theorem decideOnline_returned (h : StatusAnswer.revoked ∉ usedStates lines) : Returned (decideOnline v lines) := by
  unfold decideOnline
  split
  · exact conclude_returned (.inl rfl) (by decide)
  · rename_i hnot
    rw [leaveOpen_returned_iff]
    intro hnil
    obtain ⟨hused, -, hcomplete⟩ := missingLimbs_nil_iff.mp hnil
    refine hnot ?_
    rw [hcomplete, Bool.true_and, decide_eq_true_eq, usedStates_of_notMem h, if_neg (by simpa using hused)]

variable {line : StatusSourceLine} {bound : Int}

theorem snapshotLine_iff (h : (lines.map (·.source_id)).Nodup) :
    v.snapshot.bind (fun s => (lineOf lines s.1).map (·, s.2)) = some (line, bound) ↔
      line ∈ lines ∧ v.snapshot = some (line.source_id, bound) := by
  constructor
  · intro hsnap
    obtain ⟨⟨id, bound'⟩, hid, hpair⟩ := Option.bind_eq_some_iff.mp hsnap
    obtain ⟨line', hfind, heq⟩ := Option.map_eq_some_iff.mp hpair
    cases heq
    obtain ⟨hmem, rfl⟩ := (lineOf_iff h).mp hfind
    exact ⟨hmem, hid⟩
  · intro hline
    obtain ⟨hmem, hid⟩ := hline
    rw [hid, Option.bind_some, (lineOf_iff h).mpr ⟨hmem, rfl⟩]
    rfl

/-- The line of the snapshot source is used and says `active`. -/
def SnapshotUsed (v : Validated) (lines : List StatusSourceLine) : Prop :=
  ∃ snapLine bound, v.snapshot.bind (fun s => (lineOf lines s.1).map (·, s.2)) = some (snapLine, bound) ∧
    snapLine.used = true ∧ snapLine.answer = .active

theorem decideOffline_of_used {snapLine : StatusSourceLine}
    (h : v.snapshot.bind (fun s => (lineOf lines s.1).map (·, s.2)) = some (snapLine, bound))
    (hused : snapLine.used = true) (hactive : snapLine.answer = .active) :
    decideOffline v lines = conclude v lines .authorized .valid .ADMITTED_ON_SNAPSHOT_WITHIN_DECLARED_BOUND
      (some ⟨snapLine.source_id, snapLine.as_of, snapLine.age_s, bound⟩) := by
  unfold decideOffline
  rw [h]
  simp only [hused, hactive, decide_true, Bool.and_true, if_true]

theorem decideOffline_of_unused (h : ¬ SnapshotUsed v lines) :
    ∃ code, decideOffline v lines = leaveOpen v lines code := by
  unfold decideOffline
  split
  · rename_i snapLine bound hsnap
    rw [if_neg]
    · split
      · exact ⟨_, rfl⟩
      · exact ⟨_, rfl⟩
    · intro hused
      rw [Bool.and_eq_true, decide_eq_true_eq] at hused
      exact h ⟨snapLine, bound, hsnap, hused⟩
  · exact ⟨_, rfl⟩

/-- Nothing is missing over the lines, and yet the snapshot does not admit. -/
def NothingMissing (v : Validated) (lines : List StatusSourceLine) : Prop :=
  v.mode = .offline ∧ StatusAnswer.revoked ∉ usedStates lines ∧ ¬ SnapshotUsed v lines ∧
    lines.any isStale = false ∧ (coverage v lines).complete = true

theorem used_of_complete (h : (coverage v lines).complete = true) : usedDeterminate lines ≠ [] := by
  obtain ⟨-, id, -, hid⟩ := complete_usable h
  obtain ⟨line, hline, huse⟩ := (Option.any_eq_true _ _).mp hid
  exact List.ne_nil_of_mem (List.mem_filter.mpr ⟨List.mem_of_find?_eq_some hline, huse⟩)

theorem decideLines_returned_iff : Returned (decideLines v lines) ↔ ¬ NothingMissing v lines := by
  by_cases hrevoked : StatusAnswer.revoked ∈ usedStates lines
  · refine iff_of_true ?_ fun h => h.2.1 hrevoked
    obtain h | h := decideLines_of_mem (v := v) hrevoked
    · rw [h]
      exact decideConflict_returned
    · rw [h]
      exact conclude_returned (.inr rfl) (by decide)
  · cases hmode : v.mode with
    | online =>
      rw [decideLines_online hrevoked hmode]
      refine iff_of_true (decideOnline_returned hrevoked) fun h => ?_
      rw [NothingMissing, hmode] at h
      cases h.1
    | offline =>
      rw [decideLines_offline hrevoked hmode]
      by_cases hused : SnapshotUsed v lines
      · refine iff_of_true ?_ fun h => h.2.2.1 hused
        obtain ⟨snapLine, bound, hsnap, hline, hactive⟩ := hused
        rw [decideOffline_of_used hsnap hline hactive]
        exact conclude_returned (.inl rfl) (by decide)
      · obtain ⟨code, hcode⟩ := decideOffline_of_unused hused
        rw [hcode, leaveOpen_returned_iff, ne_eq, not_iff_not, missingLimbs_nil_iff, NothingMissing]
        constructor
        · intro h
          exact ⟨hmode, hrevoked, hused, h.2⟩
        · intro h
          exact ⟨used_of_complete h.2.2.2.2, h.2.2.2⟩

theorem useOf_stale (stale : StaleAnswerPolicy) (answer : StatusAnswer) (within : Bool) :
    ((useOf stale answer within).2 = .stale_beyond_bound ↔ (useOf stale answer within).1 = false) ∧
      (useOf stale answer within).2 ≠ .answer_dated_after_boundary := by
  unfold useOf
  split
  · decide
  · split
    · decide
    · split
      · decide
      · decide

variable {id : Str}

theorem ageAnswer_line {answer : StatusAnswer} {as_of : JsValue} (h : ageAnswer v id answer as_of = .ok line) :
    (isStale line = false ∧ (v.boundOf id = none ∨ answer = .unavailable)) ∨
      ∃ bound ms, v.boundOf id = some bound ∧ answer ≠ .unavailable ∧ parseRfc3339 as_of = .ok ms ∧
        line.age_s = some ((v.nowMs - ms) / 1000) ∧ (isStale line = true ↔ line.used = false) := by
  unfold ageAnswer at h
  split at h
  · rename_i hnone
    cases h
    exact .inl ⟨rfl, .inl hnone⟩
  · rename_i bound hbound
    split at h
    · rename_i hunavailable
      split at h
      · cases h
        exact .inl ⟨rfl, .inr hunavailable⟩
      · cases h
        exact .inl ⟨rfl, .inr hunavailable⟩
      · cases h
    · rename_i hdet
      obtain ⟨ms, hms, h⟩ := bind_eq_ok.mp h
      rw [requireInstant_ok] at hms
      refine .inr ⟨bound, ms, hbound, hdet, hms, ?_⟩
      by_cases hneg : (v.nowMs - ms) / 1000 < 0
      · simp only [if_pos hneg] at h
        cases h
        exact ⟨rfl, iff_of_true rfl rfl⟩
      · simp only [if_neg hneg] at h
        cases h
        refine ⟨rfl, ?_⟩
        obtain ⟨hstale, hlater⟩ := useOf_stale v.stalePolicy answer (decide ((v.nowMs - ms) / 1000 ≤ _))
        rw [isStale, Bool.or_eq_true, decide_eq_true_eq, decide_eq_true_eq, or_iff_left hlater]
        exact hstale

theorem dated_line {supplied : JsValue} {age bound : Int} (h : Aged v supplied line)
    (hdated : Dated v supplied line.source_id line.answer age bound) :
    line.age_s = some age ∧ (isStale line = true ↔ line.used = false) := by
  obtain ⟨-, -, hline⟩ := h
  obtain ⟨ms, hms, rfl⟩ := hdated.aged
  obtain ⟨-, hnone | hunavailable⟩ | ⟨bound', ms', -, -, hms', hage, hstale⟩ := ageAnswer_line hline
  · rw [hdated.accepted] at hnone
    cases hnone
  · exact absurd hunavailable hdated.determinate
  · rw [hms] at hms'
    cases hms'
    exact ⟨hage, hstale⟩

theorem dated_of_stale {supplied : JsValue} (h : Aged v supplied line) (hstale : isStale line = true) :
    ∃ age bound, Dated v supplied line.source_id line.answer age bound := by
  obtain ⟨⟨hsource, -⟩, hsaid, hline⟩ := h
  obtain ⟨hnot, -⟩ | ⟨bound, ms, hbound, hdet, hms, -⟩ := ageAnswer_line hline
  · rw [hstale] at hnot
    cases hnot
  · exact ⟨_, bound, hsource, hbound, hsaid, hdet, ms, hms, rfl⟩

/-- A source gave a determinate answer that can be dated. -/
def GaveDated (v : Validated) (id : Str) : Prop :=
  ∃ supplied ∈ v.answers, ∃ answer age bound, Dated v supplied id answer age bound

/-- Every determinate answer of an accepted source is `active` and counts. -/
def AllActive (v : Validated) : Prop :=
  ∀ supplied ∈ v.answers, ∀ id answer age bound, Dated v supplied id answer age bound →
    answer = .active ∧ Counts v.stalePolicy answer age bound

/-- Every required source that counts for coverage gave a determinate answer, and there is one. -/
def Covered (v : Validated) : Prop :=
  (∀ id ∈ v.requiredIds, v.silence_is = .coverage_gap ∨
    (∃ supplied ∈ v.answers, supplied.get (lit "source_id") = .str id) → GaveDated v id) ∧
  ∃ id ∈ v.requiredIds, GaveDated v id

theorem allActive_iff (haged : List.Forall₂ (Aged v) v.answers lines) :
    AllActive v ↔ StatusAnswer.revoked ∉ usedStates lines ∧ lines.any isStale = false := by
  constructor
  · intro h
    refine ⟨?_, ?_⟩
    · intro hmem
      obtain ⟨line, hline, hused, hanswer⟩ := (mem_usedStates_iff (by decide)).mp hmem
      obtain ⟨supplied, hsupplied, hagedLine⟩ := exists_supplied haged hline
      obtain ⟨age, bound, hdated⟩ := dated_of_used hagedLine hused
      rw [(h supplied hsupplied _ _ _ _ hdated).1] at hanswer
      cases hanswer
    · refine List.any_eq_false.mpr ?_
      intro line hline hstale
      obtain ⟨supplied, hsupplied, hagedLine⟩ := exists_supplied haged hline
      obtain ⟨age, bound, hdated⟩ := dated_of_stale hagedLine hstale
      have hused := (used_iff hagedLine hdated).mpr (h supplied hsupplied _ _ _ _ hdated).2
      rw [(dated_line hagedLine hdated).2.mp hstale] at hused
      cases hused
  · intro h supplied hsupplied id answer age bound hdated
    obtain ⟨hrevoked, hstale⟩ := h
    obtain ⟨line, hline, hagedLine⟩ := exists_line haged hsupplied
    obtain ⟨rfl, rfl⟩ := names_of_dated hagedLine hdated
    have hused : line.used = true := by
      cases hnot : line.used with
      | true => rfl
      | false => exact absurd ((dated_line hagedLine hdated).2.mpr hnot) (List.any_eq_false.mp hstale line hline)
    refine ⟨?_, (used_iff hagedLine hdated).mp hused⟩
    have hstate := mem_usedStates hline hused hdated.determinate
    cases hanswer : line.answer with
    | active => rfl
    | revoked => exact absurd (hanswer ▸ hstate) hrevoked
    | unavailable => exact absurd hanswer hdated.determinate

theorem complete_iff : (coverage v lines).complete = true ↔
    (∀ id ∈ v.requiredIds, v.silence_is = .coverage_gap ∨ (lineOf lines id).isSome = true →
      (lineOf lines id).any isDeterminateUse = true) ∧
    ∃ id ∈ v.requiredIds, (lineOf lines id).any isDeterminateUse = true := by
  refine ⟨complete_usable, ?_⟩
  intro h
  obtain ⟨hall, id, hid, husable⟩ := h
  have hpos : 0 < (usableRequired v lines).length := List.length_pos_of_mem (List.mem_filter.mpr ⟨hid, husable⟩)
  have hlength : (usableRequired v lines).length =
      if measuredOver v = .declared_required_set then v.requiredIds.length else (answeredRequired v lines).length := by
    by_cases hsilence : v.silence_is = .coverage_gap
    · rw [measuredOver, if_pos hsilence, if_pos rfl, usableRequired, List.filter_eq_self.mpr]
      intro other hother
      exact hall other hother (.inl hsilence)
    · rw [measuredOver, if_neg hsilence, if_neg (by decide), usableRequired, answeredRequired]
      refine congrArg List.length (List.filter_congr ?_)
      intro other hother
      cases hline : lineOf lines other with
      | none => rfl
      | some line =>
        have husable := hall other hother (.inr (by rw [hline]; rfl))
        rw [hline] at husable
        exact husable
  simp only [coverage, Bool.and_eq_true, decide_eq_true_eq]
  exact ⟨hlength ▸ hpos, hlength⟩

theorem gaveDated_iff (haged : List.Forall₂ (Aged v) v.answers lines) (hnodup : (lines.map (·.source_id)).Nodup)
    (hactive : AllActive v) : (lineOf lines id).any isDeterminateUse = true ↔ GaveDated v id := by
  constructor
  · intro h
    obtain ⟨line, hfind, huse⟩ := (Option.any_eq_true _ _).mp h
    obtain ⟨hmem, rfl⟩ := (lineOf_iff hnodup).mp hfind
    obtain ⟨supplied, hsupplied, hline⟩ := exists_supplied haged hmem
    rw [isDeterminateUse, Bool.and_eq_true] at huse
    obtain ⟨age, bound, hdated⟩ := dated_of_used hline huse.1
    exact ⟨supplied, hsupplied, line.answer, age, bound, hdated⟩
  · intro h
    obtain ⟨supplied, hsupplied, answer, age, bound, hdated⟩ := h
    obtain ⟨line, hmem, hline⟩ := exists_line haged hsupplied
    obtain ⟨rfl, rfl⟩ := names_of_dated hline hdated
    have hused := (used_iff hline hdated).mpr (hactive supplied hsupplied _ _ _ _ hdated).2
    refine (Option.any_eq_true _ _).mpr ⟨line, (lineOf_iff hnodup).mpr ⟨hmem, rfl⟩, ?_⟩
    rw [isDeterminateUse, hused, Bool.true_and]
    exact decide_eq_true hdated.determinate

theorem covered_iff (haged : List.Forall₂ (Aged v) v.answers lines) (hnodup : (lines.map (·.source_id)).Nodup)
    (hactive : AllActive v) : (coverage v lines).complete = true ↔ Covered v := by
  have hanswered : ∀ id, (lineOf lines id).isSome = true ↔
      ∃ supplied ∈ v.answers, supplied.get (lit "source_id") = .str id := by
    intro id
    rw [answered_iff hnodup]
    constructor
    · intro h
      obtain ⟨line, hmem, rfl⟩ := h
      obtain ⟨supplied, hsupplied, hline⟩ := exists_supplied haged hmem
      exact ⟨supplied, hsupplied, hline.1.1⟩
    · intro h
      obtain ⟨supplied, hsupplied, hsource⟩ := h
      obtain ⟨line, hmem, hline⟩ := exists_line haged hsupplied
      have hname := hline.1.1
      rw [hsource, JsValue.str.injEq] at hname
      exact ⟨line, hmem, hname.symm⟩
  rw [complete_iff, Covered]
  simp only [hanswered, gaveDated_iff haged hnodup hactive]

theorem snapshotUsed_iff (haged : List.Forall₂ (Aged v) v.answers lines) (hnodup : (lines.map (·.source_id)).Nodup)
    (hactive : AllActive v) : SnapshotUsed v lines ↔ ∃ id bound, v.snapshot = some (id, bound) ∧ GaveDated v id := by
  constructor
  · intro h
    obtain ⟨line, bound, hsnap, hused, hanswer⟩ := h
    obtain ⟨hmem, hid⟩ := (snapshotLine_iff hnodup).mp hsnap
    obtain ⟨supplied, hsupplied, hline⟩ := exists_supplied haged hmem
    obtain ⟨age, bound', hdated⟩ := dated_of_used hline hused
    exact ⟨_, bound, hid, supplied, hsupplied, _, age, bound', hdated⟩
  · intro h
    obtain ⟨id, bound, hid, supplied, hsupplied, answer, age, bound', hdated⟩ := h
    obtain ⟨line, hmem, hline⟩ := exists_line haged hsupplied
    obtain ⟨rfl, rfl⟩ := names_of_dated hline hdated
    obtain ⟨hanswer, hcounts⟩ := hactive supplied hsupplied _ _ _ _ hdated
    exact ⟨line, bound, (snapshotLine_iff hnodup).mpr ⟨hmem, hid⟩, (used_iff hline hdated).mpr hcounts, hanswer⟩

/-- Offline, the required sources are covered by `active` answers that count, and the snapshot source gave none. -/
structure SnapshotSilent (v : Validated) : Prop where
  offline : v.mode = .offline
  active : AllActive v
  covered : Covered v
  silent : ∀ id bound, v.snapshot = some (id, bound) → ¬ GaveDated v id

theorem nothingMissing_iff (haged : List.Forall₂ (Aged v) v.answers lines)
    (hnodup : (lines.map (·.source_id)).Nodup) : NothingMissing v lines ↔ SnapshotSilent v := by
  constructor
  · intro h
    obtain ⟨hmode, hrevoked, hsnap, hstale, hcomplete⟩ := h
    have hactive := (allActive_iff haged).mpr ⟨hrevoked, hstale⟩
    refine ⟨hmode, hactive, (covered_iff haged hnodup hactive).mp hcomplete, ?_⟩
    intro id bound hid hgave
    exact hsnap ((snapshotUsed_iff haged hnodup hactive).mpr ⟨id, bound, hid, hgave⟩)
  · intro h
    obtain ⟨hrevoked, hstale⟩ := (allActive_iff haged).mp h.active
    refine ⟨h.offline, hrevoked, ?_, hstale, (covered_iff haged hnodup h.active).mpr h.covered⟩
    intro hsnap
    obtain ⟨id, bound, hid, hgave⟩ := (snapshotUsed_iff haged hnodup h.active).mp hsnap
    exact h.silent id bound hid hgave

/-- On an input that passes validation a decision is returned, and names a limb where it leaves something open,
unless offline the required sources are covered by `active` answers that count and the snapshot source is silent. -/
theorem decision_returned_iff {value : JsValue} (h : Accepted value) :
    ∃ v, validate (.read value) = .ok v ∧ (Returned (decideMultiSourceStatus value) ↔ ¬ SnapshotSilent v) := by
  obtain ⟨v, lines, hv, hlines, hdecide⟩ := exists_lines_of_accepted h
  obtain ⟨haged, hnodup, -⟩ := ageAnswers_ok.mp hlines
  refine ⟨v, hv, ?_⟩
  rw [hdecide, decideLines_returned_iff, nothingMissing_iff haged hnodup]

/-- Offline: one required source and a snapshot source, each with a bound of one second. -/
def offlineInput (staleActive : Bool) (answers : List JsValue) : JsValue :=
  .obj [(lit "authority_ref", .str (lit "ref")), (lit "now", .str (lit "2026-01-01T00:00:10Z")),
    (lit "trustPolicy", .obj [(lit "mode", .str (lit "offline")),
      (lit "sources", .obj [(lit "required", .arr [sampleSource "a" (.num (.finite .one))]),
        (lit "silence_is", .str (lit "coverage_gap"))]),
      (lit "snapshot_source", .obj [(lit "source_id", .str (lit "s")),
        (lit "declared_bound_s", .num (.finite .one))])]),
    (lit "answers", .arr answers), (lit "conflictPolicy", .str (lit "deny_with_conflict")),
    (lit "stalePolicy", .obj [(lit "stale_revoked_still_counts", .bool true),
      (lit "stale_active_still_counts", .bool staleActive)])]

theorem accepted_of_isOk (h : (decideMultiSourceStatus value).isOk = true) : Accepted value := by
  intro code message hfail
  rw [hfail] at h
  cases h

/-- Online, with both required sources active, the decision is returned. -/
theorem decision_returned_online : Returned (decideMultiSourceStatus (sampleInput sampleAnswers)) := by
  have hfacts : (decideMultiSourceStatus (sampleInput sampleAnswers)).isOk = true ∧
      (validate (.read (sampleInput sampleAnswers))).toOption.map (·.mode) = some .online := by
    decide +kernel
  obtain ⟨hok, hmode⟩ := hfacts
  obtain ⟨v, hv, hiff⟩ := decision_returned_iff (accepted_of_isOk hok)
  rw [hv] at hmode
  refine hiff.mpr fun h => ?_
  rw [Except.toOption, Option.map_some, h.offline] at hmode
  cases hmode

/-- The code of the lifecycle error that escapes, if one does. -/
def escaped {α : Type} : Except StatusError α → Option LifecycleStateCode
  | .error (.lifecycle e) => some e.code
  | _ => none

def silentSnapshot : JsValue := offlineInput false [sampleAnswer "a" "active" "2026-01-01T00:00:10Z"]

/-- The required source is active and fresh and the snapshot source is silent: no limb is missing, and what the
constructor throws escapes. -/
theorem silent_snapshot_throws : Accepted silentSnapshot ∧
    escaped (decideMultiSourceStatus silentSnapshot) = some .MISSING_REQUIRED ∧
    ¬ Returned (decideMultiSourceStatus silentSnapshot) := by
  have hescaped : escaped (decideMultiSourceStatus silentSnapshot) = some .MISSING_REQUIRED := by
    decide +kernel
  refine ⟨?_, hescaped, ?_⟩
  · intro code message h
    rw [h] at hescaped
    cases hescaped
  · intro h
    obtain ⟨d, hd, -⟩ := h
    rw [hd] at hescaped
    cases hescaped

theorem decideLines_admitted (h : decideLines v lines = .ok d) (hauth : d.outcome = .authorized)
    (hcode : d.reason_code = .ADMITTED_ON_SNAPSHOT_WITHIN_DECLARED_BOUND) :
    v.mode = .offline ∧ StatusAnswer.revoked ∉ usedStates lines ∧ SnapshotUsed v lines := by
  by_cases hrevoked : StatusAnswer.revoked ∈ usedStates lines
  · obtain hconflict | hdenied := decideLines_of_mem (v := v) hrevoked
    · rw [hconflict] at h
      exact absurd hauth (decideConflict_ok h)
    · rw [hdenied] at h
      rw [(conclude_ok h).1] at hauth
      cases hauth
  · cases hmode : v.mode with
    | online =>
      rw [decideLines_online hrevoked hmode] at h
      unfold decideOnline at h
      split at h
      · rw [conclude_eq (.inl rfl)] at h
        cases h
        cases hcode
      · exact absurd hauth (leaveOpen_ok h)
    | offline =>
      rw [decideLines_offline hrevoked hmode] at h
      refine ⟨rfl, hrevoked, ?_⟩
      by_contra hnot
      obtain ⟨code, hopen⟩ := decideOffline_of_unused hnot
      exact absurd hauth (leaveOpen_ok (hopen ▸ h))

/-- The decision rests on an `active` answer of the snapshot source whose age is within the declared bound. -/
def WithinDeclaredBound (v : Validated) (d : MultiSourceStatusDecision) : Prop :=
  ∃ snapshot, d.basis.snapshot = some snapshot ∧ ∃ supplied ∈ v.answers, ∃ age bound,
    v.snapshot = some (snapshot.source_id, bound) ∧ Dated v supplied snapshot.source_id .active age bound ∧
    snapshot.age_s = some age ∧ snapshot.declared_bound_s = bound ∧ 0 ≤ age ∧ age ≤ bound

/-- Offline, the snapshot source's `active` is past its bound, the policy counts it all the same, and no
revocation of an accepted source counts. -/
structure StaleSnapshot (v : Validated) : Prop where
  offline : v.mode = .offline
  counted : v.stalePolicy.stale_active_still_counts = true
  unrevoked : ∀ supplied ∈ v.answers, ∀ id age bound, Dated v supplied id .revoked age bound →
    ¬ Counts v.stalePolicy .revoked age bound
  stale : ∃ supplied ∈ v.answers, ∃ id age bound, v.snapshot = some (id, bound) ∧
    Dated v supplied id .active age bound ∧ bound < age

theorem unrevoked_iff (haged : List.Forall₂ (Aged v) v.answers lines) : StatusAnswer.revoked ∉ usedStates lines ↔
    ∀ supplied ∈ v.answers, ∀ id age bound, Dated v supplied id .revoked age bound →
      ¬ Counts v.stalePolicy .revoked age bound := by
  rw [mem_usedStates_iff (by decide)]
  constructor
  · intro h supplied hsupplied id age bound hdated hcounts
    obtain ⟨line, hmem, hline⟩ := exists_line haged hsupplied
    obtain ⟨rfl, hanswer⟩ := names_of_dated hline hdated
    rw [← hanswer] at hdated hcounts
    exact h ⟨line, hmem, (used_iff hline hdated).mpr hcounts, hanswer⟩
  · intro h hline
    obtain ⟨line, hmem, hused, hanswer⟩ := hline
    obtain ⟨supplied, hsupplied, hagedLine⟩ := exists_supplied haged hmem
    obtain ⟨age, bound, hdated⟩ := dated_of_used hagedLine hused
    have hcounts := (used_iff hagedLine hdated).mp hused
    rw [hanswer] at hdated hcounts
    exact h supplied hsupplied _ _ _ hdated hcounts

theorem boundOf_snapshot (h : v.snapshot = some (id, bound)) : v.boundOf id = some bound := by
  rw [Validated.boundOf, h]
  exact if_pos rfl

theorem requireWholeSecondBound_ok {field : Str} (h : requireWholeSecondBound value field = .ok bound) : 0 ≤ bound := by
  unfold requireWholeSecondBound at h
  split at h
  · split at h
    · rename_i hcheck
      cases h
      rw [Bool.and_eq_true, decide_eq_true_eq] at hcheck
      exact Int.ediv_nonneg hcheck.2 (Int.le_of_lt scaleOne_pos)
    · cases h
  · cases h

theorem readSnapshot_nonneg {mode : VerifierMode} {bounds : OrderedMap Str Int} {snap : JsValue}
    (h : readSnapshot mode bounds snap = .ok (some (id, bound))) : 0 ≤ bound := by
  unfold readSnapshot at h
  split at h
  · cases h
  · cases h
  · split at h
    · cases h
    · cases h
    · obtain ⟨id', -, h⟩ := bind_eq_ok.mp h
      obtain ⟨bound', hbound, h⟩ := bind_eq_ok.mp h
      split at h
      · cases h
      · cases h
        exact requireWholeSecondBound_ok hbound

theorem snapshot_bound_nonneg {input : MultiSourceStatusInput} (h : validate input = .ok v)
    (hsnap : v.snapshot = some (id, bound)) : 0 ≤ bound := by
  unfold validate at h
  obtain ⟨_, -, h⟩ := bind_eq_ok.mp h
  obtain ⟨_, -, h⟩ := bind_eq_ok.mp h
  obtain ⟨-, h⟩ := bind_unit_eq_ok.mp h
  obtain ⟨_, -, h⟩ := bind_eq_ok.mp h
  obtain ⟨_, -, h⟩ := bind_eq_ok.mp h
  obtain ⟨_, -, h⟩ := bind_eq_ok.mp h
  obtain ⟨-, h⟩ := bind_unit_eq_ok.mp h
  obtain ⟨_, -, h⟩ := bind_eq_ok.mp h
  obtain ⟨_, -, h⟩ := bind_eq_ok.mp h
  obtain ⟨_, -, h⟩ := bind_eq_ok.mp h
  obtain ⟨snapshot, hsnapshot, h⟩ := bind_eq_ok.mp h
  obtain ⟨_, -, h⟩ := bind_eq_ok.mp h
  cases h
  change snapshot = some (id, bound) at hsnap
  rw [hsnap] at hsnapshot
  exact readSnapshot_nonneg hsnapshot

/-- On an input that passes validation an admission on the snapshot is within its declared bound, unless the policy
counts an `active` that is past it. -/
theorem admitted_within_bound_iff {value : JsValue} (h : Accepted value) :
    ∃ v, validate (.read value) = .ok v ∧
      ((∀ d, decideMultiSourceStatus value = .ok d → d.outcome = .authorized →
        d.reason_code = .ADMITTED_ON_SNAPSHOT_WITHIN_DECLARED_BOUND → WithinDeclaredBound v d) ↔
        ¬ StaleSnapshot v) := by
  obtain ⟨v, lines, hv, hlines, hdecide⟩ := exists_lines_of_accepted h
  obtain ⟨haged, hnodup, -⟩ := ageAnswers_ok.mp hlines
  refine ⟨v, hv, ?_⟩
  rw [hdecide]
  constructor
  · intro hwithin hstale
    have hrevoked := (unrevoked_iff haged).mpr hstale.unrevoked
    obtain ⟨supplied, hsupplied, id, age, bound, hid, hdated, hpast⟩ := hstale.stale
    have hnonneg := snapshot_bound_nonneg hv hid
    have hcounts : Counts v.stalePolicy .active age bound := ⟨by omega, .inr (.inr ⟨rfl, hstale.counted⟩)⟩
    obtain ⟨line, hmem, hline⟩ := exists_line haged hsupplied
    obtain ⟨rfl, hanswer⟩ := names_of_dated hline hdated
    rw [← hanswer] at hdated hcounts
    have hused := (used_iff hline hdated).mpr hcounts
    have hsnap := (snapshotLine_iff hnodup).mpr ⟨hmem, hid⟩
    have hd := (decideLines_offline hrevoked hstale.offline).trans
      ((decideOffline_of_used hsnap hused hanswer).trans (conclude_eq (.inl rfl)))
    obtain ⟨snapshot, hsnapshot, -, -, age', bound', -, -, hage', hbound', -, hle⟩ := hwithin _ hd rfl rfl
    cases hsnapshot
    rw [(dated_line hline hdated).1] at hage'
    cases hage'
    change bound = bound' at hbound'
    omega
  · intro hnot d hd hauth hcode
    obtain ⟨hmode, hrevoked, line, snapshotBound, hsnap, hused, hanswer⟩ := decideLines_admitted hd hauth hcode
    obtain ⟨hmem, hid⟩ := (snapshotLine_iff hnodup).mp hsnap
    obtain ⟨supplied, hsupplied, hline⟩ := exists_supplied haged hmem
    obtain ⟨age, bound, hdated⟩ := dated_of_used hline hused
    obtain ⟨hpositive, hcount⟩ := (used_iff hline hdated).mp hused
    have hage := (dated_line hline hdated).1
    have hbound := hdated.accepted
    rw [boundOf_snapshot hid] at hbound
    cases hbound
    rw [hanswer] at hdated hcount
    rw [decideLines_offline hrevoked hmode, decideOffline_of_used hsnap hused hanswer, conclude_eq (.inl rfl)] at hd
    cases hd
    refine ⟨_, rfl, supplied, hsupplied, age, _, hid, hdated, hage, rfl, hpositive, ?_⟩
    by_contra hpast
    obtain hle | ⟨hother, -⟩ | ⟨-, hstale⟩ := hcount
    · exact hpast hle
    · cases hother
    · exact hnot ⟨hmode, hstale, (unrevoked_iff haged).mp hrevoked,
        supplied, hsupplied, _, age, _, hid, hdated, Int.not_le.mp hpast⟩

def oneSecondOld : JsValue := offlineInput false [sampleAnswer "s" "active" "2026-01-01T00:00:09Z"]

/-- A snapshot one second old is within its bound of one second. -/
theorem admitted_within_bound_fresh : ∃ v d, decideMultiSourceStatus oneSecondOld = .ok d ∧
    d.outcome = .authorized ∧ WithinDeclaredBound v d := by
  have hfacts : (decideMultiSourceStatus oneSecondOld).isOk = true ∧
      (decideMultiSourceStatus oneSecondOld).toOption.map (fun d => (d.outcome, d.reason_code)) =
        some (.authorized, .ADMITTED_ON_SNAPSHOT_WITHIN_DECLARED_BOUND) ∧
      (validate (.read oneSecondOld)).toOption.map (·.stalePolicy.stale_active_still_counts) = some false := by
    decide +kernel
  obtain ⟨hok, houtcome, hpolicy⟩ := hfacts
  obtain ⟨v, hv, hiff⟩ := admitted_within_bound_iff (accepted_of_isOk hok)
  obtain ⟨d, hd⟩ := exists_of_isOk hok
  rw [hd, Except.toOption, Option.map_some, Option.some.injEq, Prod.mk.injEq] at houtcome
  rw [hv] at hpolicy
  refine ⟨v, d, hd, houtcome.1, hiff.mpr ?_ d hd houtcome.1 houtcome.2⟩
  intro h
  rw [Except.toOption, Option.map_some, h.counted] at hpolicy
  cases hpolicy

def tenSecondsOld : JsValue := offlineInput true [sampleAnswer "s" "active" "2026-01-01T00:00:00Z"]

/-- A snapshot ten seconds old is admitted as within its bound of one second. -/
theorem stale_snapshot_admitted : ∃ d snapshot, decideMultiSourceStatus tenSecondsOld = .ok d ∧
    d.outcome = .authorized ∧ d.reason_code = .ADMITTED_ON_SNAPSHOT_WITHIN_DECLARED_BOUND ∧
    d.basis.snapshot = some snapshot ∧ snapshot.age_s = some 10 ∧ snapshot.declared_bound_s = 1 := by
  have hfacts : (decideMultiSourceStatus tenSecondsOld).toOption.map
      (fun d => (d.outcome, d.reason_code, d.basis.snapshot)) =
        some (.authorized, .ADMITTED_ON_SNAPSHOT_WITHIN_DECLARED_BOUND,
          some ⟨lit "s", some (lit "2026-01-01T00:00:00Z"), some 10, 1⟩) := by
    decide +kernel
  obtain ⟨d, hd, hfields⟩ := Outcome.exists_ok_of_map hfacts
  simp only [Prod.mk.injEq] at hfields
  obtain ⟨houtcome, hcode, hsnapshot⟩ := hfields
  exact ⟨d, _, hd, houtcome, hcode, hsnapshot, rfl, rfl⟩

end AgentPassport.StatusOutcomes
