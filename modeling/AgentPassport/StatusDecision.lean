import AgentPassport.StatusSources

/-! What an authorization by the multi-source status decision rests on, and that the order in which
the answers were supplied decides nothing. -/
namespace AgentPassport.StatusDecision
open JsText Js Rfc3339 LifecycleState StatusSources Outcome
variable {v : Validated} {lines lines' : List StatusSourceLine} {d : MultiSourceStatusDecision}

variable {value : JsValue}

theorem requireNonEmptyString_ok {field id : Str} :
    requireNonEmptyString value field = .ok id ↔ value = .str id ∧ id ≠ [] := by
  constructor
  · intro h
    unfold requireNonEmptyString at h
    split at h
    · cases h
      exact ⟨rfl, List.cons_ne_nil _ _⟩
    · cases h
  · intro h
    obtain ⟨rfl, hne⟩ := h
    cases id with
    | nil => exact absurd rfl hne
    | cons c rest => rfl

theorem requireInstant_ok {field : Str} {ms : Int} :
    requireInstant value field = .ok ms ↔ parseRfc3339 value = .ok ms := by
  unfold requireInstant
  split
  · rename_i n hn
    rw [hn]
    simp [pure, Except.pure]
  · rename_i e he
    rw [he]
    constructor
    · intro h
      cases h
    · intro h
      cases h

/-- An accepted source gave a determinate answer: its age at the boundary and the bound of its source. -/
structure Dated (v : Validated) (supplied : JsValue) (id : Str) (answer : StatusAnswer) (age bound : Int) :
    Prop where
  source : supplied.get (lit "source_id") = .str id
  accepted : v.boundOf id = some bound
  said : statusAnswer? (supplied.get (lit "answer")) = some answer
  determinate : answer ≠ .unavailable
  aged : ∃ ms, parseRfc3339 (supplied.get (lit "as_of")) = .ok ms ∧ age = (v.nowMs - ms) / 1000

/-- An answer of this age is used: it is within the bound, or past it and the policy still counts it. -/
def Counts (stale : StaleAnswerPolicy) (answer : StatusAnswer) (age bound : Int) : Prop :=
  0 ≤ age ∧ (age ≤ bound ∨ (answer = .revoked ∧ stale.stale_revoked_still_counts = true) ∨
    (answer = .active ∧ stale.stale_active_still_counts = true))

/-- The line an answer is given. -/
def Aged (v : Validated) (supplied : JsValue) (line : StatusSourceLine) : Prop :=
  (supplied.get (lit "source_id") = .str line.source_id ∧ line.source_id ≠ []) ∧
    statusAnswer? (supplied.get (lit "answer")) = some line.answer ∧
    ageAnswer v line.source_id line.answer (supplied.get (lit "as_of")) = .ok line

variable {answer : StatusAnswer}

theorem useOf_iff {stale : StaleAnswerPolicy} {within : Bool} : (useOf stale answer within).1 = true ↔ within = true ∨
      (answer = .revoked ∧ stale.stale_revoked_still_counts = true) ∨
      (answer = .active ∧ stale.stale_active_still_counts = true) := by
  unfold useOf
  cases within <;> cases answer <;> cases stale.stale_revoked_still_counts <;>
    cases stale.stale_active_still_counts <;> simp

variable {line : StatusSourceLine}

variable {id : Str}

theorem ageAnswer_cases {as_of : JsValue} (h : ageAnswer v id answer as_of = .ok line) :
    line.source_id = id ∧ line.answer = answer ∧
      ((line.used = false ∧ (v.boundOf id = none ∨ answer = .unavailable)) ∨
        ∃ bound ms, v.boundOf id = some bound ∧ answer ≠ .unavailable ∧ parseRfc3339 as_of = .ok ms ∧
          (line.used = true ↔ Counts v.stalePolicy answer ((v.nowMs - ms) / 1000) bound)) := by
  unfold ageAnswer at h
  split at h
  · rename_i hnone
    cases h
    exact ⟨rfl, rfl, .inl ⟨rfl, .inl hnone⟩⟩
  · rename_i bound hbound
    split at h
    · rename_i hunavailable
      split at h
      · cases h
        exact ⟨rfl, rfl, .inl ⟨rfl, .inr hunavailable⟩⟩
      · cases h
        exact ⟨rfl, rfl, .inl ⟨rfl, .inr hunavailable⟩⟩
      · cases h
    · rename_i hdet
      obtain ⟨ms, hms, h⟩ := bind_eq_ok.mp h
      rw [requireInstant_ok] at hms
      by_cases hneg : (v.nowMs - ms) / 1000 < 0
      · simp only [if_pos hneg] at h
        cases h
        refine ⟨rfl, rfl, .inr ⟨bound, ms, hbound, hdet, hms, ?_⟩⟩
        rw [Counts]
        simp only [Bool.false_eq_true, false_iff]
        omega
      · simp only [if_neg hneg] at h
        cases h
        refine ⟨rfl, rfl, .inr ⟨bound, ms, hbound, hdet, hms, ?_⟩⟩
        rw [useOf_iff, Counts, decide_eq_true_eq]
        constructor
        · intro hcount
          exact ⟨by omega, hcount⟩
        · intro hcount
          exact hcount.2

variable {supplied : JsValue}

theorem names_of_dated {age bound : Int} (h : Aged v supplied line) (hdated : Dated v supplied id answer age bound) :
    line.source_id = id ∧ line.answer = answer := by
  obtain ⟨⟨hsource, -⟩, hsaid, -⟩ := h
  rw [hdated.source, JsValue.str.injEq] at hsource
  rw [hdated.said, Option.some.injEq] at hsaid
  exact ⟨hsource.symm, hsaid.symm⟩

theorem used_iff {age bound : Int} (h : Aged v supplied line)
    (hdated : Dated v supplied line.source_id line.answer age bound) :
    line.used = true ↔ Counts v.stalePolicy line.answer age bound := by
  obtain ⟨-, -, hline⟩ := h
  obtain ⟨ms, hms, rfl⟩ := hdated.aged
  obtain ⟨-, -, ⟨-, hnone | hunavailable⟩ | ⟨bound', ms', hbound, -, hms', hused⟩⟩ := ageAnswer_cases hline
  · rw [hdated.accepted] at hnone
    cases hnone
  · exact absurd hunavailable hdated.determinate
  · rw [hdated.accepted] at hbound
    cases hbound
    rw [hms] at hms'
    cases hms'
    exact hused

theorem dated_of_used (h : Aged v supplied line) (hused : line.used = true) :
    ∃ age bound, Dated v supplied line.source_id line.answer age bound := by
  obtain ⟨⟨hsource, -⟩, hsaid, hline⟩ := h
  obtain ⟨-, -, ⟨hnot, -⟩ | ⟨bound, ms, hbound, hdet, hms, -⟩⟩ := ageAnswer_cases hline
  · rw [hused] at hnot
    cases hnot
  · exact ⟨_, bound, hsource, hbound, hsaid, hdet, ms, hms, rfl⟩

variable {answers : List JsValue}

theorem ageAnswers_ok : ∀ {seen : List Str} {lines : List StatusSourceLine},
    ageAnswers v seen answers = .ok lines ↔ List.Forall₂ (Aged v) answers lines ∧
      (lines.map (·.source_id)).Nodup ∧ ∀ line ∈ lines, line.source_id ∉ seen := by
  induction answers with
  | nil =>
    intro seen lines
    rw [ageAnswers, List.forall₂_nil_left_iff]
    constructor
    · intro h
      cases h
      exact ⟨rfl, List.nodup_nil, List.forall_mem_nil _⟩
    · intro h
      rw [h.1]
      rfl
  | cons supplied rest ih =>
    intro seen lines
    constructor
    · intro h
      rw [ageAnswers] at h
      obtain ⟨id, hid, h⟩ := bind_eq_ok.mp h
      rw [requireNonEmptyString_ok] at hid
      split at h
      · cases h
      · rename_i hnew
        split at h
        · cases h
        · rename_i answer hsaid
          obtain ⟨line, hline, h⟩ := bind_eq_ok.mp h
          obtain ⟨tail, htail, h⟩ := bind_eq_ok.mp h
          cases h
          obtain ⟨hforall, hnodup, hseen⟩ := ih.mp htail
          obtain ⟨rfl, rfl, -⟩ := ageAnswer_cases hline
          refine ⟨.cons ⟨hid, hsaid, hline⟩ hforall, ?_, ?_⟩
          · rw [List.map_cons, List.nodup_cons]
            refine ⟨?_, hnodup⟩
            intro hmem
            obtain ⟨other, hother, heq⟩ := List.mem_map.mp hmem
            exact hseen other hother (heq ▸ List.mem_cons_self)
          · refine List.forall_mem_cons.mpr ⟨hnew, ?_⟩
            intro other hother hmem
            exact hseen other hother (List.mem_cons_of_mem _ hmem)
    · intro h
      obtain ⟨hforall, hnodup, hseen⟩ := h
      cases hforall with
      | cons hfirst hrest =>
        rename_i line tail
        obtain ⟨hid, hsaid, hline⟩ := hfirst
        obtain ⟨hnew, htail⟩ := List.forall_mem_cons.mp hseen
        rw [List.map_cons, List.nodup_cons] at hnodup
        have hrec : ageAnswers v (line.source_id :: seen) rest = .ok tail := by
          refine ih.mpr ⟨hrest, hnodup.2, ?_⟩
          intro other hother hmem
          obtain heq | hmem := List.mem_cons.mp hmem
          · exact hnodup.1 (heq ▸ List.mem_map_of_mem hother)
          · exact htail other hother hmem
        rw [ageAnswers]
        refine bind_eq_ok.mpr ⟨line.source_id, requireNonEmptyString_ok.mpr hid, ?_⟩
        rw [if_neg hnew, hsaid]
        exact bind_eq_ok.mpr ⟨line, hline, bind_eq_ok.mpr ⟨tail, hrec, rfl⟩⟩

theorem exists_supplied (h : List.Forall₂ (Aged v) answers lines) (hmem : line ∈ lines) :
    ∃ supplied ∈ answers, Aged v supplied line := by
  induction h with
  | nil => cases hmem
  | cons hfirst _ ih =>
    obtain rfl | hmem := List.mem_cons.mp hmem
    · exact ⟨_, List.mem_cons_self, hfirst⟩
    · obtain ⟨supplied, hsupplied, haged⟩ := ih hmem
      exact ⟨supplied, List.mem_cons_of_mem _ hsupplied, haged⟩

theorem exists_line (h : List.Forall₂ (Aged v) answers lines) (hmem : supplied ∈ answers) :
    ∃ line ∈ lines, Aged v supplied line := by
  induction h with
  | nil => cases hmem
  | cons hfirst _ ih =>
    obtain rfl | hmem := List.mem_cons.mp hmem
    · exact ⟨_, List.mem_cons_self, hfirst⟩
    · obtain ⟨line, hline, haged⟩ := ih hmem
      exact ⟨line, List.mem_cons_of_mem _ hline, haged⟩

theorem ageAnswers_perm {answers answers' : List JsValue} (hperm : answers.Perm answers')
    (h : ageAnswers v [] answers = .ok lines) :
    ∃ lines', ageAnswers v [] answers' = .ok lines' ∧ lines'.Perm lines := by
  obtain ⟨hforall, hnodup, -⟩ := ageAnswers_ok.mp h
  obtain ⟨lines', hforall', hlines⟩ := List.perm_comp_forall₂ hperm.symm hforall
  refine ⟨lines', ageAnswers_ok.mpr ⟨hforall', ?_, ?_⟩, hlines⟩
  · exact (hlines.map _).nodup_iff.mpr hnodup
  · intro line _ hmem
    cases hmem

theorem lineOf_iff (h : (lines.map (·.source_id)).Nodup) :
    lineOf lines id = some line ↔ line ∈ lines ∧ line.source_id = id := by
  constructor
  · intro hfind
    refine ⟨List.mem_of_find?_eq_some hfind, ?_⟩
    simpa using List.find?_some hfind
  · intro hline
    obtain ⟨hmem, rfl⟩ := hline
    cases hfind : lineOf lines line.source_id with
    | none =>
      have hnone := List.find?_eq_none.mp hfind line hmem
      simp at hnone
    | some other =>
      have hother : other.source_id = line.source_id := by simpa using List.find?_some hfind
      rw [List.inj_on_of_nodup_map h (List.mem_of_find?_eq_some hfind) hmem hother]

theorem lineOf_perm (h : (lines.map (·.source_id)).Nodup) (hperm : lines'.Perm lines) :
    lineOf lines' = lineOf lines := by
  funext id
  have h' : (lines'.map (·.source_id)).Nodup := (hperm.map _).nodup_iff.mpr h
  apply Option.ext
  intro line
  rw [lineOf_iff h, lineOf_iff h', hperm.mem_iff]

theorem sortTexts_perm {texts texts' : List Str} (h : texts'.Perm texts) : sortTexts texts' = sortTexts texts := by
  have : IsTrans Str (fun a b => a ≤ b) := ⟨fun _ _ _ => List.le_trans⟩
  have : Std.Total (fun a b : Str => a ≤ b) := ⟨List.le_total⟩
  have hperm : (sortTexts texts').Perm (sortTexts texts) :=
    (List.perm_insertionSort _ _).trans (h.trans (List.perm_insertionSort _ _).symm)
  refine hperm.eq_of_pairwise ?_ (List.pairwise_insertionSort _ _) (List.pairwise_insertionSort _ _)
  intro a b _ _ hab hba
  exact List.le_antisymm hab hba

theorem usedDeterminate_perm (hperm : lines'.Perm lines) : (usedDeterminate lines').Perm (usedDeterminate lines) :=
  hperm.filter _

theorem usedStates_perm (hperm : lines'.Perm lines) : usedStates lines' = usedStates lines := by
  have hany : ∀ answer : StatusAnswer, (usedDeterminate lines').any (fun l => l.answer = answer) =
      (usedDeterminate lines).any (fun l => l.answer = answer) :=
    fun answer => (usedDeterminate_perm hperm).any_eq
  simp only [usedStates, hany]

theorem silentIds_perm (h : (lines.map (·.source_id)).Nodup) (hperm : lines'.Perm lines) :
    silentIds v lines' = silentIds v lines := by
  rw [silentIds, silentIds, lineOf_perm h hperm]

theorem coverage_perm (h : (lines.map (·.source_id)).Nodup) (hperm : lines'.Perm lines) :
    coverage v lines' = coverage v lines := by
  have hanswered : answeredRequired v lines' = answeredRequired v lines := by
    rw [answeredRequired, answeredRequired, lineOf_perm h hperm]
  have husable : usableRequired v lines' = usableRequired v lines := by
    rw [usableRequired, usableRequired, lineOf_perm h hperm]
  rw [coverage, coverage, hanswered, husable, silentIds_perm h hperm]

theorem missingLimbs_perm (h : (lines.map (·.source_id)).Nodup) (hperm : lines'.Perm lines) (conflicted : Bool) :
    missingLimbs v lines' conflicted = missingLimbs v lines conflicted := by
  have hempty : (usedDeterminate lines').isEmpty = (usedDeterminate lines).isEmpty :=
    (usedDeterminate_perm hperm).isEmpty_eq
  have hstale : lines'.any isStale = lines.any isStale := hperm.any_eq
  rw [missingLimbs, missingLimbs, hempty, hstale, coverage_perm h hperm]

/-- The same decision with the lines listed as they were supplied. -/
def relist (lines : List StatusSourceLine) (d : MultiSourceStatusDecision) : MultiSourceStatusDecision :=
  { d with basis := { d.basis with sources_consulted := lines } }

variable {code : StatusCoverageReasonCode} {outcome : BoundaryOutcome}

theorem decideAs_relist {lifecycle : Except LifecycleStateError LifecycleStateResult}
    {basis basis' : MultiSourceStatusBasis} (h : basis' = { basis with sources_consulted := lines' }) :
    decideAs outcome lifecycle code basis' = (decideAs outcome lifecycle code basis).map (relist lines') := by
  subst h
  cases lifecycle with
  | ok result => rfl
  | error e => rfl

theorem makeBasis_relist (h : (lines.map (·.source_id)).Nodup) (hperm : lines'.Perm lines)
    (conflict : Option StatusConflict) (snapshot : Option AdmittedSnapshot) :
    makeBasis v lines' conflict snapshot =
      { makeBasis v lines conflict snapshot with sources_consulted := lines' } := by
  simp only [makeBasis, silentIds_perm h hperm, coverage_perm h hperm]

theorem conclude_relist (h : (lines.map (·.source_id)).Nodup) (hperm : lines'.Perm lines) {verdict : LifecycleVerdict}
    {snapshot : Option AdmittedSnapshot} : conclude v lines' outcome verdict code snapshot =
      (conclude v lines outcome verdict code snapshot).map (relist lines') :=
  decideAs_relist (makeBasis_relist h hperm none snapshot)

theorem leaveOpen_relist (h : (lines.map (·.source_id)).Nodup) (hperm : lines'.Perm lines) :
    leaveOpen v lines' code = (leaveOpen v lines code).map (relist lines') := by
  rw [leaveOpen, missingLimbs_perm h hperm]
  exact decideAs_relist (makeBasis_relist h hperm none none)

theorem decideConflict_relist (h : (lines.map (·.source_id)).Nodup) (hperm : lines'.Perm lines) :
    decideConflict v lines' = (decideConflict v lines).map (relist lines') := by
  have hsources : sortTexts ((usedDeterminate lines').map (·.source_id)) =
      sortTexts ((usedDeterminate lines).map (·.source_id)) :=
    sortTexts_perm ((usedDeterminate_perm hperm).map _)
  simp only [decideConflict, missingLimbs_perm h hperm, usedStates_perm hperm, hsources]
  exact decideAs_relist (makeBasis_relist h hperm _ none)

theorem decideOffline_relist (h : (lines.map (·.source_id)).Nodup) (hperm : lines'.Perm lines) :
    decideOffline v lines' = (decideOffline v lines).map (relist lines') := by
  unfold decideOffline
  rw [lineOf_perm h hperm]
  split
  · split
    · exact conclude_relist h hperm
    · split
      · exact leaveOpen_relist h hperm
      · exact leaveOpen_relist h hperm
  · exact leaveOpen_relist h hperm

theorem decideOnline_relist (h : (lines.map (·.source_id)).Nodup) (hperm : lines'.Perm lines) :
    decideOnline v lines' = (decideOnline v lines).map (relist lines') := by
  have hempty : (usedDeterminate lines').isEmpty = (usedDeterminate lines).isEmpty :=
    (usedDeterminate_perm hperm).isEmpty_eq
  have hreason : onlineReason v lines' = onlineReason v lines := by
    rw [onlineReason, onlineReason, lineOf_perm h hperm, hempty, silentIds_perm h hperm]
  unfold decideOnline
  rw [coverage_perm h hperm, usedStates_perm hperm, hreason]
  split
  · exact conclude_relist h hperm
  · exact leaveOpen_relist h hperm

theorem decideLines_relist (h : (lines.map (·.source_id)).Nodup) (hperm : lines'.Perm lines) :
    decideLines v lines' = (decideLines v lines).map (relist lines') := by
  unfold decideLines
  rw [usedStates_perm hperm]
  split
  · exact decideConflict_relist h hperm
  · split
    · exact conclude_relist h hperm
    · split
      · exact decideOffline_relist h hperm
      · exact decideOnline_relist h hperm

theorem decideAs_ok {lifecycle : Except LifecycleStateError LifecycleStateResult} {basis : MultiSourceStatusBasis}
    (h : decideAs outcome lifecycle code basis = .ok d) : d.outcome = outcome ∧ d.basis = basis := by
  cases lifecycle with
  | error e => cases h
  | ok result =>
    cases h
    exact ⟨rfl, rfl⟩

theorem leaveOpen_ok (h : leaveOpen v lines code = .ok d) : d.outcome ≠ .authorized := by
  rw [(decideAs_ok h).1]
  decide

theorem decideConflict_ok (h : decideConflict v lines = .ok d) : d.outcome ≠ .authorized := by
  simp only [decideConflict] at h
  rw [(decideAs_ok h).1]
  split
  · decide
  · decide

theorem conclude_ok {verdict : LifecycleVerdict} {snapshot : Option AdmittedSnapshot}
    (h : conclude v lines outcome verdict code snapshot = .ok d) :
    d.outcome = outcome ∧ d.basis.sources_consulted = lines := by
  obtain ⟨houtcome, hbasis⟩ := decideAs_ok h
  rw [hbasis]
  exact ⟨houtcome, rfl⟩

theorem decideOffline_ok (h : decideOffline v lines = .ok d) (hauth : d.outcome = .authorized) :
    d.basis.sources_consulted = lines := by
  unfold decideOffline at h
  split at h
  · split at h
    · exact (conclude_ok h).2
    · split at h
      · exact absurd hauth (leaveOpen_ok h)
      · exact absurd hauth (leaveOpen_ok h)
  · exact absurd hauth (leaveOpen_ok h)

theorem decideOnline_ok (h : decideOnline v lines = .ok d) (hauth : d.outcome = .authorized) :
    d.basis.sources_consulted = lines ∧ (coverage v lines).complete = true ∧ usedStates lines = [.active] := by
  unfold decideOnline at h
  split at h
  · rename_i hall
    simp only [Bool.and_eq_true, decide_eq_true_eq] at hall
    exact ⟨(conclude_ok h).2, hall⟩
  · exact absurd hauth (leaveOpen_ok h)

theorem mem_usedStates (hmem : line ∈ lines) (hused : line.used = true) (hdet : line.answer ≠ .unavailable) :
    line.answer ∈ usedStates lines := by
  have hline : line ∈ usedDeterminate lines := List.mem_filter.mpr ⟨hmem, by simp [isDeterminateUse, hused, hdet]⟩
  have hkind : line.answer ∈ [StatusAnswer.active, .revoked] := by
    cases hanswer : line.answer with
    | active => decide
    | revoked => decide
    | unavailable => exact absurd hanswer hdet
  exact List.mem_filter.mpr ⟨hkind, List.any_eq_true.mpr ⟨line, hline, by simp⟩⟩

theorem revoked_notMem (hone : ¬ (usedStates lines).length > 1) (hrevoked : usedStates lines ≠ [.revoked]) :
    StatusAnswer.revoked ∉ usedStates lines := by
  intro hmem
  cases hstates : usedStates lines with
  | nil =>
    rw [hstates] at hmem
    cases hmem
  | cons first rest =>
    rw [hstates] at hmem hone hrevoked
    cases rest with
    | nil => exact hrevoked (by rw [List.mem_singleton.mp hmem])
    | cons second rest => exact hone (by simp)

theorem decideLines_authorized (h : decideLines v lines = .ok d) (hauth : d.outcome = .authorized) :
    d.basis.sources_consulted = lines ∧ StatusAnswer.revoked ∉ usedStates lines ∧
      (v.mode = .online → (coverage v lines).complete = true ∧ usedStates lines = [.active]) := by
  unfold decideLines at h
  split at h
  · exact absurd hauth (decideConflict_ok h)
  · rename_i hone
    split at h
    · rw [(conclude_ok h).1] at hauth
      cases hauth
    · rename_i hrevoked
      have hnone := revoked_notMem hone hrevoked
      split at h
      · rename_i hmode
        refine ⟨decideOffline_ok h hauth, hnone, ?_⟩
        intro honline
        rw [hmode] at honline
        cases honline
      · obtain ⟨hlines, hcomplete, hstates⟩ := decideOnline_ok h hauth
        exact ⟨hlines, hnone, fun _ => ⟨hcomplete, hstates⟩⟩

theorem answered_iff (h : (lines.map (·.source_id)).Nodup) :
    (lineOf lines id).isSome = true ↔ ∃ line ∈ lines, line.source_id = id := by
  rw [Option.isSome_iff_exists]
  constructor
  · intro hline
    obtain ⟨line, hline⟩ := hline
    exact ⟨line, (lineOf_iff h).mp hline⟩
  · intro hline
    obtain ⟨line, hline⟩ := hline
    exact ⟨line, (lineOf_iff h).mpr hline⟩

theorem complete_usable (hcomplete : (coverage v lines).complete = true) :
    (∀ id ∈ v.requiredIds, v.silence_is = .coverage_gap ∨ (lineOf lines id).isSome = true →
      (lineOf lines id).any isDeterminateUse = true) ∧
    ∃ id ∈ v.requiredIds, (lineOf lines id).any isDeterminateUse = true := by
  simp only [coverage, Bool.and_eq_true, decide_eq_true_eq] at hcomplete
  obtain ⟨hpos, hlength⟩ := hcomplete
  have hsome : ∃ id ∈ v.requiredIds, (lineOf lines id).any isDeterminateUse = true := by
    obtain ⟨id, hid⟩ := List.exists_mem_of_length_pos (hlength ▸ hpos)
    exact ⟨id, List.mem_filter.mp hid⟩
  refine ⟨?_, hsome⟩
  intro id hid hcounted
  by_cases hsilence : v.silence_is = .coverage_gap
  · rw [measuredOver, if_pos hsilence, if_pos rfl] at hlength
    exact List.length_filter_eq_length_iff.mp hlength id hid
  · obtain hgap | hanswered := hcounted
    · exact absurd hgap hsilence
    · rw [measuredOver, if_neg hsilence, if_neg (by decide)] at hlength
      -- the usable required sources are among those that answered, and as many
      have husable : usableRequired v lines =
          (answeredRequired v lines).filter (fun id => (lineOf lines id).any isDeterminateUse) := by
        rw [usableRequired, answeredRequired, List.filter_filter]
        apply List.filter_congr
        intro other _
        cases lineOf lines other with
        | none => rfl
        | some line => simp
      rw [husable] at hlength
      exact List.length_filter_eq_length_iff.mp hlength id (List.mem_filter.mpr ⟨hid, hanswered⟩)

/-- A source gave an answer that is `active` and used. -/
def GaveActive (v : Validated) (id : Str) : Prop :=
  ∃ supplied ∈ v.answers, ∃ age bound, Dated v supplied id .active age bound ∧
    Counts v.stalePolicy .active age bound

theorem gaveActive_of_line (haged : List.Forall₂ (Aged v) v.answers lines) (hnodup : (lines.map (·.source_id)).Nodup)
    (hstates : usedStates lines = [.active]) (h : (lineOf lines id).any isDeterminateUse = true) : GaveActive v id := by
  obtain ⟨line, hfind, huse⟩ := (Option.any_eq_true _ _).mp h
  obtain ⟨hmem, rfl⟩ := (lineOf_iff hnodup).mp hfind
  simp only [isDeterminateUse, Bool.and_eq_true, decide_eq_true_eq] at huse
  obtain ⟨hused, hdet⟩ := huse
  have hactive : line.answer = .active := by
    have hstate := mem_usedStates hmem hused hdet
    rw [hstates] at hstate
    exact List.mem_singleton.mp hstate
  obtain ⟨supplied, hsupplied, hline⟩ := exists_supplied haged hmem
  obtain ⟨age, bound, hdated⟩ := dated_of_used hline hused
  have hcounts := (used_iff hline hdated).mp hused
  rw [hactive] at hdated hcounts
  exact ⟨supplied, hsupplied, age, bound, hdated, hcounts⟩

theorem requireObject_ok {field : Str} : requireObject value field = .ok () ↔ value.isObject = true := by
  unfold requireObject
  split
  · rename_i hobject
    exact ⟨fun _ => hobject, fun _ => rfl⟩
  · rename_i hobject
    constructor
    · intro h
      cases h
    · intro h
      exact absurd h hobject

theorem decideMultiSourceStatus_ok : decideMultiSourceStatus value = .ok d ↔
    value.isObject = true ∧ ∃ v lines, validate (.read value) = .ok v ∧ ageAnswers v [] v.answers = .ok lines ∧
      decideLines v lines = .ok d := by
  rw [decideMultiSourceStatus, bind_unit_eq_ok, requireObject_ok]
  refine and_congr_right ?_
  intro _
  rw [bind_eq_ok]
  refine exists_congr ?_
  intro v
  rw [bind_eq_ok, ← exists_and_left]

theorem validate_answers {input : MultiSourceStatusInput} (h : validate input = .ok v)
    (hanswers : input.answers = .arr answers) (answers' : List JsValue) :
    v.answers = answers ∧ validate { input with answers := .arr answers' } = .ok { v with answers := answers' } := by
  unfold validate at h ⊢
  obtain ⟨authorityRef, hauthority, h⟩ := bind_eq_ok.mp h
  obtain ⟨nowMs, hnow, h⟩ := bind_eq_ok.mp h
  obtain ⟨hpolicy, h⟩ := bind_unit_eq_ok.mp h
  obtain ⟨mode, hmode, h⟩ := bind_eq_ok.mp h
  obtain ⟨required, hrequired, h⟩ := bind_eq_ok.mp h
  obtain ⟨silence, hsilence, h⟩ := bind_eq_ok.mp h
  obtain ⟨hsome, h⟩ := bind_unit_eq_ok.mp h
  obtain ⟨conflictPolicy, hconflict, h⟩ := bind_eq_ok.mp h
  obtain ⟨stalePolicy, hstale, h⟩ := bind_eq_ok.mp h
  obtain ⟨⟨bounds, requiredIds⟩, hsources, h⟩ := bind_eq_ok.mp h
  obtain ⟨snapshot, hsnapshot, h⟩ := bind_eq_ok.mp h
  rw [hanswers] at h
  cases h
  refine ⟨rfl, bind_eq_ok.mpr ⟨_, hauthority, bind_eq_ok.mpr ⟨_, hnow, bind_unit_eq_ok.mpr ⟨hpolicy, ?_⟩⟩⟩⟩
  refine bind_eq_ok.mpr ⟨_, hmode, bind_eq_ok.mpr ⟨_, hrequired, bind_eq_ok.mpr ⟨_, hsilence, ?_⟩⟩⟩
  refine bind_unit_eq_ok.mpr ⟨hsome, bind_eq_ok.mpr ⟨_, hconflict, bind_eq_ok.mpr ⟨_, hstale, ?_⟩⟩⟩
  exact bind_eq_ok.mpr ⟨_, hsources, bind_eq_ok.mpr ⟨_, hsnapshot, rfl⟩⟩

theorem isObject_of_validate (h : validate (.read value) = .ok v) : value.isObject = true := by
  obtain ⟨authorityRef, hauthority, -⟩ := bind_eq_ok.mp h
  have hread := (requireNonEmptyString_ok.mp hauthority).1
  cases value with
  | obj members => rfl
  | _ => cases hread

def Rearranged (value value' : JsValue) : Prop :=
  ∃ answers answers', (MultiSourceStatusInput.read value).answers = .arr answers ∧ answers.Perm answers' ∧
    MultiSourceStatusInput.read value' = { MultiSourceStatusInput.read value with answers := .arr answers' }

theorem decide_rearranged {value value' : JsValue} (h : decideMultiSourceStatus value = .ok d)
    (hvalue : Rearranged value value') :
    ∃ lines', decideMultiSourceStatus value' = .ok (relist lines' d) := by
  obtain ⟨-, v, lines, hv, hlines, hd⟩ := decideMultiSourceStatus_ok.mp h
  obtain ⟨answers, answers', hanswers, hperm, hread⟩ := hvalue
  obtain ⟨rfl, hv'⟩ := validate_answers hv hanswers answers'
  rw [← hread] at hv'
  obtain ⟨lines', hlines', hsame⟩ := ageAnswers_perm hperm hlines
  obtain ⟨-, hnodup, -⟩ := ageAnswers_ok.mp hlines
  -- ageing and deciding read every member of the validated input but its answers
  have hlines'' : ageAnswers { v with answers := answers' } [] answers' = .ok lines' := by
    obtain ⟨haged, hdistinct, hseen⟩ := ageAnswers_ok.mp hlines'
    exact ageAnswers_ok.mpr ⟨haged, hdistinct, hseen⟩
  have hd' : decideLines { v with answers := answers' } lines' = .ok (relist lines' d) := by
    show decideLines v lines' = .ok (relist lines' d)
    rw [decideLines_relist hnodup hsame, hd]
    rfl
  exact ⟨lines', decideMultiSourceStatus_ok.mpr ⟨isObject_of_validate hv', _, lines', hv', hlines'', hd'⟩⟩

/-- An authorization rests on no used revocation, online it rests on a used `active` answer of every required
source that counts for coverage, and no order of the answers changes what is decided. -/
theorem status_decision_sound {value : JsValue} (hv : validate (.read value) = .ok v)
    (hd : decideMultiSourceStatus value = .ok d) :
    (d.outcome = .authorized →
      (∀ line ∈ d.basis.sources_consulted, line.used = true → line.answer ≠ .revoked) ∧
      (∀ supplied ∈ v.answers, ∀ id age bound, Dated v supplied id .revoked age bound → 0 ≤ age →
        bound < age ∧ v.stalePolicy.stale_revoked_still_counts = false) ∧
      (v.mode = .online →
        (∀ id ∈ v.requiredIds, v.silence_is = .coverage_gap ∨
          (∃ supplied ∈ v.answers, supplied.get (lit "source_id") = .str id) → GaveActive v id) ∧
        ∃ id ∈ v.requiredIds, GaveActive v id)) ∧
    ∀ value', Rearranged value value' → ∃ d', decideMultiSourceStatus value' = .ok d' ∧
      d'.outcome = d.outcome ∧ d'.reason_code = d.reason_code ∧ d'.lifecycle = d.lifecycle ∧
      d'.basis.coverage = d.basis.coverage ∧ d'.basis.conflict = d.basis.conflict := by
  obtain ⟨-, v', lines, hv', hlines, hdecide⟩ := decideMultiSourceStatus_ok.mp hd
  rw [hv] at hv'
  cases hv'
  obtain ⟨haged, hnodup, -⟩ := ageAnswers_ok.mp hlines
  refine ⟨?_, ?_⟩
  · intro hauth
    obtain ⟨hlisted, hnone, honline⟩ := decideLines_authorized hdecide hauth
    have hrevoked : ∀ line ∈ lines, line.used = true → line.answer ≠ .revoked := by
      intro line hline hused hanswer
      have hstate := mem_usedStates hline hused (by rw [hanswer]; decide)
      rw [hanswer] at hstate
      exact hnone hstate
    refine ⟨?_, ?_, ?_⟩
    · rw [hlisted]
      exact hrevoked
    · intro supplied hsupplied id age bound hdated hage
      obtain ⟨line, hline, hagedLine⟩ := exists_line haged hsupplied
      obtain ⟨rfl, hanswer⟩ := names_of_dated hagedLine hdated
      rw [← hanswer] at hdated
      have hnot : ¬ Counts v.stalePolicy .revoked age bound := by
        intro hcounts
        rw [← hanswer] at hcounts
        exact hrevoked line hline ((used_iff hagedLine hdated).mpr hcounts) hanswer
      rw [Counts] at hnot
      cases hstale : v.stalePolicy.stale_revoked_still_counts with
      | true => exact absurd ⟨hage, .inr (.inl ⟨rfl, hstale⟩)⟩ hnot
      | false =>
        refine ⟨?_, rfl⟩
        by_contra hle
        exact hnot ⟨hage, .inl (by omega)⟩
    · intro hmode
      obtain ⟨hcomplete, hstates⟩ := honline hmode
      obtain ⟨hall, id, hid, husable⟩ := complete_usable hcomplete
      refine ⟨?_, id, hid, gaveActive_of_line haged hnodup hstates husable⟩
      intro id hid hcounted
      refine gaveActive_of_line haged hnodup hstates (hall id hid ?_)
      obtain hgap | ⟨supplied, hsupplied, hsource⟩ := hcounted
      · exact .inl hgap
      · obtain ⟨line, hline, ⟨hname, -⟩, -⟩ := exists_line haged hsupplied
        rw [hsource, JsValue.str.injEq] at hname
        exact .inr ((answered_iff hnodup).mpr ⟨line, hline, hname.symm⟩)
  · intro value' hvalue
    obtain ⟨lines', hd'⟩ := decide_rearranged hd hvalue
    exact ⟨_, hd', rfl, rfl, rfl, rfl, rfl⟩

def sampleSource (id : String) (bound : JsValue) : JsValue :=
  .obj [(lit "source_id", .str (lit id)), (lit "freshness_bound_s", bound)]

def sampleAnswer (id answer as_of : String) : JsValue :=
  .obj [(lit "source_id", .str (lit id)), (lit "answer", .str (lit answer)), (lit "as_of", .str (lit as_of))]

/-- Two required sources with a bound of one second, and what they and a source that is not accepted said. -/
def sampleInput (answers : List JsValue) : JsValue :=
  .obj [(lit "authority_ref", .str (lit "ref")), (lit "now", .str (lit "2026-01-01T00:00:10Z")),
    (lit "trustPolicy", .obj [(lit "mode", .str (lit "online")), (lit "sources", .obj [
      (lit "required", .arr [sampleSource "a" (.num (.finite .one)), sampleSource "b" (.num (.finite .one))]),
      (lit "silence_is", .str (lit "coverage_gap"))])]),
    (lit "answers", .arr answers), (lit "conflictPolicy", .str (lit "deny_with_conflict")),
    (lit "stalePolicy", .obj [(lit "stale_revoked_still_counts", .bool true),
      (lit "stale_active_still_counts", .bool false)])]

def sampleAnswers : List JsValue :=
  [sampleAnswer "c" "revoked" "2026-01-01T00:00:09Z", sampleAnswer "a" "active" "2026-01-01T00:00:09Z",
    sampleAnswer "b" "active" "2026-01-01T00:00:10Z"]

/-- Both required sources are active within their bound; a revocation by a source that is not accepted is not used. -/
theorem status_decision_sound_sample :
    ∃ v d, validate (.read (sampleInput sampleAnswers)) = .ok v ∧
      decideMultiSourceStatus (sampleInput sampleAnswers) = .ok d ∧ d.outcome = .authorized ∧
      GaveActive v (lit "a") ∧ GaveActive v (lit "b") ∧
      ∃ d', decideMultiSourceStatus (sampleInput sampleAnswers.reverse) = .ok d' ∧ d'.outcome = .authorized := by
  have hreturns : (validate (.read (sampleInput sampleAnswers))).isOk = true ∧
      (decideMultiSourceStatus (sampleInput sampleAnswers)).isOk = true ∧
      (decideMultiSourceStatus (sampleInput sampleAnswers)).toOption.map (·.outcome) = some .authorized ∧
      (validate (.read (sampleInput sampleAnswers))).toOption.map (fun v => (v.mode, v.silence_is, v.requiredIds)) =
        some (.online, .coverage_gap, [lit "a", lit "b"]) := by
    decide +kernel
  obtain ⟨hvalid, hdecided, houtcome, hfields⟩ := hreturns
  obtain ⟨v, hv⟩ := exists_of_isOk hvalid
  obtain ⟨d, hd⟩ := exists_of_isOk hdecided
  rw [hd] at houtcome
  rw [hv] at hfields
  simp only [Except.toOption, Option.map_some, Option.some.injEq, Prod.mk.injEq] at houtcome hfields
  obtain ⟨hmode, hsilence, hids⟩ := hfields
  have hrearranged : Rearranged (sampleInput sampleAnswers) (sampleInput sampleAnswers.reverse) :=
    ⟨sampleAnswers, sampleAnswers.reverse, rfl, (List.reverse_perm _).symm, rfl⟩
  obtain ⟨hauth, horder⟩ := status_decision_sound hv hd
  obtain ⟨-, -, honline⟩ := hauth houtcome
  obtain ⟨hall, -⟩ := honline hmode
  obtain ⟨d', hd', houtcome', -⟩ := horder _ hrearranged
  refine ⟨v, d, hv, hd, houtcome, hall _ ?_ (.inl hsilence), hall _ ?_ (.inl hsilence), d', hd', ?_⟩
  · rw [hids]
    exact List.mem_cons_self
  · rw [hids]
    exact List.mem_cons_of_mem _ List.mem_cons_self
  · rw [houtcome', houtcome]

end AgentPassport.StatusDecision
