import AgentPassport.PauseState
import AgentPassport.Rfc3339
import AgentPassport.UtcMilliseconds

/-! What the order of timestamps decides in a pause state. They are compared as texts, which is the
order of the instants where they are spelled alike. -/
namespace AgentPassport.PauseInstants
open JsText Js CivilDate FixedDigits Rfc3339 PauseCauses PauseState Outcome
open UtcMilliseconds (Shaped)

/-- How a timestamp is spelled: the letter before the time, the digits of a second's fraction and the zone. -/
structure Spelling where
  separator : UInt16
  fraction : Nat
  zone : Str

/-- The fields up to the zone; the last one is closed by a `Z` of its own. -/
def Spelling.format (p : Spelling) : List (Nat × UInt16) :=
  [(4, 0x2D), (2, 0x2D), (2, p.separator), (2, 0x3A), (2, 0x3A)] ++
    if p.fraction = 0 then [(2, 0x5A)] else [(2, 0x2E), (p.fraction, 0x5A)]

structure Fields where
  year : Nat
  month : Nat
  day : Nat
  hour : Nat
  minute : Nat
  second : Nat
  frac : Nat

def Fields.values (f : Fields) (fraction : Nat) : List Nat :=
  [f.year, f.month, f.day, f.hour, f.minute] ++ if fraction = 0 then [f.second] else [f.second, f.frac]

structure Fields.Valid (f : Fields) (fraction : Nat) : Prop where
  date : (⟨f.year, f.month, f.day⟩ : Civil).Valid
  time : f.hour ≤ 23 ∧ f.minute ≤ 59 ∧ f.second ≤ 59
  frac : f.frac < 10 ^ fraction

def Fields.seconds (f : Fields) : Int :=
  daysFromCivil f.year f.month f.day * 86400 + f.hour * 3600 + f.minute * 60 + f.second

/-- A text spelled so denotes an instant, counted from the epoch in units of its last digit. -/
def Denotes (p : Spelling) (s : Str) (x : Int) : Prop :=
  ∃ core, ∃ f : Fields, ∃ z offset, s = core ++ p.zone ∧ Shaped p.format (core ++ [0x5A]) (f.values p.fraction) ∧
    f.Valid p.fraction ∧ (p.separator = 0x54 ∨ p.separator = 0x74) ∧ matchZone p.zone = some z ∧
    offsetSeconds z = some offset ∧ x = (f.seconds - offset) * 10 ^ p.fraction + f.frac

theorem Shaped.length_eq {format : List (Nat × UInt16)} {s t : Str} {xs ys : List Nat} (hs : Shaped format s xs)
    (ht : Shaped format t ys) : s.length = t.length := by
  induction hs generalizing t ys with
  | nil =>
    cases ht
    rfl
  | cons hlen _ _ ih =>
    cases ht with
    | cons hlen' _ htail =>
      rw [List.length_append, List.length_append, List.length_cons, List.length_cons, ih htail, hlen, hlen']

variable {f g : Fields}

theorem seconds_lt {m n : Nat} (hf : f.Valid m) (hg : g.Valid n)
    (h : [f.year, f.month, f.day, f.hour, f.minute, f.second] < [g.year, g.month, g.day, g.hour, g.minute, g.second]) :
    f.seconds < g.seconds := by
  simp only [List.cons_lt_cons_iff, List.not_lt_nil, and_false, or_false] at h
  have htime := hf.time
  have htime' := hg.time
  unfold Fields.seconds
  by_cases hbefore : (⟨f.year, f.month, f.day⟩ : Civil).Before ⟨g.year, g.month, g.day⟩
  · have hdays := days_lt_of_before hf.date hg.date hbefore
    simp only at hdays
    omega
  · simp only [Civil.Before, Nat.cast_lt, Nat.cast_inj] at hbefore
    have hyear : f.year = g.year := by omega
    have hmonth : f.month = g.month := by omega
    have hday : f.day = g.day := by omega
    rw [hyear, hmonth, hday] at h ⊢
    simp only [lt_irrefl, false_or, true_and] at h
    omega

/-- The number of units of the last digit, without the zone. -/
def Fields.units (f : Fields) (fraction : Nat) : Int := f.seconds * 10 ^ fraction + f.frac

theorem units_lt {n : Nat} (hf : f.Valid n) (hg : g.Valid n) (h : f.values n < g.values n) : f.units n < g.units n := by
  have hpos : (0 : Int) < 10 ^ n := by positivity
  have hfrac : (f.frac : Int) < 10 ^ n := by exact_mod_cast hf.frac
  have hsplit : [f.year, f.month, f.day, f.hour, f.minute, f.second] <
      [g.year, g.month, g.day, g.hour, g.minute, g.second] ∨ f.seconds = g.seconds ∧ f.frac < g.frac := by
    unfold Fields.values at h
    by_cases hn : n = 0
    · rw [if_pos hn, if_pos hn] at h
      exact .inl h
    · rw [if_neg hn, if_neg hn] at h
      simp only [List.cons_append, List.nil_append, List.cons_lt_cons_iff, List.not_lt_nil, and_false, or_false] at h ⊢
      by_cases hsame : f.year = g.year ∧ f.month = g.month ∧ f.day = g.day ∧ f.hour = g.hour ∧ f.minute = g.minute ∧
          f.second = g.second
      · refine .inr ⟨?_, by omega⟩
        rw [Fields.seconds, Fields.seconds, hsame.1, hsame.2.1, hsame.2.2.1, hsame.2.2.2.1, hsame.2.2.2.2.1,
          hsame.2.2.2.2.2]
      · exact .inl (by omega)
  unfold Fields.units
  obtain hlt | ⟨heq, hlt⟩ := hsplit
  · have hseconds := seconds_lt hf hg hlt
    have hmul : (f.seconds + 1) * 10 ^ n ≤ g.seconds * 10 ^ n := Int.mul_le_mul_of_nonneg_right hseconds hpos.le
    rw [Int.add_mul, Int.one_mul] at hmul
    omega
  · rw [heq]
    omega

theorem units_eq {n : Nat} (hf : f.Valid n) (hg : g.Valid n) (h : f.values n = g.values n) : f.units n = g.units n := by
  have hfrac := hf.frac
  have hfrac' := hg.frac
  unfold Fields.values at h
  unfold Fields.units Fields.seconds
  by_cases hn : n = 0
  · rw [hn, Nat.pow_zero, Nat.lt_one_iff] at hfrac hfrac'
    rw [if_pos hn, if_pos hn] at h
    simp only [List.cons_append, List.nil_append, List.cons.injEq, and_true] at h
    obtain ⟨hyear, hmonth, hday, hhour, hminute, hsecond⟩ := h
    rw [hyear, hmonth, hday, hhour, hminute, hsecond, hfrac, hfrac']
  · rw [if_neg hn, if_neg hn] at h
    simp only [List.cons_append, List.nil_append, List.cons.injEq, and_true] at h
    obtain ⟨hyear, hmonth, hday, hhour, hminute, hsecond, hfrac⟩ := h
    rw [hyear, hmonth, hday, hhour, hminute, hsecond, hfrac]

theorem units_lt_iff {n : Nat} (hf : f.Valid n) (hg : g.Valid n) : f.values n < g.values n ↔ f.units n < g.units n := by
  refine ⟨units_lt hf hg, ?_⟩
  intro h
  obtain hlt | heq | hgt := lt_trichotomy (f.values n) (g.values n)
  · exact hlt
  · have := units_eq hf hg heq
    omega
  · have := units_lt hg hf hgt
    omega

theorem denotes_lt_iff {p : Spelling} {s t : Str} {x y : Int} (hs : Denotes p s x) (ht : Denotes p t y) :
    s < t ↔ x < y := by
  obtain ⟨core, f, z, offset, rfl, hshaped, hvalid, -, hzone, hoffset, rfl⟩ := hs
  obtain ⟨core', g, z', offset', rfl, hshaped', hvalid', -, hzone', hoffset', rfl⟩ := ht
  rw [hzone] at hzone'
  cases hzone'
  rw [hoffset] at hoffset'
  cases hoffset'
  have hlen : core.length = core'.length := by
    have h := Shaped.length_eq hshaped hshaped'
    rw [List.length_append, List.length_append] at h
    omega
  have htexts : core ++ p.zone < core' ++ p.zone ↔ core ++ [0x5A] < core' ++ [0x5A] := by
    rw [append_lt_append_iff hlen, append_lt_append_iff hlen]
    simp only [List.lt_irrefl, and_false]
  rw [htexts, hshaped.lt_iff hshaped', units_lt_iff hvalid hvalid', Fields.units, Fields.units, sub_mul, sub_mul]
  omega

variable {R : Resolvers} {q : PauseQuery} {s : PauseSets}

theorem disposeCause_later_iff {cause : SuspensionCause} :
    disposeCause R q cause = .CAUSE_NOT_YET_IN_EVIDENCE ↔ cause.delegation_id = q.delegationId ∧
      cause.record_type = SUSPENSION_CAUSE_TYPE ∧ q.atInstant < cause.issued_at := by
  unfold disposeCause
  by_cases hdelegation : cause.delegation_id = q.delegationId
  · rw [if_neg (not_not_intro hdelegation)]
    by_cases htype : cause.record_type = SUSPENSION_CAUSE_TYPE
    · rw [if_neg (not_not_intro htype)]
      by_cases hlater : q.atInstant < cause.issued_at
      · rw [if_pos hlater]
        exact iff_of_true rfl ⟨hdelegation, htype, hlater⟩
      · rw [if_neg hlater]
        refine iff_of_false ?_ fun h => hlater h.2.2
        split
        · decide
        · split
          · decide
          · decide
    · rw [if_pos htype]
      exact iff_of_false (by decide) fun h => htype h.2.1
  · rw [if_pos hdelegation]
    exact iff_of_false (by decide) fun h => hdelegation h.1

theorem finalCause_later_iff {releasedBy : OrderedMap Str Str} {cause : SuspensionCause} :
    (finalCause R q releasedBy cause).disposition = .CAUSE_NOT_YET_IN_EVIDENCE ↔
      disposeCause R q cause = .CAUSE_NOT_YET_IN_EVIDENCE := by
  unfold finalCause
  split
  · rename_i hevidence _
    rw [hevidence]
    refine iff_of_false ?_ ?_
    · intro h
      cases h
    · intro h
      cases h
  · rfl

theorem disposeNamed_precedes_iff {m : OrderedMap Str SuspensionCause} {release : SuspensionRelease} {id : Str}
    {code : SuspensionReasonCode} (h : disposeNamed R m release id = .ok code) :
    code = .RELEASE_PRECEDES_IMPOSITION ↔ ∃ cause, m.get id = some cause ∧ release.issued_at < cause.issued_at := by
  unfold disposeNamed at h
  split at h
  · rename_i hnone
    cases h
    rw [hnone]
    exact iff_of_false (by decide) fun h => by obtain ⟨cause, hcause, -⟩ := h; cases hcause
  · rename_i cause hcause
    split at h
    · rename_i hearlier
      cases h
      exact iff_of_true rfl ⟨cause, hcause, hearlier⟩
    · rename_i hnot
      obtain ⟨standing, -, h⟩ := bind_eq_ok.mp h
      cases h
      refine iff_of_false ?_ ?_
      · cases standing with
        | has_standing => decide
        | no_standing => decide
        | unknown => decide
      · intro h
        obtain ⟨other, hother, hearlier⟩ := h
        rw [hcause] at hother
        cases hother
        exact hnot hearlier

theorem explain_releases {e : PauseStateExplanation} (hs : pauseSets R q = .ok s) (he : explain R q s = .ok e) :
    List.Forall₂ (fun release d => disposeRelease R q (inEvidence R q) release = .ok d) q.releases e.releases := by
  obtain ⟨ds, hds, hs⟩ := bind_eq_ok.mp hs
  cases hs
  unfold explain at he
  split at he
  · cases he
  · cases he
    exact disposeReleases_ok.mp hds

theorem disposeRelease_precedes {release : SuspensionRelease} {d : ReleaseDisposition} (hq : Distinct q)
    (h : disposeRelease R q (inEvidence R q) release = .ok d) : d.release_id = release.release_id ∧
      ∀ entry ∈ d.causes, (entry.disposition = .RELEASE_PRECEDES_IMPOSITION ↔
        ∃ cause ∈ q.causes, InEvidence R q cause ∧ cause.cause_id = entry.cause_id ∧
          release.issued_at < cause.issued_at) := by
  unfold disposeRelease at h
  split at h
  · obtain ⟨entries, hentries, h⟩ := bind_eq_ok.mp h
    cases h
    refine ⟨rfl, ?_⟩
    intro entry hentry
    obtain ⟨-, hnamed⟩ := (disposeEach_ok hentries).mp hentry
    rw [disposeNamed_precedes_iff hnamed]
    refine exists_congr fun cause => ?_
    rw [inEvidence_get hq, and_assoc, and_assoc]
  · cases h
    exact ⟨rfl, fun entry hentry => absurd hentry List.not_mem_nil⟩

/-- A cause is left out as not yet in evidence exactly where it is this delegation's, of the known type and later as
a text; a release is turned away from a cause exactly where it is earlier as a text. Between timestamps of one
spelling this is the order of the instants. -/
theorem pause_order {input : PauseStateInput} {e : PauseStateExplanation} (he : explainPauseState R input = .ok e) :
    ∃ q, readInput input = .ok q ∧
      List.Forall₂ (fun cause entry => entry.cause_id = cause.cause_id ∧
        (entry.disposition = .CAUSE_NOT_YET_IN_EVIDENCE ↔ cause.delegation_id = q.delegationId ∧
          cause.record_type = SUSPENSION_CAUSE_TYPE ∧ q.atInstant < cause.issued_at)) q.causes e.causes ∧
      List.Forall₂ (fun release d => d.release_id = release.release_id ∧
        ∀ entry ∈ d.causes, (entry.disposition = .RELEASE_PRECEDES_IMPOSITION ↔
          ∃ cause ∈ q.causes, InEvidence R q cause ∧ cause.cause_id = entry.cause_id ∧
            release.issued_at < cause.issued_at)) q.releases e.releases ∧
      (∀ cause ∈ q.causes, ∀ p x y, Denotes p q.atInstant x → Denotes p cause.issued_at y →
        (q.atInstant < cause.issued_at ↔ x < y)) ∧
      ∀ release ∈ q.releases, ∀ cause ∈ q.causes, ∀ p x y, Denotes p release.issued_at x → Denotes p cause.issued_at y →
        (release.issued_at < cause.issued_at ↔ x < y) := by
  obtain ⟨q, s, hq, hs, hexplain⟩ := explainPauseState_ok.mp he
  obtain ⟨-, -, hcauses⟩ := explain_ok hexplain
  refine ⟨q, hq, ?_, ?_, ?_, ?_⟩
  · rw [hcauses, List.forall₂_map_right_iff, List.forall₂_same]
    intro cause _
    refine ⟨?_, finalCause_later_iff.trans disposeCause_later_iff⟩
    unfold finalCause
    split
    · rfl
    · rfl
  · refine (explain_releases hs hexplain).imp ?_
    intro release d hd
    exact disposeRelease_precedes (readInput_ok hq) hd
  · intro cause _ p x y hx hy
    exact denotes_lt_iff hx hy
  · intro release _ cause _ p x y hx hy
    exact denotes_lt_iff hx hy

/-- A suspension that is imposed at one instant, evaluated at another. -/
def sampleInput (issued_at atInstant : String) : PauseStateInput :=
  ⟨.str (lit "d"), .arr [sampleCause "c" issued_at "AUDIT" "suspension" (lit "s")], .arr [], .str (lit atInstant)⟩

def laterSuspension : PauseStateInput := sampleInput "2026-01-01T00:00:01.000Z" "2026-01-01T00:00:00.000Z"

/-- A suspension imposed a second later is not yet in evidence. -/
theorem pause_order_later : ∃ q e, readInput laterSuspension = .ok q ∧
    explainPauseState sampleResolvers laterSuspension = .ok e ∧
    e.causes.map (·.disposition) = [.CAUSE_NOT_YET_IN_EVIDENCE] ∧
    ∀ cause ∈ q.causes, q.atInstant < cause.issued_at := by
  have hmap : (explainPauseState sampleResolvers laterSuspension).toOption.map
      (fun e => e.causes.map (·.disposition)) = some [.CAUSE_NOT_YET_IN_EVIDENCE] := by
    decide
  obtain ⟨e, he, hdispositions⟩ := exists_ok_of_map hmap
  obtain ⟨q, hq, hcauses, -⟩ := pause_order he
  refine ⟨q, e, hq, he, hdispositions, ?_⟩
  have hlater : List.Forall₂ (fun cause code => code = .CAUSE_NOT_YET_IN_EVIDENCE → q.atInstant < cause.issued_at)
      q.causes (e.causes.map (·.disposition)) :=
    List.forall₂_map_right_iff.mpr (hcauses.imp fun cause entry h hcode => (h.2.mp hcode).2.2)
  rw [hdispositions] at hlater
  obtain ⟨cause, rest, hfirst, hrest, hlist⟩ := List.forall₂_cons_right_iff.mp hlater
  rw [hlist, List.forall₂_nil_right_iff.mp hrest, List.forall_mem_singleton]
  exact hfirst rfl

/-- Half a second after it was imposed a suspension is not yet in evidence: the point is before the `Z`. -/
theorem live_suspension_ignored :
    parseRfc3339 (.str (lit "2026-01-01T00:00:00Z")) = .ok 1767225600000 ∧
    parseRfc3339 (.str (lit "2026-01-01T00:00:00.5Z")) = .ok 1767225600500 ∧
    (explainPauseState sampleResolvers (sampleInput "2026-01-01T00:00:00Z" "2026-01-01T00:00:00.5Z")).toOption.map
      (fun e => (e.state.verdict, e.causes.map (·.disposition))) =
        some (.valid, [.CAUSE_NOT_YET_IN_EVIDENCE]) := by
  refine ⟨?_, ?_, ?_⟩
  · rw [lit_ofList]
    decide
  · rw [lit_ofList]
    decide
  · decide

end AgentPassport.PauseInstants
