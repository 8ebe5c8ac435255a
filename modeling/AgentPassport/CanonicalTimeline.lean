import AgentPassport.CivilDate
import AgentPassport.DelegationVerify
import AgentPassport.UtcMilliseconds
import Mathlib.Data.Prod.Lex

/-! Canonical timestamps as points of a UTC timeline with leap seconds, and the comparisons that
read their code units instead (`v2/authority-delegation/schema.ts`, `compare.ts`, `verify.ts`). -/
namespace AgentPassport.CanonicalTimeline
open JsText Js FixedDigits CivilDate DelegationSchema DelegationCompare DelegationVerify UtcMilliseconds

def compareCanonicalTimestamps (a b : Str) : Int := if a < b then -1 else if b < a then 1 else 0

/-- The fields of `YYYY-MM-DDTHH:MM:SS.sssZ`. -/
structure Fields where
  year : Nat
  month : Nat
  day : Nat
  hour : Nat
  minute : Nat
  second : Nat
  milli : Nat

def fields (s : Str) : Fields where
  year := digitsValue ((s.drop 0).take 4)
  month := digitsValue ((s.drop 5).take 2)
  day := digitsValue ((s.drop 8).take 2)
  hour := digitsValue ((s.drop 11).take 2)
  minute := digitsValue ((s.drop 14).take 2)
  second := digitsValue ((s.drop 17).take 2)
  milli := digitsValue ((s.drop 20).take 3)

def Fields.date (f : Fields) : Civil := ⟨f.year, f.month, f.day⟩

/-- The milliseconds since midnight. Those of second 60 begin where the day's others end. -/
def Fields.milliOfDay (f : Fields) : Int := ((f.hour * 60 + f.minute) * 60 + f.second) * 1000 + f.milli

def dayNumber (c : Civil) : Int := daysFromCivil c.year c.month c.day

/-- The day, counted from 1970-01-01, and then the milliseconds in it: a leap second comes after
all of its day and before all of the next. -/
def point (s : Str) : Int ×ₗ Int := toLex (dayNumber (fields s).date, (fields s).milliOfDay)

/-- The ranges of the pattern, the days of the month, and where second 60 is allowed. -/
structure Fields.Canonical (f : Fields) : Prop where
  month : 1 ≤ f.month ∧ f.month ≤ 12
  day : 1 ≤ f.day ∧ f.day ≤ DelegationSchema.daysInMonth f.year f.month
  hour : f.hour ≤ 23
  minute : f.minute ≤ 59
  second : f.second ≤ 60
  leap : f.second = 60 → f.hour = 23 ∧ f.minute = 59 ∧ f.day = DelegationSchema.daysInMonth f.year f.month
  milli : f.milli ≤ 999

variable {s : Str}

theorem canonical_fields (h : canonicalTimestamp s = true) : Shaped FORMAT s (instant s) ∧ (fields s).Canonical := by
  obtain ⟨hshaped, hmilli, hfields⟩ := shaped_where h
  obtain ⟨hmin, hmax, hfirst, -, hhours, hminutes, hseconds, hlast, hleap⟩ := of_decide_eq_true hfields
  exact ⟨hshaped, ⟨hmin, hmax⟩, ⟨hfirst, hlast⟩, hhours, hminutes, hseconds, hleap, hmilli⟩

theorem daysInMonth_eq {year month : Nat} (h : 1 ≤ month ∧ month ≤ 12) :
    (DelegationSchema.daysInMonth year month : Int) = CivilDate.daysInMonth year month := by
  have hleap : isLeapYear year = leap year := by
    rw [isLeapYear, leap, Bool.eq_iff_iff]
    simp only [Bool.or_eq_true, Bool.and_eq_true, decide_eq_true_eq]
    omega
  obtain ⟨hlow, hhigh⟩ := h
  rw [DelegationSchema.daysInMonth, hleap]
  interval_cases month <;> cases hyear : leap year <;> simp [CivilDate.daysInMonth, hyear]

theorem Fields.Canonical.valid {f : Fields} (h : f.Canonical) : f.date.Valid := by
  have hdays := @daysInMonth_eq f.year f.month h.month
  have hmonth := h.month
  have hday := h.day
  refine ⟨?_, ?_, ?_, ?_⟩
  · exact Int.ofNat_le.mpr hmonth.1
  · exact Int.ofNat_le.mpr hmonth.2
  · exact Int.ofNat_le.mpr hday.1
  · exact hdays ▸ Int.ofNat_le.mpr hday.2

theorem before_trichotomy (c d : Civil) : c.Before d ∨ c = d ∨ d.Before c := by
  obtain ⟨y, m, k⟩ := c
  obtain ⟨y', m', k'⟩ := d
  simp only [Civil.Before, Civil.mk.injEq]
  omega

theorem dayNumber_lt_iff {c d : Civil} (hc : c.Valid) (hd : d.Valid) : dayNumber c < dayNumber d ↔ c.Before d := by
  constructor
  · intro hlt
    obtain hbefore | rfl | hafter := before_trichotomy c d
    · exact hbefore
    · exact absurd hlt (lt_irrefl _)
    · exact absurd hlt (lt_asymm (days_lt_of_before hd hc hafter))
  · exact days_lt_of_before hc hd

theorem dayNumber_inj {c d : Civil} (hc : c.Valid) (hd : d.Valid) : dayNumber c = dayNumber d ↔ c = d := by
  constructor
  · intro h
    rw [← civilFromDays_daysFromCivil hc, ← civilFromDays_daysFromCivil hd]
    exact congrArg civilFromDays h
  · rintro rfl
    rfl

theorem milliOfDay_lt_iff {f g : Fields} (hf : f.Canonical) (hg : g.Canonical) : f.milliOfDay < g.milliOfDay ↔
    f.hour < g.hour ∨ f.hour = g.hour ∧ (f.minute < g.minute ∨ f.minute = g.minute ∧
      (f.second < g.second ∨ f.second = g.second ∧ f.milli < g.milli)) := by
  obtain ⟨-, -, hhour, hminute, hsecond, hleap, hmilli⟩ := hf
  obtain ⟨-, -, hhour', hminute', hsecond', hleap', hmilli'⟩ := hg
  unfold Fields.milliOfDay
  omega

theorem instant_lt_iff (a b : Str) : instant a < instant b ↔ (fields a).date.Before (fields b).date ∨
    (fields a).date = (fields b).date ∧ ((fields a).hour < (fields b).hour ∨ (fields a).hour = (fields b).hour ∧
      ((fields a).minute < (fields b).minute ∨ (fields a).minute = (fields b).minute ∧
        ((fields a).second < (fields b).second ∨ (fields a).second = (fields b).second ∧
          (fields a).milli < (fields b).milli))) := by
  have hinstant (s : Str) : instant s = [(fields s).year, (fields s).month, (fields s).day, (fields s).hour,
      (fields s).minute, (fields s).second, (fields s).milli] := rfl
  rw [hinstant, hinstant]
  simp only [List.cons_lt_cons_iff, List.lt_irrefl, and_false, or_false, Civil.Before, Fields.date, Civil.mk.injEq]
  omega

theorem lt_iff_point {a b : Str} (ha : canonicalTimestamp a = true) (hb : canonicalTimestamp b = true) :
    a < b ↔ point a < point b := by
  obtain ⟨hshaped, hcanonical⟩ := canonical_fields ha
  obtain ⟨hshaped', hcanonical'⟩ := canonical_fields hb
  rw [hshaped.lt_iff hshaped', instant_lt_iff, point, point, Prod.Lex.toLex_lt_toLex,
    dayNumber_lt_iff hcanonical.valid hcanonical'.valid, dayNumber_inj hcanonical.valid hcanonical'.valid,
    milliOfDay_lt_iff hcanonical hcanonical']

theorem le_iff_point {a b : Str} (ha : canonicalTimestamp a = true) (hb : canonicalTimestamp b = true) :
    a ≤ b ↔ point a ≤ point b := by
  rw [← List.not_lt, lt_iff_point hb ha, not_lt]

theorem compare_point {a b : Str} (ha : canonicalTimestamp a = true) (hb : canonicalTimestamp b = true) :
    compareCanonicalTimestamps a b = if point a < point b then -1 else if point b < point a then 1 else 0 := by
  simp only [compareCanonicalTimestamps, lt_iff_point ha hb, lt_iff_point hb ha]

theorem day_after_last {c : Civil} (hc : c.Valid) (hlast : c.day = CivilDate.daysInMonth c.year c.month) :
    (civilFromDays (dayNumber c + 1)).day = 1 := by
  obtain ⟨hvalid, hdays⟩ := civil_of_days (dayNumber c + 1)
  obtain ⟨next, hnext⟩ : ∃ next, next = civilFromDays (dayNumber c + 1) := ⟨_, rfl⟩
  rw [← hnext] at hvalid hdays ⊢
  have hafter : c.Before next := (dayNumber_lt_iff hc hvalid).mp (by unfold dayNumber at *; omega)
  by_contra hne
  -- the day before a day that is not a first lies in the same month, and still after `c`
  obtain ⟨hlow, hhigh, hfirst, hmax⟩ := hvalid
  have hprevious : Civil.Valid ⟨next.year, next.month, next.day - 1⟩ :=
    ⟨hlow, hhigh, by simp only; omega, by simp only; omega⟩
  have hbetween : c.Before ⟨next.year, next.month, next.day - 1⟩ := by
    obtain hyear | ⟨hyear, hmonth | ⟨hmonth, hday⟩⟩ := hafter
    · exact .inl hyear
    · exact .inr ⟨hyear, .inl hmonth⟩
    · rw [hlast, hyear, hmonth] at hday
      exact absurd hmax (not_le.mpr hday)
  have hlt := days_lt_of_before hc hprevious hbetween
  have hlt' := days_lt_of_before hprevious ⟨hlow, hhigh, hfirst, hmax⟩ (.inr ⟨rfl, .inr ⟨rfl, by simp only; omega⟩⟩)
  unfold dayNumber at hdays
  omega

theorem leap_between (h : canonicalTimestamp s = true) (hsecond : (fields s).second = 60) :
    (fields s).hour = 23 ∧ (fields s).minute = 59 ∧ (civilFromDays (dayNumber (fields s).date + 1)).day = 1 ∧
      toLex (dayNumber (fields s).date, 86399999) < point s ∧ point s < toLex (dayNumber (fields s).date + 1, 0) := by
  obtain ⟨-, hcanonical⟩ := canonical_fields h
  obtain ⟨hhour, hminute, hday⟩ := hcanonical.leap hsecond
  have hlast : (fields s).date.day = CivilDate.daysInMonth (fields s).date.year (fields s).date.month :=
    (congrArg Int.ofNat hday).trans (daysInMonth_eq hcanonical.month)
  have hmilli : (86399999 : Int) < (fields s).milliOfDay := by
    rw [Fields.milliOfDay, hhour, hminute, hsecond]
    omega
  refine ⟨hhour, hminute, day_after_last hcanonical.valid hlast, ?_, ?_⟩
  · exact Prod.Lex.toLex_lt_toLex.mpr (.inr ⟨rfl, hmilli⟩)
  · exact Prod.Lex.toLex_lt_toLex.mpr (.inl (lt_add_one _))

theorem within_day (h : canonicalTimestamp s = true) (hsecond : (fields s).second ≠ 60) :
    0 ≤ (fields s).milliOfDay ∧ (fields s).milliOfDay ≤ 86399999 := by
  obtain ⟨-, hcanonical⟩ := canonical_fields h
  obtain ⟨-, -, hhour, hminute, hseconds, -, hmilli⟩ := hcanonical
  unfold Fields.milliOfDay
  omega

structure CanonicalTime (t : TimeFacet) : Prop where
  notBefore : canonicalTimestamp t.notBefore = true
  notAfter : canonicalTimestamp t.notAfter = true

theorem readTime_eq_some {v : JsValue} {t : TimeFacet} : readTime v = some t ↔ ∃ members, record v = some members ∧
    str? (field members "not_before") = some t.notBefore ∧ str? (field members "not_after") = some t.notAfter := by
  simp only [readTime, Option.bind_eq_bind, Option.bind_eq_some_iff, Option.pure_def, Option.some.injEq]
  constructor
  · rintro ⟨members, hmembers, notBefore, hbefore, notAfter, hafter, rfl⟩
    exact ⟨members, hmembers, hbefore, hafter⟩
  · rintro ⟨members, hmembers, hbefore, hafter⟩
    exact ⟨members, hmembers, t.notBefore, hbefore, t.notAfter, hafter, rfl⟩

theorem timeFailures_nil_iff {v p i : JsValue} : timeFailures v p i = [] ↔
    ∃ members t, record v = some members ∧ exactKeys members ["not_before", "not_after"] = true ∧
      readTime v = some t ∧ CanonicalTime t ∧ t.notBefore < t.notAfter ∧ (p ≠ .null → ∀ issued,
        str? i = some issued → canonicalTimestamp issued = true → issued ≤ t.notBefore) := by
  constructor
  · intro h
    unfold timeFailures at h
    split at h
    · cases h
    rename_i members hmembers
    split at h
    · rename_i notBefore notAfter hbefore hafter
      split at h
      · cases h
      rename_i hexact
      simp only [Bool.not_eq_true', Bool.not_eq_false, Bool.and_eq_true] at hexact
      split at h
      · cases h
      rename_i hwindow
      refine ⟨members, ⟨notBefore, notAfter⟩, hmembers, hexact.1.1,
        readTime_eq_some.mpr ⟨members, hmembers, hbefore, hafter⟩, ⟨hexact.1.2, hexact.2⟩, List.not_le.mp hwindow, ?_⟩
      intro hparent issued hissued hcanonical
      split at h
      · exact absurd rfl hparent
      · rename_i text _ htext
        cases hissued.symm.trans htext
        have hnot := require_eq_nil.mp h
        rw [hcanonical, Bool.true_and, Bool.not_eq_true', decide_eq_false_iff_not] at hnot
        exact List.not_lt.mp hnot
      · rename_i hnone
        cases hissued.symm.trans hnone
    · cases h
  · rintro ⟨members, t, hmembers, hkeys, hread, hcanonical, hwindow, hissued⟩
    obtain ⟨members', hmembers', hbefore, hafter⟩ := readTime_eq_some.mp hread
    cases hmembers.symm.trans hmembers'
    simp only [timeFailures, hmembers, hbefore, hafter, hkeys, hcanonical.notBefore, hcanonical.notAfter, Bool.and_self,
      Bool.not_true, Bool.false_eq_true, if_false, List.not_le.mpr hwindow]
    split
    · rfl
    · rename_i text hparent htext
      rw [require_eq_nil, Bool.not_eq_true', Bool.and_eq_false_iff, decide_eq_false_iff_not, List.not_lt]
      cases htest : canonicalTimestamp text with
      | false => exact .inl rfl
      | true => exact .inr (hissued hparent text htext htest)
    · rfl

theorem authority_time {v p i : JsValue} {a : AuthorityVector} (h : authorityFailures v p i = [])
    (hread : readAuthority v = some a) : ∃ time, timeFailures time p i = [] ∧ readTime time = some a.time := by
  unfold authorityFailures at h
  split at h
  · cases h
  rename_i members hmembers
  split at h
  · cases h
  · simp only [List.append_eq_nil_iff] at h
    obtain ⟨⟨⟨⟨⟨⟨-, -⟩, -⟩, htime⟩, -⟩, -⟩, -⟩ := h
    simp only [readAuthority, hmembers, Option.bind_eq_bind, Option.bind_some, Option.bind_eq_some_iff,
      Option.pure_def, Option.some.injEq] at hread
    obtain ⟨scope, -, spend, -, remaining, -, time, hread, reputation, -, values, -, reversibility, -, rfl⟩ := hread
    exact ⟨_, htime, hread⟩

theorem shaped_canonical (r : ShapedRecord) :
    canonicalTimestamp r.delegation.issuedAt = true ∧ CanonicalTime r.delegation.authority.time := by
  obtain ⟨top, htop, -, -, -, hbody⟩ := shape_inv r.shape
  simp only [bodyFailures, List.append_eq_nil_iff, require_eq_nil] at hbody
  obtain ⟨⟨⟨⟨⟨⟨⟨⟨⟨-, -⟩, -⟩, -⟩, -⟩, -⟩, hissued⟩, -⟩, -⟩, hauthority⟩ := hbody
  obtain ⟨issued, hstr, hcanonical⟩ := @stringWhere_read canonicalTimestamp _ hissued
  have hread := r.read_eq
  simp only [readDelegation, htop, hstr, Option.bind_eq_bind, Option.bind_some, Option.bind_eq_some_iff,
    Option.pure_def, Option.some.injEq] at hread
  obtain ⟨id, -, parent, -, issuer, -, subject, -, method, -, authority, hvector, signature, -, heq⟩ := hread
  obtain ⟨value, htime, htimeRead⟩ := authority_time hauthority hvector
  obtain ⟨-, time, -, -, htimeRead', htimeCanonical, -, -⟩ := timeFailures_nil_iff.mp htime
  cases htimeRead.symm.trans htimeRead'
  rw [← heq]
  exact ⟨hcanonical, htimeCanonical⟩

/-- Canonical timestamps are ordered as the points they denote, a leap second strictly between the
last millisecond before it and the next midnight; the comparator, the phases of the verifier and
the schema compare points. -/
theorem timestamps_chronological :
    (∀ a b, canonicalTimestamp a = true → canonicalTimestamp b = true →
      (a < b ↔ point a < point b) ∧ compareCanonicalTimestamps a b =
        if point a < point b then -1 else if point b < point a then 1 else 0) ∧
    (∀ s, canonicalTimestamp s = true → (fields s).date.Valid ∧
      if (fields s).second = 60 then
        (fields s).hour = 23 ∧ (fields s).minute = 59 ∧ (civilFromDays (dayNumber (fields s).date + 1)).day = 1 ∧
          toLex (dayNumber (fields s).date, 86399999) < point s ∧ point s < toLex (dayNumber (fields s).date + 1, 0)
      else 0 ≤ (fields s).milliOfDay ∧ (fields s).milliOfDay ≤ 86399999) ∧
    (∀ parent child, CanonicalTime parent → CanonicalTime child → compareTime parent child =
      if point child.notBefore < point parent.notBefore ∨ point parent.notAfter < point child.notAfter then
        DelegationCompare.fail .TIME_WIDENING .time "child validity window is not contained in parent window"
      else []) ∧
    (∀ i parent child, checkIssuance i parent child =
      if point child.delegation.issuedAt < point parent.delegation.authority.time.notBefore ∨
          point parent.delegation.authority.time.notAfter ≤ point child.delegation.issuedAt then
        refuseAt .invalid .ISSUED_AT_OUTSIDE_PARENT i "child was issued outside parent validity window"
      else .ok ()) ∧
    (∀ now i r, canonicalTimestamp now = true → checkCurrent now i r =
      if point now < point r.delegation.authority.time.notBefore then
        refuseAt .invalid .NOT_YET_VALID i "delegation is not yet valid"
      else if point r.delegation.authority.time.notAfter ≤ point now then
        refuseAt .invalid .EXPIRED i "delegation has expired"
      else .ok ()) ∧
    ∀ v p i, timeFailures v p i = [] ↔
      ∃ members t, record v = some members ∧ exactKeys members ["not_before", "not_after"] = true ∧
        readTime v = some t ∧ CanonicalTime t ∧ point t.notBefore < point t.notAfter ∧ (p ≠ .null → ∀ issued,
          str? i = some issued → canonicalTimestamp issued = true → point issued ≤ point t.notBefore) := by
  refine ⟨fun a b ha hb => ⟨lt_iff_point ha hb, compare_point ha hb⟩, ?_, ?_, ?_, ?_, ?_⟩
  · intro s hs
    refine ⟨(canonical_fields hs).2.valid, ?_⟩
    split
    · rename_i hsecond
      exact leap_between hs hsecond
    · rename_i hsecond
      exact within_day hs hsecond
  · intro parent child hparent hchild
    simp only [compareTime, lt_iff_point hchild.notBefore hparent.notBefore,
      lt_iff_point hparent.notAfter hchild.notAfter]
  · intro i parent child
    have hparent := (shaped_canonical parent).2
    have hchild := (shaped_canonical child).1
    simp only [checkIssuance, lt_iff_point hchild hparent.notBefore, le_iff_point hparent.notAfter hchild]
  · intro now i r hnow
    have hr := (shaped_canonical r).2
    simp only [checkCurrent, lt_iff_point hnow hr.notBefore, le_iff_point hr.notAfter hnow]
  · intro v p i
    rw [timeFailures_nil_iff]
    refine exists_congr fun members => exists_congr fun t => and_congr_right fun _ => and_congr_right fun _ =>
      and_congr_right fun _ => and_congr_right fun ht => and_congr (lt_iff_point ht.notBefore ht.notAfter) ?_
    refine forall_congr' fun _ => forall_congr' fun issued => forall_congr' fun _ => forall_congr' fun hissued => ?_
    exact le_iff_point hissued ht.notBefore

/-- The leap second at the end of 2016, half a second into it, and the midnight after. -/
theorem leap_before_midnight :
    lit "2016-12-31T23:59:60.500Z" < lit "2017-01-01T00:00:00.000Z" ∧
      point (lit "2016-12-31T23:59:60.500Z") < point (lit "2017-01-01T00:00:00.000Z") := by
  have hlt : lit "2016-12-31T23:59:60.500Z" < lit "2017-01-01T00:00:00.000Z" := by decide
  exact ⟨hlt, (timestamps_chronological.1 (lit "2016-12-31T23:59:60.500Z") (lit "2017-01-01T00:00:00.000Z") (by decide)
    (by decide)).1.mp hlt⟩

end AgentPassport.CanonicalTimeline
