import Mathlib.Tactic.IntervalCases
import Mathlib.Tactic.Linarith

/-! Day counts of proleptic Gregorian dates (`core/rfc3339.ts`): `daysFromCivil` and
`civilFromDays` number the days by eras of 400 years that begin in March. `Math.floor` of a
quotient by a positive number is `Int` division. -/
namespace AgentPassport.CivilDate

structure Civil where
  year : Int
  month : Int
  day : Int
  deriving DecidableEq

def leap (year : Int) : Bool := (year % 4 = 0 ∧ year % 100 ≠ 0) ∨ year % 400 = 0

/-- Days in `month` (1-12) of `year`. -/
def daysInMonth (year month : Int) : Int :=
  if month = 2 then
    if leap year then 29 else 28
  else if month = 4 ∨ month = 6 ∨ month = 9 ∨ month = 11 then 30
  else 31

/-- Days from 1970-01-01 to the given date. -/
def daysFromCivil (year month day : Int) : Int :=
  let y := year - if month ≤ 2 then 1 else 0
  let era := y / 400
  let yoe := y - era * 400
  let doy := (153 * (month + if month > 2 then -3 else 9) + 2) / 5 + day - 1
  let doe := yoe * 365 + yoe / 4 - yoe / 100 + doy
  era * 146097 + doe - 719468

def civilFromDays (z : Int) : Civil :=
  let zz := z + 719468
  let era := zz / 146097
  let doe := zz - era * 146097
  let yoe := (doe - doe / 1460 + doe / 36524 - doe / 146096) / 365
  let doy := doe - (365 * yoe + yoe / 4 - yoe / 100)
  let mp := (5 * doy + 2) / 153
  let day := doy - (153 * mp + 2) / 5 + 1
  let month := mp + if mp < 10 then 3 else -9
  let year := yoe + era * 400 + if month ≤ 2 then 1 else 0
  ⟨year, month, day⟩

def Civil.Valid (c : Civil) : Prop :=
  1 ≤ c.month ∧ c.month ≤ 12 ∧ 1 ≤ c.day ∧ c.day ≤ daysInMonth c.year c.month

instance (c : Civil) : Decidable c.Valid := by
  unfold Civil.Valid
  infer_instance

def LongYear (yoe : Int) : Prop := yoe % 4 = 3 ∧ (yoe % 100 ≠ 99 ∨ yoe = 399)

theorem longYear_iff {era yoe : Int} (h : 0 ≤ yoe ∧ yoe ≤ 399) :
    LongYear yoe ↔ leap (yoe + era * 400 + 1) = true := by
  have h4 : (yoe + era * 400 + 1) % 4 = (yoe + 1) % 4 := by omega
  have h100 : (yoe + era * 400 + 1) % 100 = (yoe + 1) % 100 := by omega
  have h400 : (yoe + era * 400 + 1) % 400 = (yoe + 1) % 400 := by omega
  simp only [LongYear, leap, decide_eq_true_eq, h4, h100, h400]
  omega

theorem century_of_parts {c s doe : Int} (hc : 0 ≤ c ∧ c ≤ 3) (hs : 0 ≤ s ∧ (s < 36524 ∨ c = 3 ∧ s = 36524))
    (hdoe : doe = 36524 * c + s) : doe / 36524 - doe / 146096 = c := by
  obtain ⟨hs0, hs | ⟨rfl, rfl⟩⟩ := hs
  · have hcentury : doe / 36524 = c := by omega
    have hera : doe / 146096 = 0 := by omega
    rw [hcentury, hera, sub_zero]
  · rw [hdoe]
    rfl

theorem year_of_parts {c b r doy doe : Int} (hc : 0 ≤ c ∧ c ≤ 3) (hb : 0 ≤ b ∧ b ≤ 24)
    (hr : 0 ≤ r ∧ r ≤ 3) (hdoy : 0 ≤ doy ∧ doy ≤ 365) (hlong : doy = 365 → r = 3 ∧ (b < 24 ∨ c = 3))
    (hdoe : doe = 36524 * c + 1461 * b + 365 * r + doy) :
    (doe - doe / 1460 + doe / 36524 - doe / 146096) / 365 = 100 * c + 4 * b + r := by
  obtain ⟨leap, hleap⟩ : ∃ leap, leap = (24 * c + b + 365 * r + doy) / 1460 := ⟨_, rfl⟩
  have hwithin : 0 ≤ doy - leap ∧ doy - leap ≤ 364 := by omega
  have hcycles : doe / 1460 = 25 * c + b + leap := by omega
  have hcentury : doe / 36524 - doe / 146096 = c :=
    century_of_parts hc (s := 1461 * b + 365 * r + doy) (by omega) (by omega)
  rw [hcycles, add_sub_assoc, hcentury, hdoe]
  clear hlong hc hb hr hdoy hleap hcycles hcentury hdoe
  omega

theorem year_of_day {yoe doy doe : Int} (hyoe : 0 ≤ yoe ∧ yoe ≤ 399) (hdoy : 0 ≤ doy ∧ doy ≤ 365)
    (hlong : doy = 365 → LongYear yoe) (hdoe : doe = yoe * 365 + yoe / 4 - yoe / 100 + doy) :
    (doe - doe / 1460 + doe / 36524 - doe / 146096) / 365 = yoe := by
  unfold LongYear at hlong
  have hyears : 100 * (yoe / 100) + 4 * (yoe % 100 / 4) + yoe % 4 = yoe := by omega
  have hparts := @year_of_parts (yoe / 100) (yoe % 100 / 4) (yoe % 4) doy doe
    (by omega) (by omega) (by omega) hdoy (by omega) (by omega)
  rw [hparts]
  exact hyears

theorem exists_parts {doe : Int} (h : 0 ≤ doe ∧ doe ≤ 146096) :
    ∃ c b r doy : Int, (0 ≤ c ∧ c ≤ 3) ∧ (0 ≤ b ∧ b ≤ 24) ∧ (0 ≤ r ∧ r ≤ 3) ∧ (0 ≤ doy ∧ doy ≤ 365) ∧
      (doy = 365 → r = 3 ∧ (b < 24 ∨ c = 3)) ∧ doe = 36524 * c + 1461 * b + 365 * r + doy := by
  obtain ⟨c, hc, hcentury⟩ : ∃ c, (0 ≤ c ∧ c ≤ 3) ∧ 36524 * c ≤ doe ∧
      (doe < 36524 * (c + 1) ∨ c = 3 ∧ doe ≤ 146096) := ⟨min (doe / 36524) 3, by omega, by omega⟩
  obtain ⟨b, hb, hcycle⟩ : ∃ b, (0 ≤ b ∧ b ≤ 24) ∧ 36524 * c + 1461 * b ≤ doe ∧
      doe < 36524 * c + 1461 * (b + 1) := ⟨(doe - 36524 * c) / 1461, by omega, by omega⟩
  obtain ⟨r, hr, hyear⟩ : ∃ r, (0 ≤ r ∧ r ≤ 3) ∧ 36524 * c + 1461 * b + 365 * r ≤ doe ∧
      (doe < 36524 * c + 1461 * b + 365 * (r + 1) ∨ r = 3) :=
    ⟨min ((doe - 36524 * c - 1461 * b) / 365) 3, by omega, by omega⟩
  exact ⟨c, b, r, doe - (36524 * c + 1461 * b + 365 * r), hc, hb, hr, by omega, by omega, by omega⟩

theorem exists_year {doe : Int} (h : 0 ≤ doe ∧ doe ≤ 146096) :
    ∃ yoe doy : Int, (0 ≤ yoe ∧ yoe ≤ 399) ∧ (0 ≤ doy ∧ doy ≤ 365) ∧ (doy = 365 → LongYear yoe) ∧
      doe = yoe * 365 + yoe / 4 - yoe / 100 + doy := by
  obtain ⟨c, b, r, doy, hc, hb, hr, hdoy, hlong, hdoe⟩ := exists_parts h
  have hfour : (100 * c + 4 * b + r) / 4 = 25 * c + b := by omega
  have hhundred : (100 * c + 4 * b + r) / 100 = c := by omega
  refine ⟨100 * c + 4 * b + r, doy, by omega, hdoy, ?_, by omega⟩
  intro hlast
  obtain ⟨hthree, hcentury⟩ := hlong hlast
  unfold LongYear
  omega

def monthStart (mp : Int) : Int := (153 * mp + 2) / 5

/-- A date by the year that begins in March, the month counted from March and the day. -/
def ofMarch (y mp day : Int) : Civil :=
  ⟨y + if mp < 10 then 0 else 1, mp + if mp < 10 then 3 else -9, day⟩

/-- The day is one of the month, the last month being as long as the year makes it. -/
structure InMonth (y mp day : Int) : Prop where
  month : 0 ≤ mp ∧ mp ≤ 11
  first : 1 ≤ day
  before : mp < 11 → monthStart mp + day ≤ monthStart (mp + 1)
  last : monthStart mp + day ≤ if leap (y + 1) then 366 else 365

theorem monthStart_lt {mp : Int} (h : 0 ≤ mp ∧ mp < 11) : monthStart (mp + 1) ≤ 337 := by
  unfold monthStart
  omega

theorem daysInMonth_ofMarch {y mp : Int} (h : 0 ≤ mp ∧ mp ≤ 11) :
    daysInMonth (y + if mp < 10 then 0 else 1) (mp + if mp < 10 then 3 else -9) =
      if mp = 11 then if leap (y + 1) then 29 else 28 else monthStart (mp + 1) - monthStart mp := by
  obtain ⟨hlow, hhigh⟩ := h
  interval_cases mp <;> rfl

theorem valid_ofMarch {y mp day : Int} (h : 0 ≤ mp ∧ mp ≤ 11) :
    (ofMarch y mp day).Valid ↔ InMonth y mp day := by
  have hmonth : 1 ≤ (mp + if mp < 10 then 3 else -9) ∧ (mp + if mp < 10 then 3 else -9) ≤ 12 := by
    split <;> omega
  have hdays := daysInMonth_ofMarch (y := y) h
  unfold Civil.Valid ofMarch
  simp only [hdays]
  have hstart : monthStart 11 = 337 := by decide
  constructor
  · rintro ⟨-, -, hfirst, hlast⟩
    refine ⟨h, hfirst, ?_, ?_⟩
    · intro hlt
      rw [if_neg (by omega)] at hlast
      omega
    · by_cases heleven : mp = 11
      · rw [if_pos heleven] at hlast
        rw [heleven, hstart]
        cases hleap : leap (y + 1) <;> simp only [hleap, if_true, Bool.false_eq_true, if_false] at hlast ⊢ <;> omega
      · rw [if_neg heleven] at hlast
        have := @monthStart_lt mp (by omega)
        split <;> omega
  · rintro ⟨-, hfirst, hbefore, hlast⟩
    refine ⟨hmonth.1, hmonth.2, hfirst, ?_⟩
    by_cases heleven : mp = 11
    · rw [if_pos heleven]
      rw [heleven, hstart] at hlast
      cases hleap : leap (y + 1) <;> simp only [hleap, if_true, Bool.false_eq_true, if_false] at hlast ⊢ <;> omega
    · rw [if_neg heleven]
      have := hbefore (by omega)
      omega

variable {mp : Int}

theorem ofMarch_early (y day : Int) (h : mp < 10) : ofMarch y mp day = ⟨y, mp + 3, day⟩ := by
  rw [ofMarch, if_pos h, if_pos h, add_zero]

theorem ofMarch_late (y day : Int) (h : ¬ mp < 10) : ofMarch y mp day = ⟨y + 1, mp + -9, day⟩ := by
  rw [ofMarch, if_neg h, if_neg h]

theorem eq_ofMarch {c : Civil} (h : c.Valid) : ∃ y mp day, c = ofMarch y mp day ∧ InMonth y mp day := by
  have hlow := h.1
  have hhigh := h.2.1
  obtain ⟨y, mp, day, hc, hmp⟩ : ∃ y mp day, c = ofMarch y mp day ∧ 0 ≤ mp ∧ mp ≤ 11 := by
    obtain ⟨year, month, day⟩ := c
    simp only at hlow hhigh
    by_cases hearly : month ≤ 2
    · refine ⟨year - 1, month + 9, day, ?_, by omega⟩
      rw [ofMarch_late _ _ (by omega)]
      simp
    · refine ⟨year, month - 3, day, ?_, by omega⟩
      rw [ofMarch_early _ _ (by omega)]
      simp
  refine ⟨y, mp, day, hc, (valid_ofMarch hmp).mp ?_⟩
  rw [← hc]
  exact h

theorem month_of_day {mp day : Int} (hmp : 0 ≤ mp ∧ mp ≤ 11) (hday : 1 ≤ day)
    (hbefore : mp < 11 → monthStart mp + day ≤ monthStart (mp + 1)) (hyear : monthStart mp + day ≤ 366) :
    (5 * (monthStart mp + day - 1) + 2) / 153 = mp := by
  unfold monthStart at *
  omega

theorem month_exists {doy : Int} (h : 0 ≤ doy ∧ doy ≤ 365) :
    (0 ≤ (5 * doy + 2) / 153 ∧ (5 * doy + 2) / 153 ≤ 11) ∧ monthStart ((5 * doy + 2) / 153) ≤ doy ∧
      ((5 * doy + 2) / 153 < 11 → doy < monthStart ((5 * doy + 2) / 153 + 1)) := by
  unfold monthStart
  omega

theorem daysFromCivil_ofMarch (y day : Int) (h : 0 ≤ mp ∧ mp ≤ 11) :
    daysFromCivil (ofMarch y mp day).year (ofMarch y mp day).month (ofMarch y mp day).day =
      y / 400 * 146097 + ((y - y / 400 * 400) * 365 + (y - y / 400 * 400) / 4 - (y - y / 400 * 400) / 100 +
        (monthStart mp + day - 1)) - 719468 := by
  by_cases hmp : mp < 10
  · have hmonth : mp + 3 + -3 = mp := by omega
    rw [ofMarch_early _ _ hmp, daysFromCivil, if_neg (by simp only; omega), if_pos (by simp only; omega)]
    simp only [hmonth, sub_zero, monthStart]
  · have hmonth : mp + -9 + 9 = mp := by omega
    have hyear : y + 1 - 1 = y := by omega
    rw [ofMarch_late _ _ hmp, daysFromCivil, if_pos (by simp only; omega), if_neg (by simp only; omega)]
    simp only [hmonth, hyear, monthStart]

theorem civilFromDays_parts {era yoe mp day : Int} (hyoe : 0 ≤ yoe ∧ yoe ≤ 399)
    (h : InMonth (yoe + era * 400) mp day) :
    civilFromDays (era * 146097 + (yoe * 365 + yoe / 4 - yoe / 100 + (monthStart mp + day - 1)) - 719468) =
      ofMarch (yoe + era * 400) mp day := by
  have hstart : 0 ≤ monthStart mp := by
    have := h.month
    unfold monthStart
    omega
  have hfirst := h.first
  have hlast := h.last
  have hyear : monthStart mp + day ≤ 366 := by
    split at hlast <;> omega
  have hlong : monthStart mp + day - 1 = 365 → LongYear yoe := by
    intro hday
    rw [@longYear_iff era yoe hyoe]
    by_contra hleap
    rw [if_neg hleap] at hlast
    omega
  obtain ⟨doe, hdoe⟩ : ∃ doe, doe = yoe * 365 + yoe / 4 - yoe / 100 + (monthStart mp + day - 1) := ⟨_, rfl⟩
  have hbound : 0 ≤ doe ∧ doe ≤ 146096 := by
    unfold LongYear at hlong
    omega
  have hera : (era * 146097 + doe - 719468 + 719468) / 146097 = era := by omega
  have hrest : era * 146097 + doe - 719468 + 719468 - era * 146097 = doe := by omega
  have hyears := year_of_day hyoe ⟨by omega, by omega⟩ hlong hdoe
  have hdays : doe - (365 * yoe + yoe / 4 - yoe / 100) = monthStart mp + day - 1 := by omega
  have hmonth := month_of_day h.month h.first h.before hyear
  have hday : monthStart mp + day - 1 - (153 * mp + 2) / 5 + 1 = day := by
    unfold monthStart
    omega
  rw [← hdoe]
  simp only [civilFromDays, hera, hrest, hyears, hdays, hmonth, hday]
  by_cases hmp : mp < 10
  · rw [ofMarch_early _ _ hmp, if_pos hmp, if_neg (by have := h.month; omega), add_zero]
  · rw [ofMarch_late _ _ hmp, if_neg hmp, if_pos (by have := h.month; omega)]

theorem exists_day (z : Int) : ∃ era yoe mp day, (0 ≤ yoe ∧ yoe ≤ 399) ∧ InMonth (yoe + era * 400) mp day ∧
    z = era * 146097 + (yoe * 365 + yoe / 4 - yoe / 100 + (monthStart mp + day - 1)) - 719468 := by
  obtain ⟨yoe, doy, hyoe, hdoy, hlong, hdoe⟩ :=
    @exists_year ((z + 719468) % 146097) ⟨by omega, by omega⟩
  obtain ⟨hmp, hstart, hnext⟩ := month_exists hdoy
  refine ⟨(z + 719468) / 146097, yoe, (5 * doy + 2) / 153, doy - monthStart ((5 * doy + 2) / 153) + 1, hyoe,
    ⟨hmp, by omega, ?_, ?_⟩, by omega⟩
  · intro hlt
    have := hnext hlt
    omega
  · split
    · omega
    · rename_i hleap
      have hnot : doy ≠ 365 := fun hlast => hleap ((longYear_iff hyoe).mp (hlong hlast))
      omega

theorem civilFromDays_daysFromCivil {c : Civil} (h : c.Valid) :
    civilFromDays (daysFromCivil c.year c.month c.day) = c := by
  obtain ⟨y, mp, day, rfl, hin⟩ := eq_ofMarch h
  have hy : (y - y / 400 * 400) + y / 400 * 400 = y := by omega
  have hparts := @civilFromDays_parts (y / 400) (y - y / 400 * 400) mp day
    (by omega) (by rw [hy]; exact hin)
  rw [daysFromCivil_ofMarch y day hin.month, hparts, hy]

theorem civil_of_days (z : Int) :
    (civilFromDays z).Valid ∧
      daysFromCivil (civilFromDays z).year (civilFromDays z).month (civilFromDays z).day = z := by
  obtain ⟨era, yoe, mp, day, hyoe, hin, rfl⟩ := exists_day z
  rw [civilFromDays_parts hyoe hin]
  refine ⟨(valid_ofMarch hin.month).mpr hin, ?_⟩
  have hera : (yoe + era * 400) / 400 = era := by omega
  rw [daysFromCivil_ofMarch _ _ hin.month, hera]
  have hrest : yoe + era * 400 - era * 400 = yoe := by omega
  rw [hrest]

def Civil.Before (c d : Civil) : Prop :=
  c.year < d.year ∨ c.year = d.year ∧ (c.month < d.month ∨ c.month = d.month ∧ c.day < d.day)

/-- The days before a year that begins in March. -/
def yearStart (y : Int) : Int := 365 * y + y / 4 - y / 100 + y / 400

theorem yearStart_mono {y y' : Int} (h : y ≤ y') : yearStart y ≤ yearStart y' := by
  unfold yearStart
  omega

theorem yearStart_succ (y : Int) : yearStart (y + 1) = yearStart y + if leap (y + 1) then 366 else 365 := by
  unfold yearStart
  by_cases hleap : leap (y + 1) = true
  · rw [if_pos hleap]
    simp only [leap, decide_eq_true_eq] at hleap
    omega
  · rw [if_neg hleap]
    simp only [leap, decide_eq_true_eq] at hleap
    omega

theorem daysFromCivil_yearStart (y day : Int) (h : 0 ≤ mp ∧ mp ≤ 11) :
    daysFromCivil (ofMarch y mp day).year (ofMarch y mp day).month (ofMarch y mp day).day =
      yearStart y + (monthStart mp + day - 1) - 719468 := by
  rw [daysFromCivil_ofMarch y day h]
  unfold yearStart
  omega

theorem monthStart_mono {mp mp' : Int} (h : mp ≤ mp') : monthStart mp ≤ monthStart mp' := by
  unfold monthStart
  omega

theorem days_lt_ofMarch {y y' mp mp' day day' : Int} (h : InMonth y mp day) (h' : InMonth y' mp' day')
    (hlt : y < y' ∨ y = y' ∧ (mp < mp' ∨ mp = mp' ∧ day < day')) :
    yearStart y + (monthStart mp + day - 1) < yearStart y' + (monthStart mp' + day' - 1) := by
  have hfirst := h'.first
  have hlast := h.last
  have hnonneg : 0 ≤ monthStart mp' := by
    have := h'.month
    unfold monthStart
    omega
  obtain hyear | ⟨rfl, hmonth | ⟨rfl, hday⟩⟩ := hlt
  · have hnext := yearStart_mono (show y + 1 ≤ y' by omega)
    rw [yearStart_succ] at hnext
    split at hlast <;> simp_all <;> omega
  · have hbefore := h.before (by have := h'.month; omega)
    have hstart := monthStart_mono (show mp + 1 ≤ mp' by omega)
    omega
  · omega

theorem days_lt_of_before {c d : Civil} (hc : c.Valid) (hd : d.Valid) (h : c.Before d) :
    daysFromCivil c.year c.month c.day < daysFromCivil d.year d.month d.day := by
  obtain ⟨y, mp, day, rfl, hin⟩ := eq_ofMarch hc
  obtain ⟨y', mp', day', rfl, hin'⟩ := eq_ofMarch hd
  rw [daysFromCivil_yearStart y day hin.month, daysFromCivil_yearStart y' day' hin'.month]
  have hlt : y < y' ∨ y = y' ∧ (mp < mp' ∨ mp = mp' ∧ day < day') := by
    have hmp := hin.month
    have hmp' := hin'.month
    unfold Civil.Before ofMarch at h
    simp only at h
    split at h <;> split at h <;> omega
  have hdays := days_lt_ofMarch hin hin' hlt
  omega

theorem before_of_lt {z z' : Int} (h : z < z') : (civilFromDays z).Before (civilFromDays z') := by
  obtain ⟨hvalid, hdays⟩ := civil_of_days z
  obtain ⟨hvalid', hdays'⟩ := civil_of_days z'
  by_contra hnot
  obtain heq | hback : civilFromDays z = civilFromDays z' ∨ (civilFromDays z').Before (civilFromDays z) := by
    generalize civilFromDays z = c at *
    generalize civilFromDays z' = d at *
    obtain ⟨y, m, k⟩ := c
    obtain ⟨y', m', k'⟩ := d
    simp only [Civil.Before, Civil.mk.injEq] at hnot ⊢
    omega
  · rw [← hdays, ← hdays', heq] at h
    omega
  · have := days_lt_of_before hvalid' hvalid hback
    omega

theorem year_range_iff (z : Int) :
    (0 ≤ (civilFromDays z).year ∧ (civilFromDays z).year ≤ 9999) ↔ (-719528 ≤ z ∧ z ≤ 2932896) := by
  obtain ⟨hvalid, hdays⟩ := civil_of_days z
  have hfirst : (⟨0, 1, 1⟩ : Civil).Valid := by decide
  have hlast : (⟨9999, 12, 31⟩ : Civil).Valid := by decide
  have hfirstDay : daysFromCivil 0 1 1 = -719528 := by decide
  have hlastDay : daysFromCivil 9999 12 31 = 2932896 := by decide
  constructor
  · intro hyear
    refine ⟨?_, ?_⟩
    · by_contra hlt
      have hbefore := before_of_lt (show z < daysFromCivil 0 1 1 by omega)
      rw [civilFromDays_daysFromCivil hfirst] at hbefore
      have hmonth := hvalid.1
      have hday := hvalid.2.2.1
      simp only [Civil.Before] at hbefore
      omega
    · by_contra hgt
      have hbefore := before_of_lt (show daysFromCivil 9999 12 31 < z by omega)
      rw [civilFromDays_daysFromCivil hlast] at hbefore
      have hmonth := hvalid.2.1
      have hday : (civilFromDays z).day ≤ 31 := by
        refine hvalid.2.2.2.trans ?_
        unfold daysInMonth
        split <;> split <;> decide
      simp only [Civil.Before] at hbefore
      omega
  · intro hz
    refine ⟨?_, ?_⟩
    · by_contra hlt
      have hbefore := days_lt_of_before hvalid hfirst (.inl (by simp only; omega))
      rw [hdays, hfirstDay] at hbefore
      omega
    · by_contra hgt
      have hbefore := days_lt_of_before hlast hvalid (.inl (by simp only; omega))
      rw [hdays, hlastDay] at hbefore
      omega

end AgentPassport.CivilDate
