import AgentPassport.CivilDate
import AgentPassport.FixedDigits

/-! The strict timestamp parser and the one spelling that is written (`core/rfc3339.ts`). An
instant is an integer number of milliseconds from the epoch. -/
namespace AgentPassport.Rfc3339
open JsText Js CivilDate FixedDigits

inductive Rfc3339FailureReason where
  | notAString
  | malformed
  | fieldOutOfRange
  | leapSecond
  | notRepresentable
  deriving DecidableEq

/-- `([Zz])|([+-])(\d{2}):(\d{2})`. -/
inductive Zone where
  | zulu
  | offset (negative : Bool) (hour minute : Str)
  deriving DecidableEq

/-- The groups of the regular expression. -/
structure Groups where
  year : Str
  month : Str
  day : Str
  hour : Str
  minute : Str
  second : Str
  frac : Option Str
  zone : Zone
  deriving DecidableEq

/-- `\d{n}`, with what follows. -/
def takeDigits (n : Nat) (s : Str) : Option (Str × Str) :=
  if Fixed n (s.take n) then some (s.take n, s.drop n) else none

def expect (allowed : UInt16 → Bool) : Str → Option Str
  | [] => none
  | c :: rest => if allowed c then some rest else none

/-- `(?:\.(\d{1,9}))?`: no zone begins with a point or a digit, so nothing is given back. -/
def matchFraction : Str → Option (Option Str × Str)
  | [] => some (none, [])
  | c :: rest =>
    if c = 0x2E then
      if 1 ≤ (rest.takeWhile isDigit).length ∧ (rest.takeWhile isDigit).length ≤ 9 then
        some (some (rest.takeWhile isDigit), rest.dropWhile isDigit)
      else none
    else some (none, c :: rest)

/-- The zone, up to the end of the text. -/
def matchZone : Str → Option Zone
  | [] => none
  | c :: rest =>
    if c = 0x5A ∨ c = 0x7A then
      if rest = [] then some .zulu else none
    else if c = 0x2B ∨ c = 0x2D then do
      let (hour, rest) ← takeDigits 2 rest
      let rest ← expect (· = 0x3A) rest
      let (minute, rest) ← takeDigits 2 rest
      if rest = [] then some (.offset (c = 0x2D) hour minute) else none
    else none

/-- `(\d{4})-(\d{2})-(\d{2})`. -/
def matchDate (s : Str) : Option ((Str × Str × Str) × Str) := do
  let (year, s) ← takeDigits 4 s
  let s ← expect (· = 0x2D) s
  let (month, s) ← takeDigits 2 s
  let s ← expect (· = 0x2D) s
  let (day, s) ← takeDigits 2 s
  return ((year, month, day), s)

/-- `(\d{2}):(\d{2}):(\d{2})`. -/
def matchTime (s : Str) : Option ((Str × Str × Str) × Str) := do
  let (hour, s) ← takeDigits 2 s
  let s ← expect (· = 0x3A) s
  let (minute, s) ← takeDigits 2 s
  let s ← expect (· = 0x3A) s
  let (second, s) ← takeDigits 2 s
  return ((hour, minute, second), s)

def exec (s : Str) : Option Groups := do
  let ((year, month, day), s) ← matchDate s
  let s ← expect (fun c => c = 0x54 ∨ c = 0x74) s
  let ((hour, minute, second), s) ← matchTime s
  let (frac, s) ← matchFraction s
  let zone ← matchZone s
  return ⟨year, month, day, hour, minute, second, frac, zone⟩

/-- `frac.padEnd(3, '0').slice(0, 3)` as a number. -/
def millisOf : Option Str → Nat
  | none => 0
  | some frac => digitsValue ((frac ++ List.replicate (3 - frac.length) 0x30).take 3)

def offsetSeconds : Zone → Option Int
  | .zulu => some 0
  | .offset negative hour minute =>
    if digitsValue hour > 23 ∨ digitsValue minute > 59 then none
    else some ((digitsValue hour * 3600 + digitsValue minute * 60) * if negative then -1 else 1)

/-- The checks on the fields and the instant they name. -/
def instant (m : Groups) : Except Rfc3339FailureReason Int :=
  let year := digitsValue m.year
  let month := digitsValue m.month
  let day := digitsValue m.day
  let hour := digitsValue m.hour
  let minute := digitsValue m.minute
  let second := digitsValue m.second
  if second = 60 then throw .leapSecond
  else if month < 1 ∨ month > 12 then throw .fieldOutOfRange
  else if day < 1 ∨ day > daysInMonth year month then throw .fieldOutOfRange
  else if hour > 23 ∨ minute > 59 ∨ second > 59 then throw .fieldOutOfRange
  else match offsetSeconds m.zone with
    | none => throw .fieldOutOfRange
    | some offset =>
      let ms := (daysFromCivil year month day * 86400 + hour * 3600 + minute * 60 + second - offset) * 1000
        + millisOf m.frac
      if ms.natAbs ≤ 2 ^ 53 - 1 then return ms else throw .notRepresentable

def parseRfc3339 : JsValue → Except Rfc3339FailureReason Int
  | .str s =>
    match exec s with
    | none => throw .malformed
    | some m => instant m
  | _ => throw .notAString

/-- The `RangeError` of `formatRfc3339`, with the instant it names. -/
structure NotRepresentable where
  ms : Int
  deriving DecidableEq

def spell (year month day hour minute second millis : Str) : Str :=
  year ++ (0x2D :: (month ++ (0x2D :: (day ++ (0x54 :: (hour ++ (0x3A :: (minute ++ (0x3A ::
    (second ++ (0x2E :: (millis ++ [0x5A]))))))))))))

def MIN_INSTANT : Int := -62167219200000
def MAX_INSTANT : Int := 253402300799999

/-- `formatRfc3339` on an integer, which `Math.trunc` leaves as it is. No field is negative. -/
def formatRfc3339 (ms : Int) : Except NotRepresentable Str :=
  if ms < MIN_INSTANT ∨ ms > MAX_INSTANT then throw ⟨ms⟩
  else
    let days := ms / 86400000
    let rest := ms - days * 86400000
    let date := civilFromDays days
    return spell (pad date.year.toNat 4) (pad date.month.toNat 2) (pad date.day.toNat 2)
      (pad (rest / 3600000).toNat 2) (pad (rest % 3600000 / 60000).toNat 2)
      (pad (rest % 60000 / 1000).toNat 2) (pad (rest % 1000).toNat 3)

theorem takeDigits_append {n : Nat} {ds : Str} (h : Fixed n ds) (rest : Str) :
    takeDigits n (ds ++ rest) = some (ds, rest) := by
  have htake : (ds ++ rest).take n = ds := by rw [← h.1, List.take_left]
  have hdrop : (ds ++ rest).drop n = rest := by rw [← h.1, List.drop_left]
  rw [takeDigits, htake, if_pos h, hdrop]

theorem takeDigits_fixed {n : Nat} {s ds rest : Str} (h : takeDigits n s = some (ds, rest)) :
    Fixed n ds := by
  unfold takeDigits at h
  split at h
  · rename_i hfixed
    cases h
    exact hfixed
  · cases h

/-- The parts of a timestamp in the spelling that is written. -/
structure Parts (year month day hour minute second millis : Str) : Prop where
  year : Fixed 4 year
  month : Fixed 2 month
  day : Fixed 2 day
  hour : Fixed 2 hour
  minute : Fixed 2 minute
  second : Fixed 2 second
  millis : Fixed 3 millis

theorem matchFraction_millis {millis : Str} (h : Fixed 3 millis) :
    matchFraction (0x2E :: (millis ++ [0x5A])) = some (some millis, [0x5A]) := by
  have htake : (millis ++ [0x5A]).takeWhile isDigit = millis := by
    rw [List.takeWhile_append_of_pos h.2]
    exact List.append_nil _
  have hdrop : (millis ++ [0x5A]).dropWhile isDigit = [0x5A] := by
    rw [List.dropWhile_append_of_pos h.2]
    rfl
  rw [matchFraction, if_pos rfl, htake, hdrop, if_pos ⟨by rw [h.1]; decide, by rw [h.1]; decide⟩]

theorem matchDate_append {year month day : Str} (hyear : Fixed 4 year) (hmonth : Fixed 2 month)
    (hday : Fixed 2 day) (rest : Str) :
    matchDate (year ++ (0x2D :: (month ++ (0x2D :: (day ++ rest))))) = some ((year, month, day), rest) := by
  rw [matchDate, takeDigits_append hyear]
  simp only [Option.bind_eq_bind, Option.bind_some, expect, decide_true, if_true, takeDigits_append hmonth,
    takeDigits_append hday]
  rfl

theorem matchTime_append {hour minute second : Str} (hhour : Fixed 2 hour) (hminute : Fixed 2 minute)
    (hsecond : Fixed 2 second) (rest : Str) :
    matchTime (hour ++ (0x3A :: (minute ++ (0x3A :: (second ++ rest))))) =
      some ((hour, minute, second), rest) := by
  rw [matchTime, takeDigits_append hhour]
  simp only [Option.bind_eq_bind, Option.bind_some, expect, decide_true, if_true, takeDigits_append hminute,
    takeDigits_append hsecond]
  rfl

variable {year month day hour minute second millis : Str}

theorem exec_spell (h : Parts year month day hour minute second millis) :
    exec (spell year month day hour minute second millis) =
      some ⟨year, month, day, hour, minute, second, some millis, .zulu⟩ := by
  have hzone : matchZone [0x5A] = some .zulu := rfl
  rw [exec, spell, matchDate_append h.year h.month h.day]
  simp only [Option.bind_eq_bind, Option.bind_some, expect, true_or, decide_true, if_true,
    matchTime_append h.hour h.minute h.second, matchFraction_millis h.millis, hzone]
  rfl

theorem matchFraction_digits {s f rest : Str} (h : matchFraction s = some (some f, rest)) :
    ∀ c ∈ f, isDigit c = true := by
  unfold matchFraction at h
  split at h
  · cases h
  · split at h
    · split at h
      · cases h
        exact fun c hc => List.mem_takeWhile_imp hc
      · cases h
    · cases h

theorem matchDate_year {s rest : Str} {date : Str × Str × Str} (h : matchDate s = some (date, rest)) :
    Fixed 4 date.1 := by
  rw [matchDate, Option.bind_eq_bind, Option.bind_eq_some_iff] at h
  obtain ⟨⟨year, s₁⟩, hyear, h⟩ := h
  simp only [Option.bind_eq_bind, Option.bind_eq_some_iff, Option.pure_def, Option.some.injEq] at h
  obtain ⟨s₂, -, month, -, s₃, -, day, -, hdate⟩ := h
  cases hdate
  exact takeDigits_fixed hyear

variable {s : Str}

theorem exec_digits {m : Groups} (h : exec s = some m) :
    Fixed 4 m.year ∧ ∀ f, m.frac = some f → ∀ c ∈ f, isDigit c = true := by
  rw [exec, Option.bind_eq_bind, Option.bind_eq_some_iff] at h
  obtain ⟨⟨⟨year, month, day⟩, s₁⟩, hdate, h⟩ := h
  simp only [Option.bind_eq_bind, Option.bind_eq_some_iff, Option.pure_def, Option.some.injEq] at h
  obtain ⟨s₂, -, time, -, ⟨frac, s₃⟩, hfrac, zone, -, rfl⟩ := h
  refine ⟨matchDate_year hdate, ?_⟩
  intro f hf
  simp only at hf
  subst hf
  exact matchFraction_digits hfrac

theorem millisOf_lt {frac : Option Str} (h : ∀ f, frac = some f → ∀ c ∈ f, isDigit c = true) :
    millisOf frac < 1000 := by
  cases frac with
  | none => decide
  | some f =>
    have hdigits : ∀ c ∈ (f ++ List.replicate (3 - f.length) 0x30).take 3, isDigit c = true := by
      intro c hc
      obtain hc | hc := List.mem_append.mp (List.mem_of_mem_take hc)
      · exact h f rfl c hc
      · rw [List.eq_of_mem_replicate hc]
        decide
    refine (digitsValue_lt hdigits).trans_le ?_
    exact Nat.pow_le_pow_right (by decide) (List.length_take_le _ _)

theorem millisOf_fixed {millis : Str} (h : Fixed 3 millis) : millisOf (some millis) = digitsValue millis := by
  have hnone : 3 - millis.length = 0 := by rw [h.1]
  rw [millisOf, hnone, List.replicate_zero, List.append_nil, ← h.1, List.take_length]

/-- The checks a timestamp without an offset passes, and its instant. -/
structure Names (year month day hour minute second millis : Nat) (ms : Int) : Prop where
  date : (⟨year, month, day⟩ : Civil).Valid
  time : hour ≤ 23 ∧ minute ≤ 59 ∧ second ≤ 59
  instant : ms = (daysFromCivil year month day * 86400 + hour * 3600 + minute * 60 + second) * 1000 + millis

theorem instant_cases (m : Groups) :
    (∃ e, e ≠ .notRepresentable ∧ instant m = .error e) ∨
    ∃ offset ms, offsetSeconds m.zone = some offset ∧
      Names (digitsValue m.year) (digitsValue m.month) (digitsValue m.day) (digitsValue m.hour)
        (digitsValue m.minute) (digitsValue m.second) (millisOf m.frac) (ms + offset * 1000) ∧
      instant m = if ms.natAbs ≤ 2 ^ 53 - 1 then .ok ms else .error .notRepresentable := by
  simp only [instant]
  split
  · exact .inl ⟨_, by decide, rfl⟩
  split
  · exact .inl ⟨_, by decide, rfl⟩
  rename_i hmonth
  split
  · exact .inl ⟨_, by decide, rfl⟩
  rename_i hday
  split
  · exact .inl ⟨_, by decide, rfl⟩
  rename_i htime
  split
  · exact .inl ⟨_, by decide, rfl⟩
  rename_i offset hoffset
  refine .inr ⟨offset, _, hoffset, ⟨⟨?_, ?_, ?_, ?_⟩, by omega, by omega⟩, rfl⟩
  all_goals simp only
  all_goals omega

theorem instant_of_names {m : Groups} {offset ms : Int} (hoffset : offsetSeconds m.zone = some offset)
    (h : Names (digitsValue m.year) (digitsValue m.month) (digitsValue m.day) (digitsValue m.hour)
      (digitsValue m.minute) (digitsValue m.second) (millisOf m.frac) (ms + offset * 1000)) :
    instant m = if ms.natAbs ≤ 2 ^ 53 - 1 then .ok ms else .error .notRepresentable := by
  obtain ⟨⟨hlow, hhigh, hfirst, hlast⟩, htime, hms⟩ := h
  simp only at hlow hhigh hfirst hlast
  have heq : (daysFromCivil (digitsValue m.year) (digitsValue m.month) (digitsValue m.day) * 86400 +
      (digitsValue m.hour) * 3600 + (digitsValue m.minute) * 60 + (digitsValue m.second) - offset) * 1000 +
        millisOf m.frac = ms := by omega
  simp only [instant]
  rw [if_neg (by omega), if_neg (by omega), if_neg (by omega), if_neg (by omega)]
  simp only [hoffset, heq]
  rfl

variable {ms : Int}

theorem instant_ok {m : Groups} (h : instant m = .ok ms) : ∃ offset, offsetSeconds m.zone = some offset ∧
      Names (digitsValue m.year) (digitsValue m.month) (digitsValue m.day) (digitsValue m.hour)
        (digitsValue m.minute) (digitsValue m.second) (millisOf m.frac) (ms + offset * 1000) := by
  obtain ⟨e, -, he⟩ | ⟨offset, ms', hoffset, hnames, heq⟩ := instant_cases m
  · rw [he] at h
    cases h
  · rw [heq] at h
    split at h
    · cases h
      exact ⟨offset, hoffset, hnames⟩
    · cases h

theorem days_range {c : Civil} (h : c.Valid) (hyear : 0 ≤ c.year ∧ c.year ≤ 9999) :
    -719528 ≤ daysFromCivil c.year c.month c.day ∧ daysFromCivil c.year c.month c.day ≤ 2932896 := by
  rw [← year_range_iff, civilFromDays_daysFromCivil h]
  exact hyear

theorem offset_range {zone : Zone} {offset : Int} (h : offsetSeconds zone = some offset) :
    -86400 < offset ∧ offset < 86400 := by
  cases zone with
  | zulu =>
    cases h
    decide
  | offset negative hour minute =>
    rw [offsetSeconds] at h
    split at h
    · cases h
    · cases h
      cases negative <;> simp only [if_true, Bool.false_eq_true, if_false] <;> omega

theorem instant_representable {m : Groups} (h : exec s = some m) : instant m ≠ .error .notRepresentable := by
  obtain ⟨hyear, hfrac⟩ := exec_digits h
  have hmillis := millisOf_lt hfrac
  have hlt : digitsValue m.year < 10 ^ 4 := by
    rw [← hyear.1]
    exact digitsValue_lt hyear.2
  intro hfail
  obtain ⟨e, hne, he⟩ | ⟨offset, ms, hoffset, hnames, heq⟩ := instant_cases m
  · rw [he] at hfail
    exact hne (Except.error.inj hfail)
  · rw [heq] at hfail
    split at hfail
    · cases hfail
    · rename_i hlarge
      have hdays := days_range hnames.date (by simp only; omega)
      have hrange := offset_range hoffset
      have htime := hnames.time
      have hms := hnames.instant
      simp only at hdays
      omega

theorem parse_spell (h : Parts year month day hour minute second millis)
    (hnames : Names (digitsValue year) (digitsValue month) (digitsValue day) (digitsValue hour) (digitsValue minute) (digitsValue second) (digitsValue millis) ms) :
    parseRfc3339 (.str (spell year month day hour minute second millis)) = .ok ms := by
  have hexec := exec_spell h
  simp only [parseRfc3339, hexec]
  have hinstant := @instant_of_names ⟨year, month, day, hour, minute, second, some millis, .zulu⟩
    0 ms rfl (by rw [millisOf_fixed h.millis, zero_mul, add_zero]; exact hnames)
  rw [hinstant]
  split
  · rfl
  · rename_i hlarge
    rw [if_neg hlarge] at hinstant
    exact absurd hinstant (instant_representable hexec)

theorem parts_lt (h : Parts year month day hour minute second millis) :
    digitsValue year ≤ 9999 ∧ digitsValue millis ≤ 999 := by
  have hyear := digitsValue_lt h.year.2
  have hmillis := digitsValue_lt h.millis.2
  rw [h.year.1] at hyear
  rw [h.millis.1] at hmillis
  omega

def ofDay (hour minute second millis : Nat) : Nat :=
  hour * 3600000 + minute * 60000 + second * 1000 + millis

theorem ofDay_lt {hour minute second millis : Nat} (htime : hour ≤ 23 ∧ minute ≤ 59 ∧ second ≤ 59)
    (hmillis : millis ≤ 999) : ofDay hour minute second millis < 86400000 := by
  unfold ofDay
  omega

theorem Names.ofDay_eq {year month day hour minute second millis : Nat}
    (h : Names year month day hour minute second millis ms) :
    ms = daysFromCivil year month day * 86400000 + ofDay hour minute second millis := by
  have hms := h.instant
  unfold ofDay
  omega

theorem split_days {days ms : Int} {n : Nat} (hn : n < 86400000) (h : ms = days * 86400000 + n) :
    ms / 86400000 = days ∧ ms - days * 86400000 = n := by
  omega

theorem split_time {hour minute second millis rest : Nat} (hminute : minute ≤ 59) (hsecond : second ≤ 59)
    (hmillis : millis ≤ 999) (h : rest = ofDay hour minute second millis) :
    rest / 3600000 = hour ∧ rest % 3600000 / 60000 = minute ∧ rest % 60000 / 1000 = second ∧
      rest % 1000 = millis := by
  unfold ofDay at h
  refine ⟨?_, ?_, ?_, ?_⟩ <;> omega

theorem toNat_fields (n : Nat) :
    ((n : Int) / 3600000).toNat = n / 3600000 ∧ ((n : Int) % 3600000 / 60000).toNat = n % 3600000 / 60000 ∧
      ((n : Int) % 60000 / 1000).toNat = n % 60000 / 1000 ∧ ((n : Int) % 1000).toNat = n % 1000 := by
  refine ⟨?_, ?_, ?_, ?_⟩ <;> omega

theorem format_of_names (h : Parts year month day hour minute second millis)
    (hnames : Names (digitsValue year) (digitsValue month) (digitsValue day) (digitsValue hour) (digitsValue minute) (digitsValue second) (digitsValue millis) ms) :
    formatRfc3339 ms = .ok (spell year month day hour minute second millis) := by
  obtain ⟨hyear, hmillis⟩ := parts_lt h
  have hcivil := civilFromDays_daysFromCivil hnames.date
  have hdays := days_range hnames.date ⟨by simp, by simpa using hyear⟩
  have hlt := ofDay_lt hnames.time hmillis
  have hms := hnames.ofDay_eq
  obtain ⟨hquot, hrest⟩ := split_days hlt hms
  obtain ⟨hh, hm, hs, hf⟩ := split_time hnames.time.2.1 hnames.time.2.2 hmillis rfl
  have hrange : ¬ (ms < MIN_INSTANT ∨ ms > MAX_INSTANT) := by
    rw [hms]
    clear hms hrest hquot hcivil hh hm hs hf
    unfold MIN_INSTANT MAX_INSTANT
    simp only at hdays
    omega
  obtain ⟨th, tm, ts, tf⟩ := toNat_fields
    (ofDay (digitsValue hour) (digitsValue minute) (digitsValue second) (digitsValue millis))
  simp only [formatRfc3339]
  rw [if_neg hrange]
  simp only [hquot, hrest]
  rw [th, tm, ts, tf, hh, hm, hs, hf, hcivil]
  simp only [Int.toNat_natCast]
  rw [pad_value (by decide) h.year, pad_value (by decide) h.month, pad_value (by decide) h.day,
    pad_value (by decide) h.hour, pad_value (by decide) h.minute, pad_value (by decide) h.second,
    pad_value (by decide) h.millis]
  rfl

theorem exists_names (h : MIN_INSTANT ≤ ms ∧ ms ≤ MAX_INSTANT) : ∃ year month day hour minute second millis,
      Parts year month day hour minute second millis ∧
      Names (digitsValue year) (digitsValue month) (digitsValue day) (digitsValue hour)
        (digitsValue minute) (digitsValue second) (digitsValue millis) ms := by
  unfold MIN_INSTANT MAX_INSTANT at h
  obtain ⟨hvalid, hdays⟩ := civil_of_days (ms / 86400000)
  have hyear := (year_range_iff (ms / 86400000)).mpr ⟨by omega, by omega⟩
  obtain ⟨rest, hrest⟩ : ∃ rest : Nat, ms - ms / 86400000 * 86400000 = rest ∧ rest < 86400000 :=
    ⟨(ms - ms / 86400000 * 86400000).toNat, by omega, by omega⟩
  have hday : (civilFromDays (ms / 86400000)).day ≤ 31 := by
    refine hvalid.2.2.2.trans ?_
    unfold daysInMonth
    split <;> split <;> decide
  obtain ⟨c, hc⟩ : ∃ c, c = civilFromDays (ms / 86400000) := ⟨_, rfl⟩
  rw [← hc] at hvalid hdays hyear hday
  have hfields : ((c.year.toNat : Int), (c.month.toNat : Int), (c.day.toNat : Int)) = (c.year, c.month, c.day) := by
    have hlow := hvalid.1
    have hfirst := hvalid.2.2.1
    rw [Int.toNat_of_nonneg hyear.1, Int.toNat_of_nonneg (by omega), Int.toNat_of_nonneg (by omega)]
  simp only [Prod.mk.injEq] at hfields
  refine ⟨pad c.year.toNat 4, pad c.month.toNat 2, pad c.day.toNat 2, pad (rest / 3600000) 2,
    pad (rest % 3600000 / 60000) 2, pad (rest % 60000 / 1000) 2, pad (rest % 1000) 3, ?_, ?_⟩
  · have hhigh := hvalid.2.1
    constructor <;> apply fixed_pad (by decide) <;> omega
  · simp only [digitsValue_pad]
    refine ⟨?_, by omega, ?_⟩
    · rw [hfields.1, hfields.2.1, hfields.2.2]
      exact hvalid
    · rw [hfields.1, hfields.2.1, hfields.2.2, hdays]
      omega

theorem cons_lt_cons_same (c : UInt16) (x y : Str) : c :: x < c :: y ↔ x < y := by
  rw [List.cons_lt_cons_iff]
  simp

theorem spell_lt {year month day hour minute second millis year' month' day' hour' minute' second' millis' : Str}
    (h : Parts year month day hour minute second millis)
    (h' : Parts year' month' day' hour' minute' second' millis')
    (hlt : digitsValue year < digitsValue year' ∨ digitsValue year = digitsValue year' ∧
      (digitsValue month < digitsValue month' ∨ digitsValue month = digitsValue month' ∧
      (digitsValue day < digitsValue day' ∨ digitsValue day = digitsValue day' ∧
      (digitsValue hour < digitsValue hour' ∨ digitsValue hour = digitsValue hour' ∧
      (digitsValue minute < digitsValue minute' ∨ digitsValue minute = digitsValue minute' ∧
      (digitsValue second < digitsValue second' ∨ digitsValue second = digitsValue second' ∧
      digitsValue millis < digitsValue millis')))))) :
    spell year month day hour minute second millis < spell year' month' day' hour' minute' second' millis' := by
  have hpart : ∀ {w : Nat} {s t x y : Str}, Fixed w s → Fixed w t →
      (digitsValue s < digitsValue t ∨ digitsValue s = digitsValue t ∧ x < y) → s ++ x < t ++ y := by
    intro w s t x y hs ht hst
    have hlen : s.length = t.length := hs.1.trans ht.1.symm
    rw [append_lt_append_iff hlen, lt_iff_value hs.2 ht.2 hlen]
    exact hst.imp_right (fun heq => ⟨eq_of_value hs ht heq.1, heq.2⟩)
  unfold spell
  refine hpart h.year h'.year (hlt.imp_right (And.imp_right fun hlt => ?_))
  rw [cons_lt_cons_same]
  refine hpart h.month h'.month (hlt.imp_right (And.imp_right fun hlt => ?_))
  rw [cons_lt_cons_same]
  refine hpart h.day h'.day (hlt.imp_right (And.imp_right fun hlt => ?_))
  rw [cons_lt_cons_same]
  refine hpart h.hour h'.hour (hlt.imp_right (And.imp_right fun hlt => ?_))
  rw [cons_lt_cons_same]
  refine hpart h.minute h'.minute (hlt.imp_right (And.imp_right fun hlt => ?_))
  rw [cons_lt_cons_same]
  refine hpart h.second h'.second (hlt.imp_right (And.imp_right fun hlt => ?_))
  rw [cons_lt_cons_same]
  exact hpart h.millis h'.millis (.inl hlt)

theorem time_lt {hour minute second millis hour' minute' second' millis' : Nat}
    (htime : minute ≤ 59 ∧ second ≤ 59) (hmillis : millis ≤ 999)
    (htime' : minute' ≤ 59 ∧ second' ≤ 59) (hmillis' : millis' ≤ 999)
    (h : ofDay hour minute second millis < ofDay hour' minute' second' millis') :
    hour < hour' ∨ hour = hour' ∧ (minute < minute' ∨ minute = minute' ∧
      (second < second' ∨ second = second' ∧ millis < millis')) := by
  unfold ofDay at h
  omega

theorem names_lt {year month day hour minute second millis year' month' day' hour' minute' second' millis' : Nat}
    {a b : Int} (h : Names year month day hour minute second millis a) (hmillis : millis ≤ 999)
    (h' : Names year' month' day' hour' minute' second' millis' b) (hmillis' : millis' ≤ 999) (hab : a < b) :
    year < year' ∨ year = year' ∧ (month < month' ∨ month = month' ∧ (day < day' ∨ day = day' ∧
      (hour < hour' ∨ hour = hour' ∧ (minute < minute' ∨ minute = minute' ∧
      (second < second' ∨ second = second' ∧ millis < millis'))))) := by
  have ha := h.ofDay_eq
  have hb := h'.ofDay_eq
  have hlt := ofDay_lt h.time hmillis
  have hlt' := ofDay_lt h'.time hmillis'
  have hcivil := civilFromDays_daysFromCivil h.date
  have hcivil' := civilFromDays_daysFromCivil h'.date
  simp only at hcivil hcivil'
  obtain hdays | hdays : daysFromCivil year month day < daysFromCivil year' month' day' ∨
      daysFromCivil year month day = daysFromCivil year' month' day' ∧
        ofDay hour minute second millis < ofDay hour' minute' second' millis' := by
    generalize daysFromCivil year month day = x at *
    generalize daysFromCivil year' month' day' = y at *
    clear hcivil hcivil'
    omega
  · have hbefore := before_of_lt hdays
    rw [hcivil, hcivil'] at hbefore
    simp only [Civil.Before, Nat.cast_lt, Nat.cast_inj] at hbefore
    clear ha hb hlt hlt' hdays hcivil hcivil'
    omega
  · have hsame : (⟨year, month, day⟩ : Civil) = ⟨year', month', day'⟩ := by
      rw [← hcivil, ← hcivil', hdays.1]
    simp only [Civil.mk.injEq, Nat.cast_inj] at hsame
    have htime := time_lt h.time.2 hmillis h'.time.2 hmillis' hdays.2
    exact .inr ⟨hsame.1, .inr ⟨hsame.2.1, .inr ⟨hsame.2.2, htime⟩⟩⟩

/-- A text in the spelling that is written: three digits of a second, and in UTC. -/
def Canonical (s : Str) : Prop :=
  ∃ year month day hour minute second millis, Parts year month day hour minute second millis ∧
    s = spell year month day hour minute second millis

theorem format_of_parse {u : Str} (hu : Canonical u) (h : parseRfc3339 (.str u) = .ok ms) :
    formatRfc3339 ms = .ok u := by
  obtain ⟨year, month, day, hour, minute, second, millis, hparts, rfl⟩ := hu
  simp only [parseRfc3339, exec_spell hparts] at h
  obtain ⟨offset, hoffset, hnames⟩ := instant_ok h
  cases hoffset
  simp only [zero_mul, add_zero, millisOf_fixed hparts.millis] at hnames
  exact format_of_names hparts hnames

theorem format_parses (h : MIN_INSTANT ≤ ms ∧ ms ≤ MAX_INSTANT) :
    ∃ s, formatRfc3339 ms = .ok s ∧ Canonical s ∧ parseRfc3339 (.str s) = .ok ms := by
  obtain ⟨year, month, day, hour, minute, second, millis, hparts, hnames⟩ := exists_names h
  exact ⟨_, format_of_names hparts hnames, ⟨_, _, _, _, _, _, _, hparts, rfl⟩, parse_spell hparts hnames⟩

theorem range_of_format (h : formatRfc3339 ms = .ok s) : MIN_INSTANT ≤ ms ∧ ms ≤ MAX_INSTANT := by
  rw [formatRfc3339] at h
  split at h
  · cases h
  · omega

theorem parse_of_format (h : formatRfc3339 ms = .ok s) : parseRfc3339 (.str s) = .ok ms := by
  obtain ⟨t, ht, -, hparse⟩ := format_parses (range_of_format h)
  rw [h] at ht
  cases ht
  exact hparse

theorem format_lt {a b : Int} (ha : MIN_INSTANT ≤ a ∧ a ≤ MAX_INSTANT) (hb : MIN_INSTANT ≤ b ∧ b ≤ MAX_INSTANT)
    (hab : a < b) : ∃ s t, formatRfc3339 a = .ok s ∧ formatRfc3339 b = .ok t ∧ s < t := by
  obtain ⟨_, _, _, _, _, _, _, hparts, hnames⟩ := exists_names ha
  obtain ⟨_, _, _, _, _, _, _, hparts', hnames'⟩ := exists_names hb
  refine ⟨_, _, format_of_names hparts hnames, format_of_names hparts' hnames', ?_⟩
  exact spell_lt hparts hparts' (names_lt hnames (parts_lt hparts).2 hnames' (parts_lt hparts').2 hab)

theorem parse_representable (value : JsValue) : parseRfc3339 value ≠ .error .notRepresentable := by
  intro h
  unfold parseRfc3339 at h
  split at h
  · split at h
    · cases h
    · rename_i m hm
      exact instant_representable hm h
  · cases h

/-- Timestamps: writing an instant and reading it back gives the instant; a text that reads as an
instant of the range has one written spelling; day counts and dates correspond; later instants
are written later; and no text names an instant that is not representable. -/
theorem timestamps_round_trip :
    (∀ ms, MIN_INSTANT ≤ ms ∧ ms ≤ MAX_INSTANT →
      ∃ s, formatRfc3339 ms = .ok s ∧ parseRfc3339 (.str s) = .ok ms) ∧
    (∀ s ms, parseRfc3339 (.str s) = .ok ms → MIN_INSTANT ≤ ms ∧ ms ≤ MAX_INSTANT →
      ∃ t, formatRfc3339 ms = .ok t ∧ Canonical t ∧ parseRfc3339 (.str t) = .ok ms ∧
        ∀ u, Canonical u → parseRfc3339 (.str u) = .ok ms → u = t) ∧
    (∀ c : Civil, c.Valid → 0 ≤ c.year ∧ c.year ≤ 9999 →
      civilFromDays (daysFromCivil c.year c.month c.day) = c) ∧
    (∀ z, (civilFromDays z).Valid ∧
      daysFromCivil (civilFromDays z).year (civilFromDays z).month (civilFromDays z).day = z) ∧
    (∀ a b, MIN_INSTANT ≤ a ∧ a ≤ MAX_INSTANT → MIN_INSTANT ≤ b ∧ b ≤ MAX_INSTANT → a < b →
      ∃ s t, formatRfc3339 a = .ok s ∧ formatRfc3339 b = .ok t ∧ s < t) ∧
    (∀ value, parseRfc3339 value ≠ .error .notRepresentable) := by
  refine ⟨?_, ?_, ?_, civil_of_days, ?_, parse_representable⟩
  · intro ms h
    obtain ⟨s, hs, -, hparse⟩ := format_parses h
    exact ⟨s, hs, hparse⟩
  · intro s ms _ h
    obtain ⟨t, ht, hcanonical, hparse⟩ := format_parses h
    refine ⟨t, ht, hcanonical, hparse, ?_⟩
    intro u hu hread
    have hwritten := format_of_parse hu hread
    rw [ht] at hwritten
    cases hwritten
    rfl
  · exact fun c hc _ => civilFromDays_daysFromCivil hc
  · exact fun a b ha hb hab => format_lt ha hb hab

/-- The last instant of the year 9999, and one read with an offset from the day before. -/
theorem timestamps_round_trip_bounds :
    formatRfc3339 253402300799999 = .ok (lit "9999-12-31T23:59:59.999Z") ∧
    parseRfc3339 (.str (lit "2024-02-29t23:30:00.1239-01:00")) = .ok 1709253000123 ∧
    ∃ t, formatRfc3339 1709253000123 = .ok t ∧ Canonical t ∧ parseRfc3339 (.str t) = .ok 1709253000123 := by
  refine ⟨by decide, by decide, ?_⟩
  obtain ⟨t, ht, hcanonical, hparse, -⟩ := timestamps_round_trip.2.1
    (lit "2024-02-29t23:30:00.1239-01:00") 1709253000123 (by decide) (by decide)
  exact ⟨t, ht, hcanonical, hparse⟩

end AgentPassport.Rfc3339
