import AgentPassport.DelegationScope
import AgentPassport.NanoRail
import Mathlib.Data.List.DropRight

/-! Units of the Nano rail (`v2/payment-rails/nano.ts`): a decimal text of XNO with up to thirty digits
after the point and the integer text of its raw amount stand for each other. -/
namespace AgentPassport.NanoUnits
open JsText Js FixedDigits
open NanoRail (bigInt baseDigits trimmed RAW_PER_XNO)
open CanonicalInjective (intText)
open DelegationScope (splitOn splitOn_append splitOn_notMem)

/-- `text.padEnd(width, '0')`. -/
def padEnd (text : Str) (width : Nat) : Str := text ++ List.replicate (width - text.length) 0x30

/-- `xnoToRaw` on a string; none is a SyntaxError. -/
def xnoToRaw (xno : Str) : Option Str := do
  let parts := splitOn 0x2E xno
  let first := parts.headD []
  let whole ← bigInt (if first = [] then lit "0" else first)
  let fraction := parts.getD 1 []
  if fraction = [] then return intText (whole * RAW_PER_XNO)
  let dec ← bigInt ((padEnd fraction 30).take 30)
  return intText (whole * RAW_PER_XNO + dec)

def rawToXno (raw : Str) : Option Str := (bigInt raw).map NanoRail.rawToXno

/-- A text of digits, or of digits, a point and at most thirty digits. -/
structure Amount where
  whole : Str
  fraction : Option Str
  whole_digits : whole ≠ [] ∧ ∀ c ∈ whole, isDigit c = true
  fraction_digits : ∀ digits ∈ fraction, digits ≠ [] ∧ digits.length ≤ 30 ∧ ∀ c ∈ digits, isDigit c = true

namespace Amount

def text (a : Amount) : Str := a.whole ++ (a.fraction.map (fun digits => 0x2E :: digits)).getD []

def decimals (a : Amount) : Str := a.fraction.getD []

def value (a : Amount) : ℚ := digitsValue a.whole + digitsValue a.decimals / 10 ^ a.decimals.length

/-- The value in units of `10 ^ -30`. -/
def raw (a : Amount) : Nat := digitsValue a.whole * 10 ^ 30 + digitsValue a.decimals * 10 ^ (30 - a.decimals.length)

end Amount

def withoutTrailing (digits : Str) : Str := digits.rdropWhile (· = 0x30)

/-- Without the zeros at the front, but with one digit left. -/
def withoutLeading (digits : Str) : Str :=
  let rest := digits.dropWhile (· = 0x30)
  if rest = [] then lit "0" else rest

/-- The text without redundant zeros, and without a point that no digit follows. -/
def Amount.reduced (a : Amount) : Str :=
  withoutLeading a.whole ++
    if withoutTrailing a.decimals = [] then [] else 0x2E :: withoutTrailing a.decimals

section
variable {s : Str}

theorem digit_kept {c : UInt16} (h : isDigit c = true) : isTrimmed c = false := by
  obtain ⟨hlow, hhigh⟩ := digit_value h
  have hcases : c = 0x30 ∨ c = 0x31 ∨ c = 0x32 ∨ c = 0x33 ∨ c = 0x34 ∨ c = 0x35 ∨ c = 0x36 ∨ c = 0x37 ∨ c = 0x38 ∨
      c = 0x39 := by
    simp only [← UInt16.toNat_inj]
    show c.toNat = 48 ∨ c.toNat = 49 ∨ c.toNat = 50 ∨ c.toNat = 51 ∨ c.toNat = 52 ∨ c.toNat = 53 ∨ c.toNat = 54 ∨
      c.toNat = 55 ∨ c.toNat = 56 ∨ c.toNat = 57
    omega
  rcases hcases with rfl | rfl | rfl | rfl | rfl | rfl | rfl | rfl | rfl | rfl <;> decide

theorem dropWhile_kept (h : ∀ c ∈ s, isDigit c = true) : s.dropWhile isTrimmed = s := by
  cases s with
  | nil => rfl
  | cons c rest => rw [List.dropWhile_cons, digit_kept (h c List.mem_cons_self)]; rfl

theorem trimmed_digits (h : ∀ c ∈ s, isDigit c = true) : trimmed s = s := by
  rw [trimmed, dropWhile_kept h, dropWhile_kept (fun c hc => h c (List.mem_reverse.mp hc)), List.reverse_reverse]

theorem hexDigit_digit {c : UInt16} (h : isDigit c = true) : hexDigit c = some (c.toNat - 0x30) := by
  rw [hexDigit, if_pos h]

theorem baseDigits_digits (hne : s ≠ []) (h : ∀ c ∈ s, isDigit c = true) : baseDigits 10 s = some (digitsValue s) := by
  have hfold : ∀ (t : Str) (k : Nat), (∀ c ∈ t, isDigit c = true) →
      t.foldlM (fun n c => (hexDigit c).bind (fun d => if d < 10 then some (10 * n + d) else none)) k =
        some (t.foldl (fun n c => n * 10 + (c.toNat - 0x30)) k) := by
    intro t
    induction t with
    | nil => exact fun _ _ => rfl
    | cons c rest ih =>
      intro k ht
      obtain ⟨hc, hrest⟩ := List.forall_mem_cons.mp ht
      obtain ⟨-, hhigh⟩ := digit_value hc
      rw [List.foldlM_cons, List.foldl_cons, hexDigit_digit hc, Option.bind_some, if_pos (by omega), Nat.mul_comm]
      exact ih _ hrest
  rw [baseDigits, if_neg hne, hfold s 0 h, digitsValue]

theorem bigInt_digits (hne : s ≠ []) (h : ∀ c ∈ s, isDigit c = true) : bigInt s = some (digitsValue s : Int) := by
  have hbase := baseDigits_digits hne h
  rw [bigInt, trimmed_digits h]
  split
  · exact absurd rfl hne
  · exact absurd (h _ List.mem_cons_self) (by decide)
  · exact absurd (h _ List.mem_cons_self) (by decide)
  · rename_i c digits
    have hc := h c (List.mem_cons_of_mem _ List.mem_cons_self)
    have hmark : ∀ m : UInt16, isDigit m = false → c ≠ m := by
      intro m hm heq
      rw [heq, hm] at hc
      cases hc
    simp only [hmark 0x78 (by decide), hmark 0x58 (by decide), hmark 0x6F (by decide), hmark 0x4F (by decide),
      hmark 0x62 (by decide), hmark 0x42 (by decide), decide_false, Bool.or_self, Bool.false_eq_true, if_false]
    rw [hbase]
    rfl
  · rw [hbase]
    rfl

theorem intText_nat (n : Nat) : intText n = decimal n := by
  rw [intText, if_neg (by omega), Int.natAbs_natCast]

theorem bigInt_decimal (n : Nat) : bigInt (decimal n) = some (n : Int) := by
  rw [bigInt_digits (decimal_ne_nil n) (fun c hc => decimal_digits hc), digitsValue_decimal]

end

section
variable {s : Str}

theorem padEnd_length (h : s.length ≤ 30) : (padEnd s 30).length = 30 := by
  rw [padEnd, List.length_append, List.length_replicate]
  omega

theorem padEnd_fixed (h : s.length ≤ 30) (hs : ∀ c ∈ s, isDigit c = true) : Fixed 30 (padEnd s 30) := by
  refine ⟨padEnd_length h, ?_⟩
  intro c hc
  obtain hc | hc := List.mem_append.mp hc
  · exact hs c hc
  · rw [List.eq_of_mem_replicate hc]
    decide

theorem digitsValue_padEnd (s : Str) : digitsValue (padEnd s 30) = digitsValue s * 10 ^ (30 - s.length) := by
  rw [padEnd, digitsValue_append, digitsValue_zeros, List.length_replicate, Nat.add_zero]

theorem withoutTrailing_zeros (s : Str) (n : Nat) :
    withoutTrailing (s ++ List.replicate n 0x30) = withoutTrailing s := by
  induction n with
  | zero => rw [List.replicate_zero, List.append_nil]
  | succ n ih =>
    rw [List.replicate_succ', ← List.append_assoc, withoutTrailing, List.rdropWhile_concat,
      if_pos (decide_eq_true rfl)]
    exact ih

theorem padEnd_withoutTrailing (h : s.length = 30) : padEnd (withoutTrailing s) 30 = s := by
  have hsplit : withoutTrailing s ++ s.rtakeWhile (· = 0x30) = s := List.rdropWhile_append_rtakeWhile
  have hlength := congrArg List.length hsplit
  rw [List.length_append, h] at hlength
  have hzeros : s.rtakeWhile (· = 0x30) = List.replicate (30 - (withoutTrailing s).length) 0x30 := by
    rw [List.eq_replicate_iff]
    refine ⟨by omega, ?_⟩
    intro c hc
    have hzero := List.mem_rtakeWhile_imp hc
    exact of_decide_eq_true hzero
  rw [padEnd, ← hzeros, hsplit]

theorem withoutTrailing_nil_iff (hs : ∀ c ∈ s, isDigit c = true) : withoutTrailing s = [] ↔ digitsValue s = 0 := by
  rw [withoutTrailing, List.rdropWhile_eq_nil_iff]
  constructor
  · intro h
    have hzeros : s = List.replicate s.length 0x30 :=
      List.eq_replicate_iff.mpr ⟨rfl, fun c hc => of_decide_eq_true (h c hc)⟩
    rw [hzeros, digitsValue_zeros]
  · intro h
    have hzeros : s = List.replicate s.length 0x30 := by
      refine eq_of_value ⟨rfl, hs⟩ ⟨List.length_replicate, ?_⟩ ?_
      · intro c hc
        rw [List.eq_of_mem_replicate hc]
        decide
      · rw [h, digitsValue_zeros]
    intro c hc
    rw [hzeros] at hc
    exact decide_eq_true (List.eq_of_mem_replicate hc)

theorem digitsValue_dropZeros (s : Str) : digitsValue (s.dropWhile (· = 0x30)) = digitsValue s := by
  induction s with
  | nil => rfl
  | cons c rest ih =>
    by_cases hc : c = 0x30
    · rw [List.dropWhile_cons, if_pos (decide_eq_true hc), ih, digitsValue_cons, hc]
      simp
    · rw [List.dropWhile_cons, if_neg (by simpa using hc)]

theorem decimal_value {c : UInt16} {rest : Str} (hne : c ≠ 0x30) (h : ∀ d ∈ c :: rest, isDigit d = true) :
    decimal (digitsValue (c :: rest)) = c :: rest := by
  have hpad := pad_value (Nat.succ_pos rest.length) (⟨rfl, h⟩ : Fixed (rest.length + 1) (c :: rest))
  obtain ⟨hlow, -⟩ := digit_value (h c List.mem_cons_self)
  have hfirst : c.toNat ≠ 0x30 := fun heq => hne (UInt16.toNat_inj.mp heq)
  have hlarge : 10 ^ rest.length ≤ digitsValue (c :: rest) := by
    have hone : 1 ≤ c.toNat - 0x30 := by omega
    have hmul := Nat.mul_le_mul_right (10 ^ rest.length) hone
    rw [digitsValue_cons]
    omega
  have hlength : rest.length + 1 ≤ (decimal (digitsValue (c :: rest))).length := by
    by_contra hshort
    rw [decimal, List.length_map] at hshort
    obtain hzero | hpos := Nat.eq_zero_or_pos rest.length
    · have hnonempty := List.length_pos_iff.mpr (decimal_ne_nil (digitsValue (c :: rest)))
      rw [decimal, List.length_map] at hnonempty
      omega
    · have hlt : digitsValue (c :: rest) < 10 ^ rest.length :=
        (Nat.length_toDigits_le_iff (by decide) hpos).mp (by omega)
      omega
  rw [pad, Nat.sub_eq_zero_of_le hlength, List.replicate_zero, List.nil_append] at hpad
  exact hpad

theorem decimal_digitsValue (h : ∀ c ∈ s, isDigit c = true) : decimal (digitsValue s) = withoutLeading s := by
  rw [← digitsValue_dropZeros, withoutLeading]
  cases hdrop : s.dropWhile (· = 0x30) with
  | nil => decide
  | cons c rest =>
    have hmem : ∀ d ∈ c :: rest, d ∈ s := fun d hd => (List.dropWhile_sublist _).mem (hdrop ▸ hd)
    have hfirst : c ≠ 0x30 := by
      have hrest : s.dropWhile (· = 0x30) ≠ [] := by rw [hdrop]; exact List.cons_ne_nil _ _
      have hhead := List.head_dropWhile_not _ hrest
      simp only [hdrop, List.head_cons, decide_eq_false_iff_not] at hhead
      exact hhead
    rw [decimal_value hfirst (fun d hd => h d (hmem d hd)), if_neg (List.cons_ne_nil _ _)]

end

section
variable (a b : Amount)

theorem Amount.decimals_digits : a.decimals.length ≤ 30 ∧ ∀ c ∈ a.decimals, isDigit c = true := by
  rw [Amount.decimals]
  cases hfraction : a.fraction with
  | none => exact ⟨Nat.zero_le _, fun _ h => (by cases h)⟩
  | some digits => exact (a.fraction_digits digits hfraction).2

theorem point_notMem {s : Str} (h : ∀ c ∈ s, isDigit c = true) : (0x2E : UInt16) ∉ s := by
  intro hmem
  exact absurd (h _ hmem) (by decide)

theorem Amount.split : (splitOn 0x2E a.text).headD [] = a.whole ∧ (splitOn 0x2E a.text).getD 1 [] = a.decimals := by
  rw [Amount.text, Amount.decimals]
  cases hfraction : a.fraction with
  | none =>
    rw [Option.map_none, Option.getD_none, List.append_nil, splitOn_notMem (point_notMem a.whole_digits.2)]
    exact ⟨rfl, rfl⟩
  | some digits =>
    rw [Option.map_some, Option.getD_some, splitOn_append, splitOn_notMem (point_notMem a.whole_digits.2),
      splitOn_notMem (point_notMem (a.fraction_digits digits hfraction).2.2)]
    exact ⟨rfl, rfl⟩

theorem xnoToRaw_amount : xnoToRaw a.text = some (decimal a.raw) := by
  obtain ⟨hfirst, hsecond⟩ := a.split
  obtain ⟨hlength, hdigits⟩ := a.decimals_digits
  have hraw : RAW_PER_XNO = ((10 ^ 30 : Nat) : Int) := by rw [RAW_PER_XNO, Nat.cast_pow]; rfl
  rw [xnoToRaw, hfirst, hsecond, if_neg a.whole_digits.1, bigInt_digits a.whole_digits.1 a.whole_digits.2, hraw]
  dsimp only [Option.bind_eq_bind, Option.bind_some]
  by_cases hnone : a.decimals = []
  · rw [if_pos hnone, ← Nat.cast_mul, intText_nat, Amount.raw, hnone]
    simp [digitsValue]
  · have hne : padEnd a.decimals 30 ≠ [] := fun h => hnone (List.append_eq_nil_iff.mp h).1
    rw [if_neg hnone, List.take_of_length_le (padEnd_length hlength).le,
      bigInt_digits hne (padEnd_fixed hlength hdigits).2, digitsValue_padEnd, Option.bind_some, ← Nat.cast_mul,
      ← Nat.cast_add, intText_nat, Amount.raw]
    rfl

theorem Amount.raw_value : (a.raw : ℚ) = a.value * 10 ^ 30 := by
  have hpow : (10 : ℚ) ^ 30 = 10 ^ a.decimals.length * 10 ^ (30 - a.decimals.length) := by
    rw [← pow_add, Nat.add_sub_cancel' a.decimals_digits.1]
  have hdecimals : (digitsValue a.decimals : ℚ) / 10 ^ a.decimals.length * 10 ^ 30 =
      digitsValue a.decimals * 10 ^ (30 - a.decimals.length) := by
    rw [hpow, ← mul_assoc, div_mul_cancel₀ _ (by positivity)]
  rw [Amount.raw, Amount.value, add_mul, hdecimals]
  push_cast
  rfl

theorem Amount.value_lt_iff : a.value < b.value ↔ a.raw < b.raw := by
  rw [← Nat.cast_lt (α := ℚ), a.raw_value, b.raw_value]
  exact (mul_lt_mul_iff_of_pos_right (by positivity)).symm

end

def ofRaw (n : Nat) : Amount where
  whole := decimal (n / 10 ^ 30)
  fraction := if n % 10 ^ 30 = 0 then none else some (withoutTrailing (pad (n % 10 ^ 30) 30))
  whole_digits := ⟨decimal_ne_nil _, fun _ h => decimal_digits h⟩
  fraction_digits := by
    intro digits h
    obtain ⟨hlength, hdigits⟩ : Fixed 30 (pad (n % 10 ^ 30) 30) :=
      fixed_pad (by omega) (Nat.mod_lt n (by positivity))
    split at h
    · cases h
    · rename_i hrest
      obtain rfl := Option.some.inj h
      have hsub := List.rdropWhile_prefix (· = (0x30 : UInt16)) (pad (n % 10 ^ 30) 30)
      have hle := hsub.length_le
      rw [hlength] at hle
      refine ⟨?_, hle, fun c hc => hdigits c (hsub.subset hc)⟩
      rw [ne_eq, withoutTrailing_nil_iff hdigits, digitsValue_pad]
      exact hrest

theorem ofRaw_decimals (n : Nat) : (ofRaw n).decimals = withoutTrailing (pad (n % 10 ^ 30) 30) := by
  rw [Amount.decimals, ofRaw]
  dsimp only
  by_cases hrest : n % 10 ^ 30 = 0
  · have hzeros : withoutTrailing (pad 0 30) = [] :=
      (withoutTrailing_nil_iff (fixed_pad (by omega) (by positivity)).2).mpr (digitsValue_pad 0 30)
    rw [if_pos hrest, hrest, hzeros]
    rfl
  · rw [if_neg hrest]
    rfl

theorem ofRaw_raw (n : Nat) : (ofRaw n).raw = n := by
  have hfixed : Fixed 30 (pad (n % 10 ^ 30) 30) := fixed_pad (by omega) (Nat.mod_lt n (by positivity))
  have hwhole : digitsValue (ofRaw n).whole = n / 10 ^ 30 := digitsValue_decimal _
  rw [Amount.raw, ← digitsValue_padEnd, ofRaw_decimals, padEnd_withoutTrailing hfixed.1, digitsValue_pad, hwhole]
  exact Nat.div_add_mod' n (10 ^ 30)

theorem rawToXno_decimal (n : Nat) : rawToXno (decimal n) = some (ofRaw n).text := by
  have hper : RAW_PER_XNO = ((10 ^ 30 : Nat) : Int) := by rw [RAW_PER_XNO, Nat.cast_pow]; rfl
  rw [rawToXno, bigInt_decimal, Option.map_some, NanoRail.rawToXno, hper]
  dsimp only
  rw [← Int.ofNat_tdiv, ← Int.ofNat_tmod, intText_nat, intText_nat, Amount.text, ofRaw]
  dsimp only
  by_cases hrest : n % 10 ^ 30 = 0
  · rw [if_pos hrest, if_pos (by rw [hrest]; rfl), Option.map_none, Option.getD_none, List.append_nil]
  · have hrestInt : ((n % 10 ^ 30 : Nat) : Int) ≠ 0 := fun h => hrest (Int.ofNat_eq_zero.mp h)
    rw [if_neg hrest, if_neg hrestInt, List.append_assoc]
    rfl

theorem ofRaw_reduced (a : Amount) : (ofRaw a.raw).text = a.reduced := by
  obtain ⟨hlength, hdigits⟩ := a.decimals_digits
  have hfixed := padEnd_fixed hlength hdigits
  have hlt : digitsValue (padEnd a.decimals 30) < 10 ^ 30 := by
    have hvalue := digitsValue_lt hfixed.2
    rwa [hfixed.1] at hvalue
  have hraw : a.raw = digitsValue (padEnd a.decimals 30) + 10 ^ 30 * digitsValue a.whole := by
    rw [Amount.raw, digitsValue_padEnd, Nat.add_comm, Nat.mul_comm (10 ^ 30)]
  have hdiv : a.raw / 10 ^ 30 = digitsValue a.whole := by
    rw [hraw, Nat.add_mul_div_left _ _ (by positivity), Nat.div_eq_of_lt hlt, Nat.zero_add]
  have hmod : a.raw % 10 ^ 30 = digitsValue (padEnd a.decimals 30) := by
    rw [hraw, Nat.add_mul_mod_self_left, Nat.mod_eq_of_lt hlt]
  have htrailing : withoutTrailing (padEnd a.decimals 30) = withoutTrailing a.decimals := withoutTrailing_zeros _ _
  have hempty : withoutTrailing a.decimals = [] ↔ digitsValue (padEnd a.decimals 30) = 0 := by
    rw [← htrailing, withoutTrailing_nil_iff hfixed.2]
  rw [Amount.text, Amount.reduced, ofRaw]
  dsimp only
  rw [hdiv, hmod, decimal_digitsValue a.whole_digits.2, pad_value (by omega) hfixed, htrailing]
  by_cases hzero : digitsValue (padEnd a.decimals 30) = 0
  · rw [if_pos hzero, if_pos (hempty.mpr hzero)]
    rfl
  · rw [if_neg hzero, if_neg (fun h => hzero (hempty.mp h))]
    rfl

/-- The conversions are exact, inverse to each other and strictly monotone. -/
theorem units_exact :
    (∀ n : Nat, (rawToXno (decimal n)).bind xnoToRaw = some (decimal n)) ∧
    (∀ a : Amount, xnoToRaw a.text = some (decimal a.raw) ∧ (a.raw : ℚ) = a.value * 10 ^ 30 ∧
      (xnoToRaw a.text).bind rawToXno = some a.reduced) ∧
    (∀ a b : Amount, a.value < b.value ↔ a.raw < b.raw) ∧
    ∃ written : Nat → Amount, (∀ n, rawToXno (decimal n) = some (written n).text) ∧
      StrictMono (fun n => (written n).value) := by
  refine ⟨?_, ?_, fun a b => a.value_lt_iff b, ofRaw, rawToXno_decimal, ?_⟩
  · intro n
    rw [rawToXno_decimal, Option.bind_some, xnoToRaw_amount, ofRaw_raw]
  · intro a
    refine ⟨xnoToRaw_amount a, a.raw_value, ?_⟩
    rw [xnoToRaw_amount, Option.bind_some, rawToXno_decimal, ofRaw_reduced]
  · intro m n h
    show (ofRaw m).value < (ofRaw n).value
    rw [Amount.value_lt_iff, ofRaw_raw, ofRaw_raw]
    exact h

end AgentPassport.NanoUnits
