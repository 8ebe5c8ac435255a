import Mathlib.Data.List.Basic
import Mathlib.Tactic.IntervalCases

/-! JavaScript strings: sequences of UTF-16 code units in code-unit order, with the scans
over them that several modules share. -/
namespace AgentPassport.JsText

abbrev Str := List UInt16

instance (s : Str) (names : List Str) : Decidable (s ∈ names) := List.instDecidableMemOfLawfulBEq s names

/-- The code units of an ASCII literal, which are its bytes. -/
def lit (s : String) : Str := s.toByteArray.data.toList.map UInt8.toUInt16

/-- A literal read off its characters. Evaluating it through its byte array takes quadratic time, so the
proofs about long samples rewrite with this first. -/
theorem lit_ofList (l : List Char) : lit (String.ofList l) = (l.flatMap String.utf8EncodeChar).map UInt8.toUInt16 := by
  rw [lit, String.toByteArray_ofList, List.utf8Encode, List.data_toByteArray]

theorem lit_append (s t : String) : lit (s ++ t) = lit s ++ lit t := by
  rw [lit, lit, lit, String.toByteArray_append, ByteArray.data_append, Array.toList_append, List.map_append]

/-- `String(n)` for a non-negative integer. -/
def decimal (n : Nat) : Str := (Nat.toDigits 10 n).map (fun c => UInt16.ofNat c.toNat)

def isHigh (c : UInt16) : Bool := 0xD800 ≤ c && c ≤ 0xDBFF
def isLow (c : UInt16) : Bool := 0xDC00 ≤ c && c ≤ 0xDFFF

inductive Surrogate where
  | high | low
  deriving DecidableEq

/-- The first unpaired surrogate of a string, as the scans of the code find it: a high one
must be followed at once by a low one, and a low one may stand nowhere else. -/
def loneSurrogate : Str → Option Surrogate
  | [] => none
  | [c] => if isHigh c then some .high else if isLow c then some .low else none
  | c :: d :: rest =>
    if isHigh c then (if isLow d then loneSurrogate rest else some .high)
    else if isLow c then some .low
    else loneSurrogate (d :: rest)

/-- Every code unit is part of a Unicode scalar value. -/
def WellFormed (s : Str) : Prop := loneSurrogate s = none

instance (s : Str) : Decidable (WellFormed s) := inferInstanceAs (Decidable (_ = _))

/-- `Buffer.byteLength(s, 'utf8')`: an unpaired surrogate is encoded as U+FFFD. -/
def byteLength : Str → Nat
  | [] => 0
  | [c] => if c < 0x80 then 1 else if c < 0x800 then 2 else 3
  | c :: d :: rest =>
    if isHigh c && isLow d then 4 + byteLength rest
    else (if c < 0x80 then 1 else if c < 0x800 then 2 else 3) + byteLength (d :: rest)

def isDigit (c : UInt16) : Bool := 0x30 ≤ c && c ≤ 0x39
def isLowerHex (c : UInt16) : Bool := isDigit c || (0x61 ≤ c && c ≤ 0x66)
def isHex (c : UInt16) : Bool := isLowerHex c || (0x41 ≤ c && c ≤ 0x46)

theorem isDigit_of_char {c : Char} (h : c.isDigit = true) : isDigit (UInt16.ofNat c.toNat) = true := by
  have hval : 48 ≤ c.toNat ∧ c.toNat ≤ 57 := by
    simp only [Char.isDigit, Bool.and_eq_true, decide_eq_true_eq, UInt32.le_iff_toNat_le] at h
    exact h
  obtain ⟨hlo, hhi⟩ := hval
  interval_cases c.toNat <;> decide

theorem toNat_of_digit {c : Char} (h : c.isDigit = true) : (UInt16.ofNat c.toNat).toNat = c.toNat := by
  have hlt : c.toNat < 2 ^ 16 := by
    simp only [Char.isDigit, Bool.and_eq_true, decide_eq_true_eq, UInt32.le_iff_toNat_le] at h
    have hhi : c.toNat ≤ 57 := h.2
    omega
  rw [UInt16.toNat_ofNat_of_lt' hlt]

theorem char_of_unit {c : Char} (h : c.isDigit = true) : Char.ofNat (UInt16.ofNat c.toNat).toNat = c := by
  rw [toNat_of_digit h, Char.ofNat_toNat]

theorem decimal_digits {n : Nat} {c : UInt16} (h : c ∈ decimal n) : isDigit c = true := by
  rw [decimal] at h
  obtain ⟨d, hd, rfl⟩ := List.mem_map.mp h
  exact isDigit_of_char (Nat.isDigit_of_mem_toDigits (by decide) (by decide) hd)

theorem decimal_ne_nil (n : Nat) : decimal n ≠ [] := by
  rw [decimal]
  simp

theorem decimal_injective {m n : Nat} (h : decimal m = decimal n) : m = n := by
  have hback : ∀ k, (decimal k).map (fun u => Char.ofNat u.toNat) = Nat.toDigits 10 k := by
    intro k
    rw [decimal, List.map_map]
    conv_rhs => rw [← List.map_id (Nat.toDigits 10 k)]
    apply List.map_congr_left
    intro c hc
    exact char_of_unit (Nat.isDigit_of_mem_toDigits (by decide) (by decide) hc)
  have hdigits : Nat.toDigits 10 m = Nat.toDigits 10 n := by rw [← hback, ← hback, h]
  rw [← Nat.ofDigitChars_ten_toDigits (n := m), hdigits, Nat.ofDigitChars_ten_toDigits]

theorem forall_of_all {p : UInt16 → Prop} [DecidablePred p] {s : Str} (h : s.all (fun c => decide (p c)) = true) :
    ∀ c ∈ s, p c := by
  intro c hc
  exact of_decide_eq_true (List.all_eq_true.mp h c hc)

theorem lowerHex_lt {c : UInt16} (h : isLowerHex c = true) : c.toNat < 0x67 := by
  simp only [isLowerHex, isDigit, Bool.or_eq_true, Bool.and_eq_true, decide_eq_true_eq, UInt16.le_iff_toNat_le] at h
  obtain ⟨-, hle⟩ | ⟨-, hle⟩ := h
  · exact Nat.lt_of_le_of_lt hle (by decide)
  · exact Nat.lt_of_le_of_lt hle (by decide)

def hexDigit (c : UInt16) : Option Nat :=
  if isDigit c then some (c.toNat - 0x30)
  else if 0x61 ≤ c && c ≤ 0x66 then some (c.toNat - 0x57)
  else if 0x41 ≤ c && c ≤ 0x46 then some (c.toNat - 0x37)
  else none

def hexChar (n : Nat) : UInt16 := if n < 10 then UInt16.ofNat (0x30 + n) else UInt16.ofNat (0x57 + n)

/-- A unit that `trim` removes. -/
def isTrimmed (c : UInt16) : Bool :=
  (0x09 ≤ c && c ≤ 0x0D) || c = 0x20 || c = 0xA0 || c = 0x1680 || (0x2000 ≤ c && c ≤ 0x200A) || c = 0x2028 ||
    c = 0x2029 || c = 0x202F || c = 0x205F || c = 0x3000 || c = 0xFEFF

/-- `!text.trim()`. -/
def isBlank (text : Str) : Bool := text.all isTrimmed

/-- `[...new Set(values)]`. -/
def distinct (values : List Str) : List Str := values.eraseDups

theorem mem_distinct {values : List Str} {v : Str} : v ∈ distinct values ↔ v ∈ values := List.mem_eraseDups

theorem nodup_distinct (values : List Str) : (distinct values).Nodup := by
  rw [distinct]
  match values with
  | [] => exact List.nodup_nil
  | value :: rest =>
    rw [List.eraseDups_cons, List.nodup_cons, List.mem_eraseDups]
    have hlt : (rest.filter (fun b => !b == value)).length < rest.length + 1 :=
      Nat.lt_succ_of_le (List.length_filter_le _ _)
    exact ⟨by simp, nodup_distinct _⟩
termination_by values.length

end AgentPassport.JsText
