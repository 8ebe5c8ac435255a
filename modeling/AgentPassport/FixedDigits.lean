import AgentPassport.JsValue
import Mathlib.Tactic.Ring

/-! Decimal numbers of a fixed width: such a text is determined by its value, and the order of
the values is the code-unit order of the texts. -/
namespace AgentPassport.FixedDigits
open JsText Js

def Fixed (width : Nat) (s : Str) : Prop := s.length = width ∧ ∀ c ∈ s, isDigit c = true

instance (width : Nat) (s : Str) : Decidable (Fixed width s) :=
  -- over the units of the text, not over all units
  have : Decidable (∀ c ∈ s, isDigit c = true) := List.decidableBAll _ s
  inferInstanceAs (Decidable (_ ∧ _))

/-- `String(n).padStart(width, '0')` for a non-negative integer. -/
def pad (n width : Nat) : Str := List.replicate (width - (decimal n).length) 0x30 ++ decimal n

theorem digit_value {c : UInt16} (h : isDigit c = true) : 0x30 ≤ c.toNat ∧ c.toNat ≤ 0x39 := by
  simp only [isDigit, Bool.and_eq_true, decide_eq_true_eq, UInt16.le_iff_toNat_le] at h
  exact h

theorem foldl_digits (s : Str) (k : Nat) :
    s.foldl (fun n c => n * 10 + (c.toNat - 0x30)) k = k * 10 ^ s.length + digitsValue s := by
  induction s generalizing k with
  | nil => simp [digitsValue]
  | cons c s ih =>
    have hcons : digitsValue (c :: s) = (c.toNat - 0x30) * 10 ^ s.length + digitsValue s := by
      rw [digitsValue, List.foldl_cons, ih]
      simp
    rw [List.foldl_cons, ih, hcons, List.length_cons]
    ring

theorem digitsValue_cons (c : UInt16) (s : Str) :
    digitsValue (c :: s) = (c.toNat - 0x30) * 10 ^ s.length + digitsValue s := by
  rw [digitsValue, List.foldl_cons, foldl_digits]
  simp

theorem digitsValue_append (s t : Str) :
    digitsValue (s ++ t) = digitsValue s * 10 ^ t.length + digitsValue t := by
  rw [digitsValue, List.foldl_append, foldl_digits]
  rfl

theorem digitsValue_lt {s : Str} (h : ∀ c ∈ s, isDigit c = true) : digitsValue s < 10 ^ s.length := by
  induction s with
  | nil => simp [digitsValue]
  | cons c s ih =>
    obtain ⟨hc, hs⟩ := List.forall_mem_cons.mp h
    obtain ⟨-, hhigh⟩ := digit_value hc
    have hrest := ih hs
    have hdigit : (c.toNat - 0x30) * 10 ^ s.length ≤ 9 * 10 ^ s.length :=
      Nat.mul_le_mul_right _ (by omega)
    rw [digitsValue_cons, List.length_cons, pow_succ]
    omega

theorem digitsValue_zeros (n : Nat) : digitsValue (List.replicate n 0x30) = 0 := by
  induction n with
  | zero => rfl
  | succ n ih =>
    rw [List.replicate_succ, digitsValue_cons, ih]
    simp

theorem digitsValue_pad (n width : Nat) : digitsValue (pad n width) = n := by
  rw [pad, digitsValue_append, digitsValue_zeros, digitsValue_decimal]
  simp

theorem fixed_pad {n width : Nat} (hpos : 0 < width) (h : n < 10 ^ width) : Fixed width (pad n width) := by
  have hlen : (decimal n).length ≤ width := by
    rw [decimal, List.length_map]
    exact (Nat.length_toDigits_le_iff (by decide) hpos).mpr h
  refine ⟨?_, ?_⟩
  · rw [pad, List.length_append, List.length_replicate]
    omega
  · intro c hc
    obtain hc | hc := List.mem_append.mp hc
    · rw [List.eq_of_mem_replicate hc]
      decide
    · exact decimal_digits hc

theorem lt_iff_value {s t : Str} (hs : ∀ c ∈ s, isDigit c = true) (ht : ∀ c ∈ t, isDigit c = true)
    (hlen : s.length = t.length) : s < t ↔ digitsValue s < digitsValue t := by
  induction s generalizing t with
  | nil =>
    cases t with
    | nil => simp
    | cons d t => cases hlen
  | cons c s ih =>
    cases t with
    | nil => cases hlen
    | cons d t =>
      obtain ⟨hc, hs⟩ := List.forall_mem_cons.mp hs
      obtain ⟨hd, ht⟩ := List.forall_mem_cons.mp ht
      have hlen' : s.length = t.length := by simpa using hlen
      have hvs := digitsValue_lt hs
      have hvt := digitsValue_lt ht
      obtain ⟨hclow, -⟩ := digit_value hc
      obtain ⟨hdlow, -⟩ := digit_value hd
      rw [List.cons_lt_cons_iff, ih hs ht hlen', digitsValue_cons, digitsValue_cons, hlen',
        UInt16.lt_iff_toNat_lt, ← UInt16.toNat_inj]
      rw [hlen'] at hvs
      generalize 10 ^ t.length = p at *
      obtain hlt | heq | hgt := Nat.lt_trichotomy c.toNat d.toNat
      · have hstep : (c.toNat - 0x30 + 1) * p ≤ (d.toNat - 0x30) * p := Nat.mul_le_mul_right _ (by omega)
        rw [Nat.add_mul] at hstep
        constructor
        · intro _
          omega
        · exact fun _ => .inl hlt
      · rw [heq]
        constructor
        · rintro (h | ⟨-, h⟩) <;> omega
        · exact fun h => .inr ⟨rfl, by omega⟩
      · have hstep : (d.toNat - 0x30 + 1) * p ≤ (c.toNat - 0x30) * p := Nat.mul_le_mul_right _ (by omega)
        rw [Nat.add_mul] at hstep
        constructor
        · rintro (h | ⟨h, -⟩) <;> omega
        · intro h
          omega

theorem eq_of_value {width : Nat} {s t : Str} (hs : Fixed width s) (ht : Fixed width t)
    (h : digitsValue s = digitsValue t) : s = t := by
  have hlen : s.length = t.length := hs.1.trans ht.1.symm
  have hst : ¬ s < t := by
    rw [lt_iff_value hs.2 ht.2 hlen]
    omega
  have hts : ¬ t < s := by
    rw [lt_iff_value ht.2 hs.2 hlen.symm]
    omega
  exact List.le_antisymm (List.not_lt.mp hts) (List.not_lt.mp hst)

theorem pad_value {width : Nat} {s : Str} (hpos : 0 < width) (hs : Fixed width s) :
    pad (digitsValue s) width = s := by
  have hlt : digitsValue s < 10 ^ width := by
    rw [← hs.1]
    exact digitsValue_lt hs.2
  exact eq_of_value (fixed_pad hpos hlt) hs (digitsValue_pad _ _)

theorem append_lt_append_iff {s t x y : Str} (hlen : s.length = t.length) :
    s ++ x < t ++ y ↔ s < t ∨ s = t ∧ x < y := by
  induction s generalizing t with
  | nil =>
    cases t with
    | nil => simp
    | cons d t => cases hlen
  | cons c s ih =>
    cases t with
    | nil => cases hlen
    | cons d t =>
      rw [List.cons_append, List.cons_append, List.cons_lt_cons_iff, List.cons_lt_cons_iff,
        ih (by simpa using hlen), List.cons.injEq]
      constructor
      · rintro (h | ⟨rfl, h | ⟨rfl, h⟩⟩)
        · exact .inl (.inl h)
        · exact .inl (.inr ⟨rfl, h⟩)
        · exact .inr ⟨⟨rfl, rfl⟩, h⟩
      · rintro ((h | ⟨rfl, h⟩) | ⟨⟨rfl, rfl⟩, h⟩)
        · exact .inl h
        · exact .inr ⟨rfl, .inl h⟩
        · exact .inr ⟨rfl, .inr ⟨rfl, h⟩⟩

end AgentPassport.FixedDigits
