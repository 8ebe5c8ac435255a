import Mathlib.Data.List.Nodup
import Mathlib.Data.Nat.Bitwise
import Mathlib.Tactic.IntervalCases

/-! Bytes as strings of bits, the most significant bit first. Independent of what the bits mean: words
of any width are read from them, and single bits are set in them. -/
namespace AgentPassport.BitStrings

/-- Bit `i` of a byte string; past its end it is 0. -/
def bitAt (bytes : List UInt8) (i : Nat) : Bool := (bytes.getD (i / 8) 0).toNat.testBit (7 - i % 8)

theorem byte_ext {a b : UInt8} (h : ∀ j < 8, a.toNat.testBit j = b.toNat.testBit j) : a = b := by
  rw [← UInt8.toNat_inj]
  apply Nat.eq_of_testBit_eq
  intro j
  by_cases hj : j < 8
  · exact h j hj
  · have hpow : 2 ^ 8 ≤ 2 ^ j := Nat.pow_le_pow_right (by decide) (by omega)
    rw [Nat.testBit_lt_two_pow (Nat.lt_of_lt_of_le a.toNat_lt hpow),
      Nat.testBit_lt_two_pow (Nat.lt_of_lt_of_le b.toNat_lt hpow)]

theorem ext_bits {a b : List UInt8} (hlen : a.length = b.length) (h : ∀ i < 8 * a.length, bitAt a i = bitAt b i) :
    a = b := by
  apply List.ext_getElem hlen
  intro k hka hkb
  apply byte_ext
  intro j hj
  have hbit := h (8 * k + (7 - j)) (by omega)
  rw [bitAt, bitAt, show (8 * k + (7 - j)) / 8 = k by omega, show 7 - (8 * k + (7 - j)) % 8 = j by omega,
    List.getD_eq_getElem?_getD, List.getD_eq_getElem?_getD, List.getElem?_eq_getElem hka,
    List.getElem?_eq_getElem hkb] at hbit
  exact hbit

/-- The word whose bits are `f 0`, `f 1`, …, the most significant first. -/
def wordOf (f : Nat → Bool) : Nat → Nat
  | 0 => 0
  | n + 1 => 2 * wordOf f n + (f n).toNat

theorem wordOf_lt (f : Nat → Bool) (n : Nat) : wordOf f n < 2 ^ n := by
  induction n with
  | zero => exact Nat.one_pos
  | succ n ih =>
    rw [wordOf, Nat.pow_succ]
    have hbit := Bool.toNat_lt (f n)
    omega

theorem wordOf_congr {f g : Nat → Bool} {n : Nat} (h : ∀ b < n, f b = g b) : wordOf f n = wordOf g n := by
  induction n with
  | zero => rfl
  | succ n ih => rw [wordOf, wordOf, ih (fun b hb => h b (by omega)), h n (by omega)]

theorem testBit_wordOf (f : Nat → Bool) {n b : Nat} (hb : b < n) : (wordOf f n).testBit (n - 1 - b) = f b := by
  induction n with
  | zero => omega
  | succ n ih =>
    rw [wordOf]
    have hbit := Bool.toNat_lt (f n)
    by_cases hlast : b = n
    · subst hlast
      rw [show b + 1 - 1 - b = 0 by omega, Nat.testBit_zero]
      cases f b <;> simp
    · have hrest := ih (by omega)
      rw [show n + 1 - 1 - b = (n - 1 - b) + 1 by omega, Nat.testBit_add_one,
        show (2 * wordOf f n + (f n).toNat) / 2 = wordOf f n by omega, hrest]

/-- `bytes[i >> 3] |= 0x80 >> (i & 7)`. -/
def setBit (bytes : List UInt8) (i : Nat) : List UInt8 :=
  bytes.modify (i / 8) (fun byte => byte ||| (0x80 >>> UInt8.ofNat (i % 8)))

@[simp] theorem setBit_length (bytes : List UInt8) (i : Nat) : (setBit bytes i).length = bytes.length := by
  rw [setBit, List.length_modify]

theorem testBit_single : ∀ k < 8, ∀ j < 8,
    ((0x80 : UInt8) >>> UInt8.ofNat k).toNat.testBit j = decide (j = 7 - k) := by
  decide

theorem bitAt_setBit {bytes : List UInt8} {i : Nat} (hi : i / 8 < bytes.length) (j : Nat) :
    bitAt (setBit bytes i) j = (decide (j = i) || bitAt bytes j) := by
  rw [bitAt, bitAt, setBit, List.getD_eq_getElem?_getD, List.getD_eq_getElem?_getD, List.getElem?_modify]
  by_cases hbyte : i / 8 = j / 8
  · have hget : bytes[j / 8]? = some (bytes[i / 8]) := by
      rw [← hbyte]
      exact List.getElem?_eq_getElem hi
    simp only [hget, hbyte, if_true, Option.map_eq_map, Option.map_some, Option.getD_some]
    rw [UInt8.toNat_or, Nat.testBit_or, testBit_single (i % 8) (by omega) (7 - j % 8) (by omega), Bool.or_comm]
    congr 1
    rw [decide_eq_decide]
    omega
  · have hne : decide (j = i) = false := decide_eq_false (fun h => hbyte (by rw [h]))
    simp only [hbyte, if_false, hne, Bool.false_or]
    cases bytes[j / 8]? <;> rfl

theorem bitAt_zeros (n i : Nat) : bitAt (List.replicate n 0) i = false := by
  rw [bitAt, List.getD_eq_getElem?_getD, List.getElem?_replicate]
  split <;> simp

/-- The mask of the `rem` most significant bits: `(0xff << (8 - rem)) & 0xff`. -/
def highMask (rem : Nat) : UInt8 := 0xFF <<< UInt8.ofNat (8 - rem)

theorem testBit_highMask : ∀ rem < 8, 0 < rem → ∀ q < 8, (highMask rem).toNat.testBit (7 - q) = decide (q < rem) := by
  decide

end AgentPassport.BitStrings
