import AgentPassport.JsText

/-! Base64 of bytes as Node's `Buffer` writes and reads it. The reader takes both alphabets, passes
over every other unit, stops at the first `=` and drops bits that fill no byte. -/
namespace AgentPassport.Base64
open JsText

def ALPHABET : Str := lit "ABCDEFGHIJKLMNOPQRSTUVWXYZabcdefghijklmnopqrstuvwxyz0123456789+/"

def sextetChar (n : Nat) : UInt16 := ALPHABET.getD n 0

def sextet (c : UInt16) : Option Nat :=
  if 0x41 ≤ c ∧ c ≤ 0x5A then some (c.toNat - 0x41)
  else if 0x61 ≤ c ∧ c ≤ 0x7A then some (c.toNat - 0x61 + 26)
  else if isDigit c then some (c.toNat - 0x30 + 52)
  else if c = 0x2B ∨ c = 0x2D then some 62
  else if c = 0x2F ∨ c = 0x5F then some 63
  else none

/-- The sextets of bytes, three bytes a time; bits that are missing are zero. -/
def toSextets : List UInt8 → List Nat
  | a :: b :: c :: rest =>
    a.toNat / 4 :: (a.toNat % 4 * 16 + b.toNat / 16) :: (b.toNat % 16 * 4 + c.toNat / 64) :: c.toNat % 64 ::
      toSextets rest
  | [a, b] => [a.toNat / 4, a.toNat % 4 * 16 + b.toNat / 16, b.toNat % 16 * 4]
  | [a] => [a.toNat / 4, a.toNat % 4 * 16]
  | [] => []

def ofSextets : List Nat → List UInt8
  | p :: q :: r :: s :: rest =>
    UInt8.ofNat (p * 4 + q / 16) :: UInt8.ofNat (q % 16 * 16 + r / 4) :: UInt8.ofNat (r % 4 * 64 + s) :: ofSextets rest
  | [p, q, r] => [UInt8.ofNat (p * 4 + q / 16), UInt8.ofNat (q % 16 * 16 + r / 4)]
  | [p, q] => [UInt8.ofNat (p * 4 + q / 16)]
  | _ => []

/-- `Buffer.toString('base64')`. -/
def encode (bytes : List UInt8) : Str :=
  (toSextets bytes).map sextetChar ++ List.replicate ((3 - bytes.length % 3) % 3) 0x3D

/-- `Buffer.from(text, 'base64')`. -/
def decode (text : Str) : List UInt8 := ofSextets ((text.takeWhile (· ≠ 0x3D)).filterMap sextet)

theorem toSextets_lt : ∀ (bytes : List UInt8), ∀ n ∈ toSextets bytes, n < 64
  | a :: b :: c :: rest, n, hn => by
    have ha := a.toNat_lt
    have hb := b.toNat_lt
    have hc := c.toNat_lt
    simp only [toSextets, List.mem_cons] at hn
    obtain rfl | rfl | rfl | rfl | hn := hn
    · omega
    · omega
    · omega
    · omega
    · exact toSextets_lt rest n hn
  | [a, b], n, hn => by
    have ha := a.toNat_lt
    have hb := b.toNat_lt
    simp only [toSextets, List.mem_cons, List.not_mem_nil, or_false] at hn
    omega
  | [a], n, hn => by
    have ha := a.toNat_lt
    simp only [toSextets, List.mem_cons, List.not_mem_nil, or_false] at hn
    omega
  | [], n, hn => by simp [toSextets] at hn

theorem ofSextets_toSextets : ∀ bytes : List UInt8, ofSextets (toSextets bytes) = bytes
  | a :: b :: c :: rest => by
    have ha := a.toNat_lt
    have hb := b.toNat_lt
    have hc := c.toNat_lt
    rw [toSextets, ofSextets, ofSextets_toSextets rest,
      show a.toNat / 4 * 4 + (a.toNat % 4 * 16 + b.toNat / 16) / 16 = a.toNat by omega,
      show (a.toNat % 4 * 16 + b.toNat / 16) % 16 * 16 + (b.toNat % 16 * 4 + c.toNat / 64) / 4 = b.toNat by omega,
      show (b.toNat % 16 * 4 + c.toNat / 64) % 4 * 64 + c.toNat % 64 = c.toNat by omega]
    simp only [UInt8.ofNat_toNat]
  | [a, b] => by
    have ha := a.toNat_lt
    have hb := b.toNat_lt
    rw [toSextets, ofSextets, show a.toNat / 4 * 4 + (a.toNat % 4 * 16 + b.toNat / 16) / 16 = a.toNat by omega,
      show (a.toNat % 4 * 16 + b.toNat / 16) % 16 * 16 + (b.toNat % 16 * 4) / 4 = b.toNat by omega]
    simp only [UInt8.ofNat_toNat]
  | [a] => by
    have ha := a.toNat_lt
    rw [toSextets, ofSextets, show a.toNat / 4 * 4 + (a.toNat % 4 * 16) / 16 = a.toNat by omega]
    simp only [UInt8.ofNat_toNat]
  | [] => rfl

theorem sextet_char : ∀ n < 64, sextet (sextetChar n) = some n := by
  decide

theorem char_not_padding : ∀ n < 64, sextetChar n ≠ 0x3D := by
  decide

theorem filterMap_chars {sextets : List Nat} (h : ∀ n ∈ sextets, n < 64) :
    (sextets.map sextetChar).filterMap sextet = sextets := by
  induction sextets with
  | nil => rfl
  | cons n rest ih =>
    obtain ⟨hn, hrest⟩ := List.forall_mem_cons.mp h
    rw [List.map_cons, List.filterMap_cons, sextet_char n hn, ih hrest]

theorem takeWhile_chars {sextets : List Nat} (k : Nat) (h : ∀ n ∈ sextets, n < 64) :
    (sextets.map sextetChar ++ List.replicate k 0x3D).takeWhile (· ≠ 0x3D) = sextets.map sextetChar := by
  have hchars : ∀ c ∈ sextets.map sextetChar, decide (c ≠ 0x3D) = true := by
    intro c hc
    obtain ⟨n, hn, rfl⟩ := List.mem_map.mp hc
    exact decide_eq_true (char_not_padding n (h n hn))
  rw [List.takeWhile_append_of_pos hchars]
  cases k with
  | zero => simp
  | succ k => simp [List.replicate_succ]

theorem decode_encode (bytes : List UInt8) : decode (encode bytes) = bytes := by
  have hlt := toSextets_lt bytes
  rw [decode, encode, takeWhile_chars _ hlt, filterMap_chars hlt, ofSextets_toSextets]

end AgentPassport.Base64
