import AgentPassport.Base64
import Mathlib.Data.Nat.Digits.Lemmas

/-! The strict base64url decoder of the key resolver. It shifts every unit into one 32-bit word that it never
masks, so the word is described by its low bits only: those that have not yet filled a byte. -/
namespace AgentPassport.Base64Url
open JsText Base64

/-- A unit that `/^[A-Za-z0-9_-]+$/` takes. -/
def isUrlUnit (c : UInt16) : Bool :=
  (0x41 ≤ c && c ≤ 0x5A) || (0x61 ≤ c && c ≤ 0x7A) || isDigit c || c = 0x5F || c = 0x2D

def lookup (c : UInt16) : Int :=
  if 0x41 ≤ c ∧ c ≤ 0x5A then c.toNat - 65
  else if 0x61 ≤ c ∧ c ≤ 0x7A then c.toNat - 71
  else if isDigit c then c.toNat + 4
  else if c = 0x2D then 62
  else if c = 0x5F then 63
  else -1

/-- What the loop carries from unit to unit. -/
structure Accumulator where
  buffer : BitVec 32
  bits : Nat
  out : List UInt8

/-- One turn of the loop, at a unit of value `v`. -/
def push (acc : Accumulator) (v : Int) : Accumulator :=
  let buffer := acc.buffer <<< 6 ||| BitVec.ofInt 32 v
  let bits := acc.bits + 6
  if 8 ≤ bits then
    { buffer, bits := bits - 8, out := acc.out ++ [UInt8.ofNat (buffer.sshiftRight (bits - 8) &&& 0xFF).toNat] }
  else { acc with buffer, bits }

def readUnits (acc : Accumulator) : Str → Option Accumulator
  | [] => some acc
  | c :: rest => if lookup c < 0 then none else readUnits (push acc (lookup c)) rest

/-- Bits that are left over at the end must be zero. -/
def strayBits (acc : Accumulator) : Bool :=
  0 < acc.bits && acc.buffer &&& ((1 : BitVec 32) <<< acc.bits - 1) ≠ 0

def decodeBase64Url (input : Str) : Option (List UInt8) :=
  if input.length = 0 then none
  else if ¬ input.all isUrlUnit then none
  else if input.length % 4 = 1 then none
  else match readUnits ⟨0, 0, []⟩ input with
    | none => none
    | some acc => if strayBits acc then none else some acc.out

def URL_ALPHABET : Str := lit "ABCDEFGHIJKLMNOPQRSTUVWXYZabcdefghijklmnopqrstuvwxyz0123456789-_"

def urlChar (n : Nat) : UInt16 := URL_ALPHABET.getD n 0

/-- The canonical encoding of bytes without padding: the last sextet is filled up with zero bits. -/
def encodeUrl (bytes : List UInt8) : Str := (toSextets bytes).map urlChar

theorem urlChar_sextet {n : Nat} (h : n < 64) : isUrlUnit (urlChar n) = true ∧ (lookup (urlChar n)).toNat = n := by
  have hlow : ∀ k < 32, isUrlUnit (urlChar k) = true ∧ (lookup (urlChar k)).toNat = k := by decide
  have hhigh : ∀ k < 32, isUrlUnit (urlChar (32 + k)) = true ∧ (lookup (urlChar (32 + k))).toNat = 32 + k := by
    decide
  by_cases hn : n < 32
  · exact hlow n hn
  · rw [show n = 32 + (n - 32) by omega]
    exact hhigh (n - 32) (by omega)

/-- A unit of the alphabet has a sextet, and it is the unit that writes this sextet. -/
def Sextet (c : UInt16) : Prop := (lookup c).toNat < 64 ∧ lookup c = (lookup c).toNat ∧ urlChar (lookup c).toNat = c

instance (c : UInt16) : Decidable (Sextet c) := inferInstanceAs (Decidable (_ ∧ _))

theorem sextet_lower : ∀ k < 64, isUrlUnit (UInt16.ofNat k) = true → Sextet (UInt16.ofNat k) := by
  decide

theorem sextet_upper : ∀ k < 64, isUrlUnit (UInt16.ofNat (64 + k)) = true → Sextet (UInt16.ofNat (64 + k)) := by
  decide

theorem isUrlUnit_lt {c : UInt16} (h : isUrlUnit c = true) : c.toNat < 128 := by
  simp only [isUrlUnit, isDigit, Bool.or_eq_true, Bool.and_eq_true, decide_eq_true_eq, UInt16.le_iff_toNat_le] at h
  obtain (((⟨-, hle⟩ | ⟨-, hle⟩) | ⟨-, hle⟩) | rfl) | rfl := h
  · exact Nat.lt_of_le_of_lt hle (by decide)
  · exact Nat.lt_of_le_of_lt hle (by decide)
  · exact Nat.lt_of_le_of_lt hle (by decide)
  · decide
  · decide

theorem sextet_of_isUrlUnit {c : UInt16} (h : isUrlUnit c = true) : Sextet c := by
  have hlt := isUrlUnit_lt h
  rw [← UInt16.ofNat_toNat (x := c)] at h ⊢
  by_cases hlow : c.toNat < 64
  · exact sextet_lower c.toNat hlow h
  · rw [show c.toNat = 64 + (c.toNat - 64) by omega] at h ⊢
    exact sextet_upper (c.toNat - 64) (by omega) h

/-- The number that digits write, the most significant first. -/
def value (base : Nat) (digits : List Nat) : Nat := Nat.ofDigits base digits.reverse

theorem value_concat (base : Nat) (digits : List Nat) (d : Nat) :
    value base (digits ++ [d]) = value base digits * base + d := by
  rw [value, List.reverse_concat, Nat.ofDigits_cons, value, Nat.mul_comm]
  exact Nat.add_comm _ _

theorem value_append (base : Nat) (front rest : List Nat) :
    value base (front ++ rest) = value base front * base ^ rest.length + value base rest := by
  rw [value, List.reverse_append, Nat.ofDigits_append, List.length_reverse, value, value, Nat.mul_comm, Nat.add_comm]

theorem value_inj {base : Nat} (hbase : 1 < base) {a b : List Nat} (hlength : a.length = b.length)
    (ha : ∀ d ∈ a, d < base) (hb : ∀ d ∈ b, d < base) (h : value base a = value base b) : a = b := by
  apply List.reverse_injective
  apply Nat.ofDigits_inj_of_len_eq hbase _ _ _ h
  · rw [List.length_reverse, List.length_reverse, hlength]
  · exact fun d hd => ha d (List.mem_reverse.mp hd)
  · exact fun d hd => hb d (List.mem_reverse.mp hd)

def bytesValue (bytes : List UInt8) : Nat := value 256 (bytes.map UInt8.toNat)

theorem bytesValue_concat (bytes : List UInt8) (byte : UInt8) :
    bytesValue (bytes ++ [byte]) = bytesValue bytes * 256 + byte.toNat := by
  rw [bytesValue, List.map_append, List.map_singleton, value_concat, bytesValue]

theorem bytesValue_append (front rest : List UInt8) :
    bytesValue (front ++ rest) = bytesValue front * 256 ^ rest.length + bytesValue rest := by
  rw [bytesValue, List.map_append, value_append, List.length_map, bytesValue, bytesValue]

theorem bytesValue_inj {a b : List UInt8} (hlength : a.length = b.length) (h : bytesValue a = bytesValue b) :
    a = b := by
  have hlt : ∀ bytes : List UInt8, ∀ d ∈ bytes.map UInt8.toNat, d < 256 := by
    intro bytes d hd
    obtain ⟨byte, -, rfl⟩ := List.mem_map.mp hd
    exact byte.toNat_lt
  have hmap : a.map UInt8.toNat = b.map UInt8.toNat :=
    value_inj (by omega) (by rw [List.length_map, List.length_map, hlength]) (hlt a) (hlt b) h
  exact List.map_injective_iff.mpr (fun _ _ => UInt8.toNat_inj.mp) hmap

/-- The zero bits that fill up the last sextet of `n` bytes. -/
def fillBits (n : Nat) : Nat := n % 3 * 4 % 6

theorem fillBits_lt (n : Nat) : fillBits n < 6 := Nat.mod_lt _ (by omega)

theorem toSextets_length : ∀ bytes : List UInt8,
    6 * (toSextets bytes).length = 8 * bytes.length + fillBits bytes.length
  | a :: b :: c :: rest => by
    have ih := toSextets_length rest
    rw [fillBits] at ih ⊢
    simp only [toSextets, List.length_cons]
    omega
  | [_, _] => by simp [toSextets, fillBits]
  | [_] => by simp [toSextets, fillBits]
  | [] => rfl

theorem value_toSextets : ∀ bytes : List UInt8,
    value 64 (toSextets bytes) = bytesValue bytes * 2 ^ fillBits bytes.length
  | a :: b :: c :: rest => by
    have ih := value_toSextets rest
    have hlength := toSextets_length rest
    have hb := b.toNat_lt
    have hfill : fillBits (a :: b :: c :: rest).length = fillBits rest.length := by
      rw [fillBits, fillBits, List.length_cons, List.length_cons, List.length_cons, Nat.add_assoc, Nat.add_assoc,
        Nat.add_mod_right]
    have hpow : 64 ^ (toSextets rest).length = 256 ^ rest.length * 2 ^ fillBits rest.length := by
      rw [show 64 = 2 ^ 6 by rfl, show 256 = 2 ^ 8 by rfl, ← Nat.pow_mul, ← Nat.pow_mul, ← Nat.pow_add, hlength]
    have hgroup : value 64 [a.toNat / 4, a.toNat % 4 * 16 + b.toNat / 16, b.toNat % 16 * 4 + c.toNat / 64,
        c.toNat % 64] = bytesValue [a, b, c] := by
      simp only [value, bytesValue, List.map_cons, List.map_nil, List.reverse_cons, List.reverse_nil, List.nil_append,
        List.cons_append, Nat.ofDigits_cons, Nat.ofDigits_nil]
      omega
    rw [show toSextets (a :: b :: c :: rest) = [a.toNat / 4, a.toNat % 4 * 16 + b.toNat / 16,
        b.toNat % 16 * 4 + c.toNat / 64, c.toNat % 64] ++ toSextets rest by rfl, value_append, hgroup, hpow, ih, hfill,
      show a :: b :: c :: rest = [a, b, c] ++ rest by rfl, bytesValue_append]
    ring
  | [a, b] => by
    have hfill : 2 ^ fillBits 2 = 4 := by decide
    rw [List.length_cons, List.length_singleton, hfill]
    simp only [value, bytesValue, toSextets, List.map_cons, List.map_nil, List.reverse_cons, List.reverse_nil,
      List.nil_append, List.cons_append, Nat.ofDigits_cons, Nat.ofDigits_nil]
    omega
  | [a] => by
    have hfill : 2 ^ fillBits [a].length = 16 := rfl
    rw [hfill]
    simp only [value, bytesValue, toSextets, List.map_cons, List.map_nil, List.reverse_cons, List.reverse_nil,
      List.nil_append, List.cons_append, Nat.ofDigits_cons, Nat.ofDigits_nil]
    omega
  | [] => rfl

/-- What is shifted in stands below the low bits that were there; whatever leaves the word at the top is
above the bits looked at. -/
theorem toNat_push (buffer : BitVec 32) {v bits : Nat} (hv : v < 64) (hbits : bits < 8) :
    (buffer <<< 6 ||| BitVec.ofInt 32 v).toNat % 2 ^ (bits + 6) = buffer.toNat % 2 ^ bits * 64 + v := by
  have hshift : (buffer <<< 6 ||| BitVec.ofInt 32 v).toNat = buffer.toNat * 64 % 2 ^ 32 + v := by
    rw [BitVec.toNat_or, BitVec.toNat_shiftLeft, BitVec.ofInt_natCast, BitVec.toNat_ofNat, Nat.shiftLeft_eq,
      Nat.mod_eq_of_lt (a := v) (by omega), show 2 ^ 32 = 2 ^ 26 * 2 ^ 6 by rfl, Nat.mul_mod_mul_right,
      ← Nat.shiftLeft_eq, ← Nat.shiftLeft_add_eq_or_of_lt hv, Nat.shiftLeft_eq]
  have hword : 2 ^ 32 = 2 ^ (bits + 6) * 2 ^ (26 - bits) := by rw [← Nat.pow_add]; congr 1; omega
  have hsplit : buffer.toNat * 64 % 2 ^ (bits + 6) = buffer.toNat % 2 ^ bits * 64 := by
    rw [Nat.pow_add, show 64 = 2 ^ 6 by rfl, Nat.mul_mod_mul_right]
  have hlt : buffer.toNat % 2 ^ bits * 64 + v < 2 ^ (bits + 6) := by
    have hmod := Nat.mod_lt buffer.toNat (Nat.two_pow_pos bits)
    rw [Nat.pow_add]
    omega
  rw [hshift, Nat.add_mod, hword, Nat.mod_mul_right_mod, hsplit, ← Nat.add_mod_mod, Nat.mod_mod, Nat.add_mod_mod,
    Nat.mod_eq_of_lt hlt]

theorem toNat_pull {buffer : BitVec 32} {k : Nat} (hk : k < 8) :
    (buffer.sshiftRight k &&& 0xFF).toNat = buffer.toNat / 2 ^ k % 256 := by
  have hlow : (buffer.sshiftRight k).toNat % 2 ^ 8 = buffer.toNat / 2 ^ k % 2 ^ 8 := by
    apply Nat.eq_of_testBit_eq
    intro i
    rw [Nat.testBit_mod_two_pow, Nat.testBit_mod_two_pow, Nat.testBit_div_two_pow, BitVec.testBit_toNat,
      BitVec.testBit_toNat, BitVec.getLsbD_sshiftRight]
    by_cases hi : i < 8
    · rw [if_pos (by omega), decide_eq_false (by omega : ¬32 ≤ i), Nat.add_comm k i]
      rfl
    · rw [decide_eq_false hi, Bool.false_and, Bool.false_and]
  rw [BitVec.toNat_and, show (0xFF : BitVec 32).toNat = 2 ^ 8 - 1 by rfl, Nat.and_two_pow_sub_one_eq_mod, hlow,
    show 2 ^ 8 = 256 by rfl]

/-- What has been read stands in the finished bytes and in the low bits of the word. -/
structure Reads (sextets : List Nat) (acc : Accumulator) : Prop where
  bits_lt : acc.bits < 8
  size : 8 * acc.out.length + acc.bits = 6 * sextets.length
  value : value 64 sextets = bytesValue acc.out * 2 ^ acc.bits + acc.buffer.toNat % 2 ^ acc.bits

variable {acc : Accumulator}

theorem Reads.push {sextets : List Nat} (h : Reads sextets acc) {v : Nat} (hv : v < 64) :
    Reads (sextets ++ [v]) (push acc v) := by
  obtain ⟨hbits, hsize, hvalue⟩ := h
  have hlow := toNat_push acc.buffer hv hbits
  have htotal : Base64Url.value 64 (sextets ++ [v]) = bytesValue acc.out * 2 ^ (acc.bits + 6) +
      (acc.buffer <<< 6 ||| BitVec.ofInt 32 v).toNat % 2 ^ (acc.bits + 6) := by
    rw [value_concat, hvalue, hlow, Nat.pow_add]
    ring
  rw [Base64Url.push]
  by_cases hfull : 8 ≤ acc.bits + 6
  · rw [if_pos hfull]
    refine ⟨?_, ?_, ?_⟩
    · show acc.bits + 6 - 8 < 8
      omega
    · show 8 * (acc.out ++ [_]).length + (acc.bits + 6 - 8) = 6 * (sextets ++ [v]).length
      rw [List.length_append, List.length_append, List.length_singleton, List.length_singleton]
      omega
    · obtain ⟨k, hk⟩ : ∃ k, acc.bits + 6 = k + 8 := ⟨acc.bits + 6 - 8, by omega⟩
      rw [htotal, hk, Nat.add_sub_cancel]
      show _ = bytesValue (acc.out ++ [_]) * 2 ^ k + _ % 2 ^ k
      rw [bytesValue_concat, toNat_pull (by omega), UInt8.toNat_ofNat', Nat.mod_mod, Nat.pow_add, Nat.mod_mul]
      ring
  · rw [if_neg hfull]
    refine ⟨?_, ?_, htotal⟩
    · show acc.bits + 6 < 8
      omega
    · show 8 * acc.out.length + (acc.bits + 6) = 6 * (sextets ++ [v]).length
      rw [List.length_append, List.length_singleton]
      omega

theorem start_reads : Reads [] ⟨0, 0, []⟩ := ⟨by decide, rfl, rfl⟩

def sextets (input : Str) : List Nat := input.map (fun c => (lookup c).toNat)

theorem readUnits_reads {input : Str} (hall : ∀ c ∈ input, isUrlUnit c = true) {front : List Nat} (h : Reads front acc) :
    ∃ last, readUnits acc input = some last ∧ Reads (front ++ sextets input) last := by
  induction input generalizing front acc with
  | nil => exact ⟨acc, rfl, by rwa [sextets, List.map_nil, List.append_nil]⟩
  | cons c rest ih =>
    obtain ⟨hc, hrest⟩ := List.forall_mem_cons.mp hall
    obtain ⟨hlt, hlookup, -⟩ := sextet_of_isUrlUnit hc
    have hstep : Reads (front ++ [(lookup c).toNat]) (push acc (lookup c)) := by
      rw [hlookup]
      exact h.push hlt
    obtain ⟨last, hread, hlast⟩ := ih hrest hstep
    refine ⟨last, ?_, ?_⟩
    · rw [readUnits, if_neg (by omega), hread]
    · rw [List.append_assoc] at hlast
      exact hlast

theorem strayBits_iff (hbits : acc.bits < 8) : strayBits acc = false ↔ acc.buffer.toNat % 2 ^ acc.bits = 0 := by
  have hmask : (acc.buffer &&& ((1 : BitVec 32) <<< acc.bits - 1)).toNat = acc.buffer.toNat % 2 ^ acc.bits := by
    have hone : ((1 : BitVec 32) <<< acc.bits - 1).toNat = 2 ^ acc.bits - 1 := by
      interval_cases acc.bits <;> decide
    rw [BitVec.toNat_and, hone, Nat.and_two_pow_sub_one_eq_mod]
  have hzero : acc.buffer &&& ((1 : BitVec 32) <<< acc.bits - 1) = 0 ↔ acc.buffer.toNat % 2 ^ acc.bits = 0 := by
    rw [← hmask, ← BitVec.toNat_inj]
    rfl
  rw [strayBits, Bool.and_eq_false_iff, decide_eq_false_iff_not, decide_eq_false_iff_not, not_not, hzero]
  constructor
  · rintro (hnone | hlow)
    · rw [show acc.bits = 0 by omega, Nat.pow_zero, Nat.mod_one]
    · exact hlow
  · exact Or.inr

theorem toSextets_length_mod (bytes : List UInt8) : (toSextets bytes).length % 4 ≠ 1 := by
  have hlength := toSextets_length bytes
  rw [fillBits] at hlength
  omega

theorem Reads.canonical_iff {digits : List Nat} (h : Reads digits acc) (hlt : ∀ d ∈ digits, d < 64)
    (hmod : digits.length % 4 ≠ 1) (bytes : List UInt8) :
    acc.buffer.toNat % 2 ^ acc.bits = 0 ∧ acc.out = bytes ↔ digits = toSextets bytes := by
  obtain ⟨hbits, hsize, hvalue⟩ := h
  have hlength := toSextets_length bytes
  have hfill := fillBits_lt bytes.length
  constructor
  · rintro ⟨hlow, rfl⟩
    have hbelow : acc.bits < 6 := by omega
    have hsame : digits.length = (toSextets acc.out).length := by omega
    have heq : acc.bits = fillBits acc.out.length := by omega
    apply value_inj (by omega) hsame hlt (toSextets_lt acc.out)
    rw [hvalue, hlow, Nat.add_zero, value_toSextets, heq]
  · rintro rfl
    have hsame : acc.out.length = bytes.length := by omega
    have heq : acc.bits = fillBits bytes.length := by omega
    have hpos := Nat.two_pow_pos (fillBits bytes.length)
    have hmodlt := Nat.mod_lt acc.buffer.toNat hpos
    rw [value_toSextets, heq] at hvalue
    have hlow : acc.buffer.toNat % 2 ^ fillBits bytes.length = 0 := by
      have hrest := congrArg (· % 2 ^ fillBits bytes.length) hvalue
      rw [Nat.mul_mod_left, Nat.add_comm, Nat.add_mul_mod_self_right, Nat.mod_mod] at hrest
      exact hrest.symm
    rw [hlow, Nat.add_zero] at hvalue
    exact ⟨by rw [heq]; exact hlow, bytesValue_inj hsame (Nat.eq_of_mul_eq_mul_right hpos hvalue).symm⟩

theorem eq_encodeUrl_iff (input : Str) (bytes : List UInt8) :
    input = encodeUrl bytes ↔ (∀ c ∈ input, isUrlUnit c = true) ∧ sextets input = toSextets bytes := by
  constructor
  · rintro rfl
    have hlt := toSextets_lt bytes
    constructor
    · intro c hc
      obtain ⟨n, hn, rfl⟩ := List.mem_map.mp hc
      exact (urlChar_sextet (hlt n hn)).1
    · rw [sextets, encodeUrl, List.map_map]
      conv_rhs => rw [← List.map_id (toSextets bytes)]
      exact List.map_congr_left fun n hn => (urlChar_sextet (hlt n hn)).2
  · rintro ⟨hall, hsextets⟩
    rw [encodeUrl, ← hsextets, sextets, List.map_map]
    conv_lhs => rw [← List.map_id input]
    exact List.map_congr_left fun c hc => (sextet_of_isUrlUnit (hall c hc)).2.2.symm

theorem decodeBase64Url_eq_some_iff (input : Str) (bytes : List UInt8) :
    decodeBase64Url input = some bytes ↔ input ≠ [] ∧ input = encodeUrl bytes := by
  rw [decodeBase64Url, eq_encodeUrl_iff]
  by_cases hempty : input.length = 0
  · rw [if_pos hempty, List.length_eq_zero_iff.mp hempty]
    simp
  have hne : input ≠ [] := fun h => hempty (by rw [h]; rfl)
  rw [if_neg hempty]
  by_cases hall : input.all isUrlUnit = true
  · rw [if_neg (not_not_intro hall)]
    rw [List.all_eq_true] at hall
    have hlength : (sextets input).length = input.length := List.length_map _
    by_cases hmod : input.length % 4 = 1
    · rw [if_pos hmod]
      refine ⟨fun h => absurd h (by simp), fun ⟨_, _, hsextets⟩ => ?_⟩
      rw [← hlength, hsextets] at hmod
      exact absurd hmod (toSextets_length_mod bytes)
    · rw [if_neg hmod]
      obtain ⟨last, hread, hreads⟩ := readUnits_reads hall start_reads
      have hlt : ∀ d ∈ sextets input, d < 64 := by
        intro d hd
        obtain ⟨c, hc, rfl⟩ := List.mem_map.mp hd
        exact (sextet_of_isUrlUnit (hall c hc)).1
      have hcanonical := hreads.canonical_iff hlt (by rwa [List.nil_append, hlength]) bytes
      rw [List.nil_append, ← strayBits_iff hreads.bits_lt] at hcanonical
      rw [hread]
      dsimp only
      rw [← hcanonical]
      cases strayBits last with
      | true => simp
      | false => simpa [hne] using fun _ => hall
  · rw [if_pos hall]
    refine ⟨fun h => absurd h (by simp), fun ⟨_, hunits, _⟩ => absurd (List.all_eq_true.mpr hunits) hall⟩

/-- The decoder reads exactly the canonical encodings, each as what it encodes; no two texts are read as
the same bytes. -/
theorem decodeBase64Url_canonical :
    (∀ (input : Str) (bytes : List UInt8),
      decodeBase64Url input = some bytes ↔ input ≠ [] ∧ input = encodeUrl bytes) ∧
    ∀ (a b : Str) (bytes : List UInt8),
      decodeBase64Url a = some bytes → decodeBase64Url b = some bytes → a = b := by
  refine ⟨decodeBase64Url_eq_some_iff, ?_⟩
  intro a b bytes ha hb
  obtain ⟨-, ha⟩ := (decodeBase64Url_eq_some_iff a bytes).mp ha
  obtain ⟨-, hb⟩ := (decodeBase64Url_eq_some_iff b bytes).mp hb
  rw [ha, hb]

example : decodeBase64Url (lit "_-8") = some [0xFF, 0xEF] := by decide

end AgentPassport.Base64Url
