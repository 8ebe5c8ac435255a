import AgentPassport.JsText
import Mathlib.Data.Nat.Digits.Lemmas

/-! The base58btc multibase codec of Ed25519 keys (`core/did.ts`), and that decoding undoes
encoding. -/
namespace AgentPassport.Multibase
open JsText

/-- `parseInt(text, 16)`, none for NaN. -/
def parseInt16 (text : Str) : Option Int :=
  let text := text.dropWhile isTrimmed
  let negative := text.head? = some 0x2D
  let text := if text.head? = some 0x2D ∨ text.head? = some 0x2B then text.drop 1 else text
  let text := if text.take 2 = lit "0x" ∨ text.take 2 = lit "0X" then text.drop 2 else text
  let digits := text.takeWhile isHex
  if digits = [] then none
  else
    let value : Int := digits.foldl (fun n c => n * 16 + ((hexDigit c).getD 0 : Nat)) 0
    some (if negative then -value else value)

/-- What a cell of a `Uint8Array` keeps of a number. -/
def toUint8 (n : Option Int) : UInt8 := UInt8.ofNat ((n.getD 0) % 256).toNat

/-- Two units a byte; a unit left over has no cell. -/
def hexToBytes : Str → List UInt8
  | a :: b :: rest => toUint8 (parseInt16 [a, b]) :: hexToBytes rest
  | _ => []

/-- `b.toString(16).padStart(2, '0')`. -/
def byteHex (b : UInt8) : Str := [hexChar (b.toNat / 16), hexChar (b.toNat % 16)]

def bytesToHex (bytes : List UInt8) : Str := bytes.flatMap byteHex

def BASE58_ALPHABET : Str := lit "123456789ABCDEFGHJKLMNPQRSTUVWXYZabcdefghijkmnopqrstuvwxyz"

def bytesToNum (bytes : List UInt8) : Nat := bytes.foldl (fun num b => num * 256 + b.toNat) 0

/-- The loop of the encoder: the remainder goes in front. -/
def base58Loop (num : Nat) (encoded : Str) : Str :=
  if num = 0 then encoded else base58Loop (num / 58) ((BASE58_ALPHABET[num % 58]?).getD 0 :: encoded)
termination_by num
decreasing_by exact Nat.div_lt_self (Nat.pos_of_ne_zero ‹_›) (by decide)

def base58btcEncode (bytes : List UInt8) : Str :=
  let encoded := base58Loop (bytesToNum bytes) []
  let encoded := List.replicate (bytes.takeWhile (· = 0)).length 0x31 ++ encoded
  if encoded = [] then lit "1" else encoded

inductive MultibaseError where
  | invalidCharacter (c : Str)
  | notBase58btc
  | multicodec
  deriving DecidableEq

def firstCodePoint : Str → Str
  | c :: d :: _ => if isHigh c && isLow d then [c, d] else [c]
  | text => text

def base58Num (num : Nat) : Str → Except MultibaseError Nat
  | [] => return num
  | c :: rest =>
    match BASE58_ALPHABET.idxOf? c with
    | none => throw (.invalidCharacter (firstCodePoint (c :: rest)))
    | some idx => base58Num (num * 58 + idx) rest

/-- `num.toString(16)`. -/
def hexText (num : Nat) : Str :=
  if num = 0 then lit "0" else ((Nat.digits 16 num).reverse).map hexChar

def base58btcDecode (str : Str) : Except MultibaseError (List UInt8) := do
  let num ← base58Num 0 str
  let hex := List.replicate (2 - (hexText num).length) 0x30 ++ hexText num
  let padded := if hex.length % 2 = 1 then 0x30 :: hex else hex
  return List.replicate (str.takeWhile (· = 0x31)).length 0 ++ hexToBytes padded

def multicodecBytes (hexKey : Str) : List UInt8 := 0xED :: 0x01 :: hexToBytes hexKey

def hexToMultibase (hexKey : Str) : Str := 0x7A :: base58btcEncode (multicodecBytes hexKey)

def multibaseToHex : Str → Except MultibaseError Str
  | 0x7A :: rest => do
    let bytes ← base58btcDecode rest
    if bytes[0]? ≠ some 0xED ∨ bytes[1]? ≠ some 0x01 then throw .multicodec
    else return bytesToHex (bytes.drop 2)
  | _ => throw .notBase58btc

/-- The text itself where it does not decode. -/
def multibaseToHexSafe (mb : Str) : Str :=
  match multibaseToHex mb with
  | .ok hex => hex
  | .error _ => mb

def base58Char (d : Nat) : UInt16 := (BASE58_ALPHABET[d]?).getD 0

theorem idxOf_base58Char {d : Nat} (h : d < 58) : BASE58_ALPHABET.idxOf? (base58Char d) = some d := by
  have hall : ∀ d < 58, BASE58_ALPHABET.idxOf? (base58Char d) = some d := by decide
  exact hall d h

theorem base58Loop_eq (num : Nat) : ∀ encoded,
    base58Loop num encoded = (Nat.digits 58 num).reverse.map base58Char ++ encoded := by
  induction num using Nat.strong_induction_on with
  | _ num ih =>
    intro encoded
    rw [base58Loop]
    split
    · rename_i hzero
      rw [hzero, Nat.digits_zero]
      rfl
    · rename_i hzero
      have hpos : 0 < num := Nat.pos_of_ne_zero hzero
      rw [ih (num / 58) (Nat.div_lt_self hpos (by decide)), Nat.digits_def' (by decide) hpos, List.reverse_cons,
        List.map_append, List.append_assoc]
      rfl

theorem base58Num_map (ds : List Nat) (h : ∀ d ∈ ds, d < 58) : ∀ num,
    base58Num num (ds.map base58Char) = .ok (ds.foldl (fun n d => n * 58 + d) num) := by
  induction ds with
  | nil => exact fun num => rfl
  | cons d ds ih =>
    intro num
    obtain ⟨hd, hds⟩ := List.forall_mem_cons.mp h
    rw [List.map_cons, base58Num, idxOf_base58Char hd]
    exact ih hds _

theorem foldl_reverse_digits (b : Nat) (ds : List Nat) :
    ds.reverse.foldl (fun n d => n * b + d) 0 = Nat.ofDigits b ds := by
  rw [List.foldl_reverse, Nat.ofDigits_eq_foldr]
  congr 1
  funext d n
  rw [Nat.cast_id, Nat.add_comm, Nat.mul_comm]

theorem base58Num_digits (num : Nat) :
    base58Num 0 ((Nat.digits 58 num).reverse.map base58Char) = .ok num := by
  rw [base58Num_map _ (fun d hd => Nat.digits_lt_base (by decide) (List.mem_reverse.mp hd)),
    foldl_reverse_digits, Nat.ofDigits_digits]

/-- The hexadecimal digits of a byte, the lower one first. -/
def nibbles (b : UInt8) : List Nat := [b.toNat % 16, b.toNat / 16]

theorem ofDigits_nibbles (bytes : List UInt8) :
    Nat.ofDigits 16 (bytes.flatMap nibbles) = Nat.ofDigits 256 (bytes.map UInt8.toNat) := by
  induction bytes with
  | nil => rfl
  | cons b rest ih =>
    rw [List.flatMap_cons, nibbles, List.cons_append, List.cons_append, List.nil_append, Nat.ofDigits_cons,
      Nat.ofDigits_cons, ih, List.map_cons, Nat.ofDigits_cons]
    have hb : b.toNat % 16 + 16 * (b.toNat / 16) = b.toNat := Nat.mod_add_div _ _
    omega

theorem bytesToNum_eq (bytes : List UInt8) :
    bytesToNum bytes = Nat.ofDigits 16 (bytes.reverse.flatMap nibbles) := by
  rw [ofDigits_nibbles, ← foldl_reverse_digits, ← List.map_reverse, List.reverse_reverse, List.foldl_map]
  rfl

variable {b : UInt8}

theorem bytesToNum_pos (hb : b ≠ 0) (rest : List UInt8) : 0 < bytesToNum (b :: rest) := by
  have hle : ∀ (bytes : List UInt8) (num : Nat), num ≤ bytes.foldl (fun num b => num * 256 + b.toNat) num := by
    intro bytes
    induction bytes with
    | nil => exact fun num => le_refl num
    | cons c bytes ih => exact fun num => le_trans (by omega) (ih (num * 256 + c.toNat))
  have hpos : 0 < b.toNat := Nat.pos_of_ne_zero fun hzero => hb (UInt8.toNat_inj.mp hzero)
  exact Nat.lt_of_lt_of_le (by omega) (hle rest (0 * 256 + b.toNat))

theorem nibbles_lt {bytes : List UInt8} {d : Nat} (h : d ∈ bytes.flatMap nibbles) : d < 16 := by
  obtain ⟨c, -, hc⟩ := List.mem_flatMap.mp h
  have hlt := c.toNat_lt
  simp only [nibbles, List.mem_cons, List.not_mem_nil, or_false] at hc
  omega

theorem reverse_nibbles (bytes : List UInt8) :
    ((bytes.reverse.flatMap nibbles).reverse).map hexChar = bytesToHex bytes := by
  induction bytes with
  | nil => rfl
  | cons c bytes ih =>
    rw [List.reverse_cons, List.flatMap_append, List.flatMap_singleton, List.reverse_append, List.map_append, ih]
    rfl

theorem hexText_bytesToNum (hb : b ≠ 0) (rest : List UInt8) : bytesToHex (b :: rest) =
      if b.toNat / 16 = 0 then 0x30 :: hexText (bytesToNum (b :: rest)) else hexText (bytesToNum (b :: rest)) := by
  have hnum := bytesToNum_eq (b :: rest)
  rw [List.reverse_cons, List.flatMap_append, List.flatMap_singleton, nibbles] at hnum
  have hlow : ∀ d ∈ rest.reverse.flatMap nibbles ++ [b.toNat % 16], d < 16 := by
    intro d hd
    obtain hd | hd := List.mem_append.mp hd
    · exact nibbles_lt hd
    · rw [List.mem_singleton.mp hd]
      exact Nat.mod_lt _ (by decide)
  have hne : b.toNat ≠ 0 := fun hzero => hb (UInt8.toNat_inj.mp hzero)
  rw [hexText, if_neg (bytesToNum_pos hb rest).ne']
  split
  · rename_i hhigh
    have hdigits : Nat.digits 16 (bytesToNum (b :: rest)) = rest.reverse.flatMap nibbles ++ [b.toNat % 16] := by
      have hzero : rest.reverse.flatMap nibbles ++ [b.toNat % 16, b.toNat / 16] =
          rest.reverse.flatMap nibbles ++ [b.toNat % 16] ++ [0] := by
        rw [hhigh, List.append_assoc]
        rfl
      rw [hnum, hzero, Nat.ofDigits_append, Nat.ofDigits_singleton, Nat.mul_zero, Nat.add_zero]
      refine Nat.digits_ofDigits 16 (by decide) _ hlow fun _ => ?_
      rw [List.getLast_concat]
      omega
    rw [hdigits, List.reverse_append, List.map_append, reverse_nibbles]
    show hexChar (b.toNat / 16) :: hexChar (b.toNat % 16) :: bytesToHex rest = _
    rw [hhigh]
    rfl
  · rename_i hhigh
    have hdigits : Nat.digits 16 (bytesToNum (b :: rest)) = (b :: rest).reverse.flatMap nibbles := by
      rw [bytesToNum_eq]
      refine Nat.digits_ofDigits 16 (by decide) _ (fun d => nibbles_lt) fun _ => ?_
      have hlast : (b :: rest).reverse.flatMap nibbles = (rest.reverse.flatMap nibbles ++ [b.toNat % 16]) ++
          [b.toNat / 16] := by
        rw [List.reverse_cons, List.flatMap_append, List.flatMap_singleton, nibbles, List.append_assoc]
        rfl
      simp only [hlast, List.getLast_concat]
      exact hhigh
    rw [hdigits, reverse_nibbles]

/-- Zeros in front of the digits of a number, up to whole bytes. -/
def padded (text : Str) : Str :=
  let hex := List.replicate (2 - text.length) 0x30 ++ text
  if hex.length % 2 = 1 then 0x30 :: hex else hex

theorem padded_of_odd {text : Str} (h : text.length % 2 = 1) : padded text = 0x30 :: text := by
  rw [padded]
  by_cases hone : text.length = 1
  · rw [hone, if_neg (by rw [List.length_append, hone]; decide)]
    rfl
  · rw [show 2 - text.length = 0 by omega, List.replicate_zero, List.nil_append, if_pos h]

theorem padded_of_even {text : Str} (h : text.length % 2 = 0) (hpos : 0 < text.length) : padded text = text := by
  rw [padded, show 2 - text.length = 0 by omega, List.replicate_zero, List.nil_append, if_neg (by omega)]

theorem bytesToHex_length (bytes : List UInt8) : (bytesToHex bytes).length = 2 * bytes.length := by
  induction bytes with
  | nil => rfl
  | cons b rest ih =>
    rw [bytesToHex, List.flatMap_cons, List.length_append, List.length_cons, Nat.mul_add, ← ih]
    exact Nat.add_comm _ _

theorem padded_bytesToNum (hb : b ≠ 0) (rest : List UInt8) :
    padded (hexText (bytesToNum (b :: rest))) = bytesToHex (b :: rest) := by
  have hlength := bytesToHex_length (b :: rest)
  have htext := hexText_bytesToNum hb rest
  rw [htext, List.length_cons] at hlength
  rw [htext]
  split at hlength
  · rename_i hhigh
    rw [List.length_cons] at hlength
    rw [if_pos hhigh, padded_of_odd (by omega)]
  · rename_i hhigh
    rw [if_neg hhigh, padded_of_even (by omega) (by omega)]

theorem parse_byteHex (b : UInt8) : toUint8 (parseInt16 (byteHex b)) = b := by
  have hall : ∀ n < 256, toUint8 (parseInt16 [hexChar (n / 16), hexChar (n % 16)]) = UInt8.ofNat n := by
    decide +kernel
  have hb := hall b.toNat b.toNat_lt
  rwa [UInt8.ofNat_toNat] at hb

theorem hexToBytes_bytesToHex (bytes : List UInt8) : hexToBytes (bytesToHex bytes) = bytes := by
  induction bytes with
  | nil => rfl
  | cons b rest ih =>
    have hcons : bytesToHex (b :: rest) = hexChar (b.toNat / 16) :: hexChar (b.toNat % 16) :: bytesToHex rest := rfl
    rw [hcons, hexToBytes, ih]
    exact congrArg (· :: rest) (parse_byteHex b)

theorem exists_hexChar {c : UInt16} (h : isLowerHex c = true) : ∃ n < 16, c = hexChar n := by
  simp only [isLowerHex, isDigit, Bool.or_eq_true, Bool.and_eq_true, decide_eq_true_eq, UInt16.le_iff_toNat_le] at h
  obtain ⟨hlo, hhi⟩ | ⟨hlo, hhi⟩ := h
  · have hlo : 48 ≤ c.toNat := hlo
    have hhi : c.toNat ≤ 57 := hhi
    refine ⟨c.toNat - 48, by omega, ?_⟩
    rw [hexChar, if_pos (by omega), show 0x30 + (c.toNat - 48) = c.toNat by omega, UInt16.ofNat_toNat]
  · have hlo : 97 ≤ c.toNat := hlo
    have hhi : c.toNat ≤ 102 := hhi
    refine ⟨c.toNat - 87, by omega, ?_⟩
    rw [hexChar, if_neg (by omega), show 0x57 + (c.toNat - 87) = c.toNat by omega, UInt16.ofNat_toNat]

theorem byteHex_parse {a b : UInt16} (ha : isLowerHex a = true) (hb : isLowerHex b = true) :
    byteHex (toUint8 (parseInt16 [a, b])) = [a, b] := by
  obtain ⟨m, hm, rfl⟩ := exists_hexChar ha
  obtain ⟨n, hn, rfl⟩ := exists_hexChar hb
  have hpair : byteHex (UInt8.ofNat (16 * m + n)) = [hexChar m, hexChar n] := by
    rw [byteHex, UInt8.toNat_ofNat_of_lt' (show 16 * m + n < 256 by omega), show (16 * m + n) / 16 = m by omega,
      show (16 * m + n) % 16 = n by omega]
  rw [← hpair, parse_byteHex]

theorem bytesToHex_hexToBytes : ∀ k : Str, k.length % 2 = 0 → (∀ c ∈ k, isLowerHex c = true) →
    bytesToHex (hexToBytes k) = k
  | [], _, _ => rfl
  | [c], heven, _ => by simp at heven
  | a :: b :: rest, heven, hhex => by
    obtain ⟨ha, hhex⟩ := List.forall_mem_cons.mp hhex
    obtain ⟨hb, hrest⟩ := List.forall_mem_cons.mp hhex
    have ih := bytesToHex_hexToBytes rest (by simp only [List.length_cons] at heven; omega) hrest
    rw [hexToBytes, bytesToHex, List.flatMap_cons, byteHex_parse ha hb]
    exact congrArg (a :: b :: ·) ih

theorem base58_head {num : Nat} (h : num ≠ 0) :
    ((Nat.digits 58 num).reverse.map base58Char).takeWhile (· = 0x31) = [] := by
  have hne : Nat.digits 58 num ≠ [] := Nat.digits_ne_nil_iff_ne_zero.mpr h
  have hlast := Nat.getLast_digit_ne_zero 58 h
  have hlt : (Nat.digits 58 num).getLast hne < 58 :=
    Nat.digits_lt_base (by decide) (List.getLast_mem hne)
  have hall : ∀ d < 58, d ≠ 0 → base58Char d ≠ 0x31 := by decide
  have hhead : base58Char ((Nat.digits 58 num).getLast hne) ≠ 0x31 := hall _ hlt hlast
  have hcons : (Nat.digits 58 num).reverse.map base58Char =
      base58Char ((Nat.digits 58 num).getLast hne) :: (Nat.digits 58 num).dropLast.reverse.map base58Char := by
    conv_lhs => rw [← List.dropLast_append_getLast hne, List.reverse_append]
    rfl
  rw [hcons, List.takeWhile_cons_of_neg (by simpa using hhead)]

theorem base58btcEncode_eq (hb : b ≠ 0) (rest : List UInt8) :
    base58btcEncode (b :: rest) = (Nat.digits 58 (bytesToNum (b :: rest))).reverse.map base58Char := by
  have hzeros : (b :: rest).takeWhile (· = 0) = [] := List.takeWhile_cons_of_neg (by simpa using hb)
  rw [base58btcEncode, hzeros, base58Loop_eq]
  simp only [List.append_nil, List.length_nil, List.replicate_zero, List.nil_append]
  rw [if_neg]
  intro hnil
  exact Nat.digits_ne_nil_iff_ne_zero.mpr (bytesToNum_pos hb rest).ne'
    (List.reverse_eq_nil_iff.mp (List.map_eq_nil_iff.mp hnil))

theorem base58btcDecode_eq {str : Str} {num : Nat} (h : base58Num 0 str = .ok num) :
    base58btcDecode str =
      .ok (List.replicate (str.takeWhile (· = 0x31)).length 0 ++ hexToBytes (padded (hexText num))) := by
  rw [base58btcDecode, h]
  rfl

theorem base58btc_roundTrip {b : UInt8} (hb : b ≠ 0) (rest : List UInt8) :
    base58btcDecode (base58btcEncode (b :: rest)) = .ok (b :: rest) := by
  rw [base58btcEncode_eq hb, base58btcDecode_eq (base58Num_digits _), base58_head (bytesToNum_pos hb rest).ne',
    padded_bytesToNum hb, hexToBytes_bytesToHex]
  rfl

theorem notMem_multibase {c : UInt16} (hmark : c ≠ 0x7A) (hdigits : ∀ d < 58, base58Char d ≠ c) (k : Str) :
    c ∉ hexToMultibase k := by
  intro hmem
  rw [hexToMultibase, multicodecBytes, base58btcEncode_eq (by decide)] at hmem
  obtain heq | hmem := List.mem_cons.mp hmem
  · exact hmark heq
  · obtain ⟨d, hd, heq⟩ := List.mem_map.mp hmem
    exact hdigits d (Nat.digits_lt_base (by decide) (List.mem_reverse.mp hd)) heq

theorem colon_notMem_multibase (k : Str) : (0x3A : UInt16) ∉ hexToMultibase k :=
  notMem_multibase (by decide) (by decide) k

theorem multibaseToHex_hexToMultibase (k : Str) :
    multibaseToHex (hexToMultibase k) = .ok (bytesToHex (hexToBytes k)) := by
  rw [hexToMultibase, multibaseToHex, multicodecBytes, base58btc_roundTrip (by decide)]
  rfl

theorem multibase_roundTrip {k : Str} (heven : k.length % 2 = 0) (hhex : ∀ c ∈ k, isLowerHex c = true) :
    multibaseToHex (hexToMultibase k) = .ok k := by
  rw [multibaseToHex_hexToMultibase, bytesToHex_hexToBytes k heven hhex]

end AgentPassport.Multibase
