import AgentPassport.RotationHistory
import AgentPassport.Sha256

/-! The key codec of `did:aps` identifiers (`core/did.ts`): which keys a DID gives back, and which texts get
one. -/
namespace AgentPassport.DidKeys
open JsText Sha256 Multibase Outcome
open KeyRotation (createDID publicKeyFromDID)
open RotationHistory (publicKeyFromDID_create splitOn_did)
open DelegationScope (join_splitOn)
open LegacyScope (startsWith)

def isValidDID (did : Str) : Bool :=
  match publicKeyFromDID did with
  | .ok key => isHexOf 64 key
  | .error _ => false

theorem bytesToNum_concat (bytes : List UInt8) (b : UInt8) :
    bytesToNum (bytes ++ [b]) = bytesToNum bytes * 256 + b.toNat := by
  rw [bytesToNum, List.foldl_append]
  rfl

theorem exists_bytes {num : Nat} (h : num ≠ 0) : ∃ b rest, b ≠ 0 ∧ bytesToNum (b :: rest) = num := by
  induction num using Nat.strong_induction_on with
  | _ num ih =>
    by_cases hsmall : num < 256
    · have hval : (UInt8.ofNat num).toNat = num := UInt8.toNat_ofNat_of_lt' hsmall
      refine ⟨UInt8.ofNat num, [], fun hzero => h ?_, ?_⟩
      · rw [hzero] at hval
        exact hval.symm
      · show 0 * 256 + (UInt8.ofNat num).toNat = num
        rw [hval, Nat.zero_mul, Nat.zero_add]
    · obtain ⟨b, rest, hb, hnum⟩ := ih (num / 256) (by omega) (by omega)
      refine ⟨b, rest ++ [UInt8.ofNat (num % 256)], hb, ?_⟩
      rw [← List.cons_append, bytesToNum_concat, hnum, UInt8.toNat_ofNat_of_lt' (show num % 256 < 256 by omega)]
      omega

theorem base58Char_of_idxOf {c : UInt16} {idx : Nat} (h : BASE58_ALPHABET.idxOf? c = some idx) :
    idx < 58 ∧ c = base58Char idx := by
  obtain ⟨hlt, hget, -⟩ := List.idxOf?_eq_some_iff.mp h
  have hlength : BASE58_ALPHABET.length = 58 := by decide
  refine ⟨hlength ▸ hlt, ?_⟩
  rw [base58Char, List.getElem?_eq_getElem hlt, hget]
  rfl

theorem base58Num_ok {str : Str} {acc num : Nat} (h : base58Num acc str = .ok num) :
    ∃ ds : List Nat, (∀ d ∈ ds, d < 58) ∧ str = ds.map base58Char ∧ num = ds.foldl (fun n d => n * 58 + d) acc := by
  induction str generalizing acc with
  | nil =>
    cases h
    exact ⟨[], List.forall_mem_nil _, rfl, rfl⟩
  | cons c rest ih =>
    rw [base58Num] at h
    cases hidx : BASE58_ALPHABET.idxOf? c with
    | none =>
      rw [hidx] at h
      cases h
    | some idx =>
      rw [hidx] at h
      obtain ⟨ds, hds, rfl, rfl⟩ := ih h
      obtain ⟨hlt, rfl⟩ := base58Char_of_idxOf hidx
      exact ⟨idx :: ds, List.forall_mem_cons.mpr ⟨hlt, hds⟩, rfl, rfl⟩

theorem base58btcEncode_decode {str : Str} {b : UInt8} {rest : List UInt8} (hb : b ≠ 0)
    (h : base58btcDecode str = .ok (b :: rest)) : base58btcEncode (b :: rest) = str := by
  have hnum : ∃ num, base58Num 0 str = .ok num := by
    rw [base58btcDecode, bind_eq_ok] at h
    obtain ⟨num, hnum, -⟩ := h
    exact ⟨num, hnum⟩
  obtain ⟨num, hnum⟩ := hnum
  rw [base58btcDecode_eq hnum, Except.ok.injEq] at h
  obtain ⟨ds, hds, rfl, hvalue⟩ := base58Num_ok hnum
  cases ds with
  | nil =>
    cases hvalue
    have hzero : [0] = b :: rest := h
    exact absurd (List.cons.inj hzero).1.symm hb
  | cons d ds =>
    have hd : d ≠ 0 := by
      rintro rfl
      have hone : base58Char 0 = 0x31 := by decide
      rw [List.map_cons, List.takeWhile_cons_of_pos (by rw [hone]; rfl), List.length_cons, List.replicate_succ,
        List.cons_append, List.cons.injEq] at h
      exact hb h.1.symm
    have hfirst : (List.map base58Char (d :: ds)).takeWhile (· = 0x31) = [] := by
      have hall : ∀ d < 58, d ≠ 0 → base58Char d ≠ 0x31 := by decide
      rw [List.map_cons, List.takeWhile_cons_of_neg]
      simpa using hall d (hds d List.mem_cons_self) hd
    have hdigits : Nat.digits 58 num = (d :: ds).reverse := by
      have hofDigits := foldl_reverse_digits 58 (d :: ds).reverse
      rw [List.reverse_reverse] at hofDigits
      rw [hvalue, hofDigits]
      refine Nat.digits_ofDigits 58 (by decide) _ (fun e he => hds e (List.mem_reverse.mp he)) fun _ => ?_
      simpa using hd
    have hpos : num ≠ 0 := by
      rintro rfl
      rw [Nat.digits_zero] at hdigits
      cases List.reverse_eq_nil_iff.mp hdigits.symm
    obtain ⟨c, others, hc, rfl⟩ := exists_bytes hpos
    rw [hfirst, List.length_nil, List.replicate_zero, List.nil_append, padded_bytesToNum hc, hexToBytes_bytesToHex] at h
    rw [← h, base58btcEncode_eq hc, hdigits, List.reverse_reverse]

def digitsValue (digits : Str) : Int := digits.foldl (fun n c => n * 16 + ((hexDigit c).getD 0 : Nat)) 0

/-- A text without its sign and its marker. -/
def unsigned (text : Str) : Str :=
  let text := if text.head? = some 0x2D ∨ text.head? = some 0x2B then text.drop 1 else text
  if text.take 2 = lit "0x" ∨ text.take 2 = lit "0X" then text.drop 2 else text

theorem unsigned_suffix (text : Str) : unsigned text <:+ text := by
  have hdrop : ∀ (p : Prop) [Decidable p] (n : Nat) (s : Str), (if p then s.drop n else s) <:+ s := by
    intro p _ n s
    split
    · exact List.drop_suffix n s
    · exact List.suffix_refl s
  exact (hdrop _ 2 _).trans (hdrop _ 1 text)

theorem parseInt16_digits (text : Str) : parseInt16 text =
    if (unsigned (text.dropWhile isTrimmed)).takeWhile isHex = [] then none
    else some (if (text.dropWhile isTrimmed).head? = some 0x2D
      then -digitsValue ((unsigned (text.dropWhile isTrimmed)).takeWhile isHex)
      else digitsValue ((unsigned (text.dropWhile isTrimmed)).takeWhile isHex)) := rfl

def eitherCase (n : Nat) : UInt16 := if n < 16 then hexChar n else UInt16.ofNat (0x31 + n)

theorem exists_eitherCase {c : UInt16} (h : isHex c = true) : ∃ n < 22, c = eitherCase n := by
  rw [isHex, Bool.or_eq_true] at h
  obtain hlower | hupper := h
  · obtain ⟨n, hn, rfl⟩ := exists_hexChar hlower
    exact ⟨n, by omega, (if_pos hn).symm⟩
  · simp only [Bool.and_eq_true, decide_eq_true_eq, UInt16.le_iff_toNat_le] at hupper
    obtain ⟨hlo, hhi⟩ := hupper
    have hlo : 65 ≤ c.toNat := hlo
    have hhi : c.toNat ≤ 70 := hhi
    refine ⟨c.toNat - 49, by omega, ?_⟩
    rw [eitherCase, if_neg (by omega), show 0x31 + (c.toNat - 49) = c.toNat by omega, UInt16.ofNat_toNat]

def lowered (c : UInt16) : UInt16 := if 0x41 ≤ c && c ≤ 0x5A then c + 0x20 else c

theorem isHex_plain {c : UInt16} (h : isHex c = true) :
    isTrimmed c = false ∧ (c ≠ 0x2D ∧ c ≠ 0x2B) ∧ (c ≠ 0x78 ∧ c ≠ 0x58) ∧
      hexDigit (lowered c) = hexDigit c := by
  have hall : ∀ n < 22, isTrimmed (eitherCase n) = false ∧ (eitherCase n ≠ 0x2D ∧ eitherCase n ≠ 0x2B) ∧
      (eitherCase n ≠ 0x78 ∧ eitherCase n ≠ 0x58) ∧ hexDigit (lowered (eitherCase n)) = hexDigit (eitherCase n) := by
    decide
  obtain ⟨n, hn, rfl⟩ := exists_eitherCase h
  exact hall n hn

variable {a b : UInt16}

theorem parse_digits (ha : isHex a = true) (hb : isHex b = true) : parseInt16 [a, b] = some (digitsValue [a, b]) := by
  obtain ⟨htrimmed, ⟨hminus, hplus⟩, -⟩ := isHex_plain ha
  obtain ⟨-, -, ⟨hlower, hupper⟩, -⟩ := isHex_plain hb
  have hdrop : [a, b].dropWhile isTrimmed = [a, b] := List.dropWhile_cons_of_neg (by rw [htrimmed]; decide)
  have hsign : ¬ (([a, b] : Str).head? = some 0x2D ∨ ([a, b] : Str).head? = some 0x2B) := by
    rintro (h | h)
    · exact hminus (Option.some.inj h)
    · exact hplus (Option.some.inj h)
  have hmark : ¬ (([a, b] : Str).take 2 = lit "0x" ∨ ([a, b] : Str).take 2 = lit "0X") := by
    rintro (h | h)
    · exact hlower (List.cons.inj (List.cons.inj h).2).1
    · exact hupper (List.cons.inj (List.cons.inj h).2).1
  have hrest : unsigned [a, b] = [a, b] := by
    rw [unsigned]
    simp only [if_neg hsign]
    exact if_neg hmark
  have hdigits : ([a, b] : Str).takeWhile isHex = [a, b] := by
    rw [List.takeWhile_cons_of_pos ha, List.takeWhile_cons_of_pos hb]
    rfl
  rw [parseInt16_digits, hdrop, hrest, hdigits, if_neg (List.cons_ne_nil _ _), if_neg (not_or.mp hsign).1]

theorem parse_lower (ha : isHex a = true) (hb : isHex b = true) :
    parseInt16 [a, b] = parseInt16 [lowered a, lowered b] := by
  have hlower : ∀ c ∈ [lowered a, lowered b], isHex c = true := by
    intro c hc
    rw [isHex, toLowerCase_digits (s := [a, b]) (by simp [ha, hb]) c hc, Bool.true_or]
  rw [parse_digits ha hb, parse_digits (hlower _ List.mem_cons_self) (hlower _ (by simp)), digitsValue, digitsValue]
  simp only [List.foldl_cons, List.foldl_nil, (isHex_plain ha).2.2.2, (isHex_plain hb).2.2.2]

theorem hexToBytes_lower : ∀ k : Str, (∀ c ∈ k, isHex c = true) → hexToBytes k = hexToBytes (toLowerCase k)
  | [], _ => rfl
  | [c], _ => rfl
  | a :: b :: rest, h => by
    obtain ⟨ha, h⟩ := List.forall_mem_cons.mp h
    obtain ⟨hb, hrest⟩ := List.forall_mem_cons.mp h
    rw [hexToBytes, parse_lower ha hb, hexToBytes_lower rest hrest]
    rfl

theorem isHexOf_iff {n : Nat} {s : Str} : isHexOf n s = true ↔ s.length = n ∧ ∀ c ∈ s, isHex c = true := by
  rw [isHexOf, Bool.and_eq_true, decide_eq_true_eq, List.all_eq_true]

theorem bytesToHex_key {k : Str} (h : isHexOf 64 k = true) : bytesToHex (hexToBytes k) = toLowerCase k := by
  obtain ⟨hlength, hhex⟩ := isHexOf_iff.mp h
  have hlower : (toLowerCase k).length = 64 := by rw [toLowerCase, List.length_map, hlength]
  rw [hexToBytes_lower k hhex, bytesToHex_hexToBytes _ (by rw [hlower]) (toLowerCase_digits hhex)]

theorem createDID_eq {k : Str} (h : k.length = 64) : createDID k = .ok (lit "did:aps:" ++ hexToMultibase k) :=
  if_neg (not_not.mpr h)

theorem multibaseToHex_ok {t key : Str} (h : multibaseToHex (0x7A :: t) = .ok key) :
    ∃ bytes, key = bytesToHex bytes ∧ t = base58btcEncode (0xED :: 0x01 :: bytes) := by
  rw [multibaseToHex, bind_eq_ok] at h
  obtain ⟨bytes, hdecode, h⟩ := h
  split at h
  · cases h
  rename_i hcodec
  cases h
  rw [not_or, not_not, not_not] at hcodec
  obtain ⟨hfirst, hsecond⟩ := hcodec
  cases bytes with
  | nil => cases hfirst
  | cons b rest =>
    cases rest with
    | nil => cases hsecond
    | cons c rest =>
      cases hfirst
      cases hsecond
      exact ⟨rest, rfl, (base58btcEncode_decode (by decide) hdecode).symm⟩

theorem publicKeyFromDID_multibase {did key : Str} (hform : startsWith did (lit "did:aps:z") = true)
    (h : publicKeyFromDID did = .ok key) :
    ∃ bytes, key = bytesToHex bytes ∧ did = lit "did:aps:z" ++ base58btcEncode (0xED :: 0x01 :: bytes) := by
  obtain ⟨t, rfl⟩ := List.isPrefixOf_iff_prefix.mp hform
  have hlit : lit "did:aps:z" ++ t = lit "did:aps:" ++ (0x7A :: t) := by
    rw [show lit "did:aps:z" = lit "did:aps:" ++ [0x7A] by decide, List.append_assoc]
    rfl
  rw [hlit, publicKeyFromDID, splitOn_did] at h
  split at h
  · rename_i scheme method identifier hparts
    injection hparts with hscheme hparts
    injection hparts with hmethod hparts
    subst hscheme hmethod
    have hidentifier : 0x7A :: t = identifier := by
      rw [← join_splitOn 0x3A (0x7A :: t), hparts]
      rfl
    subst hidentifier
    rw [if_neg (by simp), if_pos (show (0x7A :: t).head? = some 0x7A from rfl)] at h
    split at h
    · rename_i key' hkey
      cases h
      obtain ⟨bytes, hbytes, rfl⟩ := multibaseToHex_ok hkey
      exact ⟨bytes, hbytes, rfl⟩
    · cases h
  · cases h

theorem createDID_publicKeyFromDID {did : Str} (hform : startsWith did (lit "did:aps:z") = true)
    (hvalid : isValidDID did = true) : ∃ key, publicKeyFromDID did = .ok key ∧ createDID key = .ok did := by
  unfold isValidDID at hvalid
  split at hvalid
  · rename_i key hkey
    refine ⟨key, hkey, ?_⟩
    obtain ⟨bytes, rfl, rfl⟩ := publicKeyFromDID_multibase hform hkey
    rw [createDID_eq (isHexOf_iff.mp hvalid).1, hexToMultibase, multicodecBytes, hexToBytes_bytesToHex]
    rfl
  · cases hvalid

/-- The key codec of DIDs: a key of hexadecimal digits comes back in lower case; a valid DID in multibase form is
made from its key again, so that no two of them name one key; and decoding undoes encoding for every byte string
that does not begin with a zero byte. -/
theorem did_key_codec :
    (∀ k, isHexOf 64 k = true → ∃ did, createDID k = .ok did ∧ publicKeyFromDID did = .ok (toLowerCase k)) ∧
    (∀ did, startsWith did (lit "did:aps:z") = true → isValidDID did = true →
      ∃ key, publicKeyFromDID did = .ok key ∧ createDID key = .ok did) ∧
    (∀ did did', startsWith did (lit "did:aps:z") = true → isValidDID did = true →
      startsWith did' (lit "did:aps:z") = true → isValidDID did' = true →
      publicKeyFromDID did = publicKeyFromDID did' → did = did') ∧
    ∀ b rest, b ≠ 0 → base58btcDecode (base58btcEncode (b :: rest)) = .ok (b :: rest) := by
  refine ⟨?_, fun did => createDID_publicKeyFromDID, ?_, fun b rest hb => base58btc_roundTrip hb rest⟩
  · intro k hk
    have hcreate := createDID_eq (isHexOf_iff.mp hk).1
    refine ⟨_, hcreate, ?_⟩
    rw [publicKeyFromDID_create hcreate, bytesToHex_key hk]
  · intro did did' hform hvalid hform' hvalid' hsame
    obtain ⟨key, hkey, hdid⟩ := createDID_publicKeyFromDID hform hvalid
    obtain ⟨key', hkey', hdid'⟩ := createDID_publicKeyFromDID hform' hvalid'
    rw [hkey, hkey', Except.ok.injEq] at hsame
    subst hsame
    exact Except.ok.inj (hdid.symm.trans hdid')

def sampleKey : Str := List.replicate 31 (lit "00") |>.flatten |>.append (lit "Fe")

theorem did_key_codec_sample :
    ∃ did, createDID sampleKey = .ok did ∧ publicKeyFromDID did = .ok (toLowerCase sampleKey) :=
  did_key_codec.1 sampleKey (by decide)

theorem hexDigit_lt (c : UInt16) : (hexDigit c).getD 0 < 16 := by
  unfold hexDigit
  split
  · rename_i hdigit
    simp only [isDigit, Bool.and_eq_true, decide_eq_true_eq, UInt16.le_iff_toNat_le] at hdigit
    have hhi : c.toNat ≤ 57 := hdigit.2
    show c.toNat - 0x30 < 16
    omega
  split
  · rename_i hlower
    simp only [Bool.and_eq_true, decide_eq_true_eq, UInt16.le_iff_toNat_le] at hlower
    have hhi : c.toNat ≤ 102 := hlower.2
    show c.toNat - 0x57 < 16
    omega
  split
  · rename_i hupper
    simp only [Bool.and_eq_true, decide_eq_true_eq, UInt16.le_iff_toNat_le] at hupper
    have hhi : c.toNat ≤ 70 := hupper.2
    show c.toNat - 0x37 < 16
    omega
  · show (0 : Nat) < 16
    omega

theorem digitsValue_short {digits : Str} (h : digits.length ≤ 1) : 0 ≤ digitsValue digits ∧ digitsValue digits < 16 := by
  match digits with
  | [] => exact ⟨le_refl 0, by decide⟩
  | [c] =>
    have hlt := hexDigit_lt c
    show 0 ≤ (0 : Int) * 16 + ((hexDigit c).getD 0 : Nat) ∧ (0 : Int) * 16 + ((hexDigit c).getD 0 : Nat) < 16
    omega
  | _ :: _ :: _ =>
    simp only [List.length_cons] at h
    omega

theorem parse_pair (h : ¬ (isHex a = true ∧ isHex b = true)) :
    parseInt16 [a, b] = none ∨ ∃ n : Int, parseInt16 [a, b] = some n ∧ -16 < n ∧ n < 16 := by
  have hrest : unsigned ([a, b].dropWhile isTrimmed) <:+ [a, b] :=
    (unsigned_suffix _).trans (List.dropWhile_suffix isTrimmed)
  have hparse := parseInt16_digits [a, b]
  generalize unsigned ([a, b].dropWhile isTrimmed) = rest at hrest hparse
  have hshort : (rest.takeWhile isHex).length ≤ 1 := by
    by_contra hlong
    have hprefix := List.takeWhile_prefix isHex (l := rest)
    have hrestLength := hrest.length_le
    have hle := hprefix.length_le
    have hpair : ([a, b] : Str).length = 2 := rfl
    have hrest : rest = [a, b] := hrest.eq_of_length (by omega)
    have hdigits : rest.takeWhile isHex = rest := hprefix.eq_of_length (by omega)
    rw [hrest] at hdigits
    have hhex : ∀ c ∈ [a, b], isHex c = true := by
      intro c hc
      rw [← hdigits] at hc
      exact List.mem_takeWhile_imp hc
    exact h ⟨hhex a List.mem_cons_self, hhex b (List.mem_cons_of_mem a List.mem_cons_self)⟩
  obtain ⟨hlo, hhi⟩ := digitsValue_short hshort
  rw [hparse]
  split
  · exact .inl rfl
  · split
    · exact .inr ⟨_, rfl, by omega, by omega⟩
    · exact .inr ⟨_, rfl, by omega, by omega⟩

/-- The bytes that are written by two digits only. -/
def Plain (byte : UInt8) : Prop := 16 ≤ byte.toNat ∧ byte.toNat ≤ 240

theorem hex_of_plain (h : Plain (toUint8 (parseInt16 [a, b]))) : isHex a = true ∧ isHex b = true := by
  by_contra hnot
  obtain hnone | ⟨n, hn, hlo, hhi⟩ := parse_pair hnot
  · rw [hnone] at h
    exact absurd h.1 (by decide)
  · rw [hn] at h
    have hval : (toUint8 (some n)).toNat = (n % 256).toNat :=
      UInt8.toNat_ofNat_of_lt' (show (n % 256).toNat < 256 by omega)
    obtain ⟨hlow, hhigh⟩ := h
    rw [hval] at hlow hhigh
    omega

/-- A byte that is not in the middle is also written by a pair that is not two digits: a digit in front of
another letter, or a sign. -/
theorem exists_alias (byte : UInt8) (h : ¬ Plain byte) :
    ∃ a b, toUint8 (parseInt16 [a, b]) = byte ∧ ¬ (isHex a = true ∧ isHex b = true) := by
  have hall : ∀ n < 16, toUint8 (parseInt16 [hexChar n, 0x67]) = UInt8.ofNat n ∧
      toUint8 (parseInt16 [0x2D, hexChar n]) = UInt8.ofNat (256 - n) ∧ isHex 0x67 = false ∧ isHex 0x2D = false := by
    decide
  have hlt := byte.toNat_lt
  by_cases hlow : byte.toNat < 16
  · obtain ⟨hparse, -, hletter, -⟩ := hall byte.toNat hlow
    rw [UInt8.ofNat_toNat] at hparse
    exact ⟨_, _, hparse, fun hhex => by rw [hletter] at hhex; cases hhex.2⟩
  · have hhigh : 240 < byte.toNat := by
      by_contra hle
      exact h ⟨by omega, by omega⟩
    obtain ⟨-, hparse, -, hsign⟩ := hall (256 - byte.toNat) (by omega)
    rw [show 256 - (256 - byte.toNat) = byte.toNat by omega, UInt8.ofNat_toNat] at hparse
    exact ⟨_, _, hparse, fun hhex => by rw [hsign] at hhex; cases hhex.1⟩

theorem hexToBytes_append : ∀ (front : Str) (rest : Str), front.length % 2 = 0 →
    hexToBytes (front ++ rest) = hexToBytes front ++ hexToBytes rest
  | [], rest, _ => rfl
  | [c], rest, h => by simp at h
  | a :: b :: front, rest, h => by
    simp only [List.length_cons] at h
    rw [List.cons_append, List.cons_append, hexToBytes, hexToBytes, hexToBytes_append front rest (by omega),
      List.cons_append]

theorem exists_pair {byte : UInt8} : ∀ {k : Str}, byte ∈ hexToBytes k →
    ∃ front a b rest, k = front ++ a :: b :: rest ∧ front.length % 2 = 0 ∧ toUint8 (parseInt16 [a, b]) = byte
  | [], h => by cases h
  | [c], h => by cases h
  | a :: b :: rest, h => by
    rw [hexToBytes] at h
    obtain rfl | h := List.mem_cons.mp h
    · exact ⟨[], a, b, rest, rfl, rfl, rfl⟩
    · obtain ⟨front, c, d, others, rfl, heven, hbyte⟩ := exists_pair h
      refine ⟨a :: b :: front, c, d, others, rfl, ?_, hbyte⟩
      simp only [List.length_cons]
      omega

theorem hex_of_plain_bytes : ∀ k : Str, k.length % 2 = 0 → (∀ byte ∈ hexToBytes k, Plain byte) → ∀ c ∈ k, isHex c = true
  | [], _, _ => List.forall_mem_nil _
  | [c], h, _ => by simp at h
  | a :: b :: rest, h, hplain => by
    simp only [List.length_cons] at h
    obtain ⟨hfirst, hrest⟩ := List.forall_mem_cons.mp hplain
    obtain ⟨ha, hb⟩ := hex_of_plain hfirst
    exact List.forall_mem_cons.mpr ⟨ha, List.forall_mem_cons.mpr ⟨hb, hex_of_plain_bytes rest (by omega) hrest⟩⟩

def SameKey (p q : Str) : Prop := isHexOf 64 p = true ∧ isHexOf 64 q = true ∧ toLowerCase p = toLowerCase q

theorem sameKey_of_bytes {p q : Str} (hp : isHexOf 64 p = true) (hq : isHexOf 64 q = true)
    (h : hexToBytes p = hexToBytes q) : SameKey p q := by
  refine ⟨hp, hq, ?_⟩
  rw [← bytesToHex_key hp, ← bytesToHex_key hq, h]

theorem createDID_ok {k did : Str} (h : createDID k = .ok did) :
    k.length = 64 ∧ did = lit "did:aps:" ++ hexToMultibase k := by
  rw [createDID] at h
  split at h
  · cases h
  · rename_i hlength
    cases h
    exact ⟨not_not.mp hlength, rfl⟩

theorem did_eq_iff {p q did did' : Str} (hp : createDID p = .ok did) (hq : createDID q = .ok did') :
    did = did' ↔ hexToBytes p = hexToBytes q := by
  obtain ⟨-, rfl⟩ := createDID_ok hp
  obtain ⟨-, rfl⟩ := createDID_ok hq
  constructor
  · intro h
    have hencoded := (List.cons.inj (List.append_cancel_left h)).2
    have hdecoded := base58btc_roundTrip (b := 0xED) (by decide) (0x01 :: hexToBytes p)
    rw [show (0xED :: 0x01 :: hexToBytes p) = multicodecBytes p from rfl, hencoded, multicodecBytes,
      base58btc_roundTrip (by decide), Except.ok.injEq] at hdecoded
    exact (List.cons.inj (List.cons.inj hdecoded).2).2.symm
  · intro h
    rw [hexToMultibase, multicodecBytes, h]
    rfl

/-- Of two texts that get a DID: one DID means one key exactly when both are hexadecimal or they are read as
different bytes. Of one text against all others that get a DID: exactly when it is hexadecimal and each of its
bytes is one that only digits write. -/
theorem did_names_key_iff {p did : Str} (hp : createDID p = .ok did) :
    (∀ q did', createDID q = .ok did' →
      ((did = did' → SameKey p q) ↔
        (isHexOf 64 p = true ∧ isHexOf 64 q = true) ∨ hexToBytes p ≠ hexToBytes q)) ∧
    ((∀ q, createDID q = .ok did → SameKey p q) ↔ isHexOf 64 p = true ∧ ∀ byte ∈ hexToBytes p, Plain byte) := by
  constructor
  · intro q did' hq
    rw [did_eq_iff hp hq]
    constructor
    · intro hsame
      by_cases hbytes : hexToBytes p = hexToBytes q
      · obtain ⟨hhex, hhex', -⟩ := hsame hbytes
        exact .inl ⟨hhex, hhex'⟩
      · exact .inr hbytes
    · rintro (⟨hhex, hhex'⟩ | hbytes) hsame
      · exact sameKey_of_bytes hhex hhex' hsame
      · exact absurd hsame hbytes
  · obtain ⟨hlength, hdid⟩ := createDID_ok hp
    constructor
    · intro hall
      have hhex := (hall p hp).1
      refine ⟨hhex, ?_⟩
      intro byte hbyte
      by_contra hplain
      -- the pair of the byte is replaced by one that is not two digits
      obtain ⟨front, a, b, rest, rfl, heven, hpair⟩ := exists_pair hbyte
      obtain ⟨a', b', hpair', hnot⟩ := exists_alias byte hplain
      have hbytes : hexToBytes (front ++ a' :: b' :: rest) = hexToBytes (front ++ a :: b :: rest) := by
        rw [hexToBytes_append front _ heven, hexToBytes_append front _ heven, hexToBytes, hexToBytes, hpair, hpair']
      have hlength' : (front ++ a' :: b' :: rest).length = 64 := by
        rw [← hlength]
        simp only [List.length_append, List.length_cons]
      have hq := createDID_eq hlength'
      have hq' : createDID (front ++ a' :: b' :: rest) = .ok did := by
        rw [hq, Except.ok.injEq]
        exact ((did_eq_iff hp hq).mpr hbytes.symm).symm
      obtain ⟨-, hhex', -⟩ := hall _ hq'
      have hdigits := (isHexOf_iff.mp hhex').2
      exact hnot ⟨hdigits a' (by simp), hdigits b' (by simp)⟩
    · rintro ⟨hhex, hplain⟩ q hq
      have hbytes := (did_eq_iff hp hq).mp rfl
      have hlength' := (createDID_ok hq).1
      rw [hbytes] at hplain
      exact sameKey_of_bytes hhex
        (isHexOf_iff.mpr ⟨hlength', hex_of_plain_bytes q (by omega) hplain⟩) hbytes

theorem did_names_key_sample : ∃ did, createDID (List.replicate 64 0x41) = .ok did ∧
    ∀ q, createDID q = .ok did → SameKey (List.replicate 64 0x41) q := by
  have hcreate := createDID_eq (k := List.replicate 64 0x41) List.length_replicate
  have hplain : ∀ byte ∈ hexToBytes (List.replicate 64 0x41), 16 ≤ byte.toNat ∧ byte.toNat ≤ 240 := by
    decide +kernel
  exact ⟨_, hcreate, (did_names_key_iff hcreate).2.mpr ⟨by decide, hplain⟩⟩

/-- A text of letters that are no digits has the DID of the key of zeros. -/
theorem letters_named_as_zero_key : ∃ did, createDID (List.replicate 64 0x67) = .ok did ∧
    createDID (List.replicate 64 0x30) = .ok did ∧
    ¬ SameKey (List.replicate 64 0x67) (List.replicate 64 0x30) := by
  have hletters := createDID_eq (k := List.replicate 64 0x67) List.length_replicate
  have hzeros := createDID_eq (k := List.replicate 64 0x30) List.length_replicate
  refine ⟨_, hletters, ?_, fun h => absurd h.1 (by decide)⟩
  rw [hzeros, (did_eq_iff hletters hzeros).mpr (by decide)]

end AgentPassport.DidKeys
