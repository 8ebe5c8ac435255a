import AgentPassport.Outcome
import AgentPassport.WordHandles

/-! The codec of word handles: a handle is decoded to the packed bits it was made from, and a single
word that was replaced is blamed or none is. -/
namespace AgentPassport.WordHandleCodec
open JsText Js BitStrings Sha256 Multibase WordHandles

theorem getBit_eq (bytes : List UInt8) (i : Nat) : getBit bytes i = (bitAt bytes i).toNat := by
  rw [getBit, bitAt, Nat.shiftRight_eq_div_pow, show i &&& 7 = i % 8 from Nat.and_two_pow_sub_one_eq_mod i 3,
    Nat.toNat_testBit, Nat.and_one_is_mod, Nat.shiftRight_eq_div_pow]

theorem foldl_bits (f : Nat → Bool) (n : Nat) :
    (List.range n).foldl (fun idx b => (idx <<< 1) ||| (f b).toNat) 0 = wordOf f n := by
  induction n with
  | zero => rfl
  | succ n ih =>
    have hbit : (f n).toNat < 2 ^ 1 := Bool.toNat_lt (f n)
    rw [List.range_succ, List.foldl_append, ih, List.foldl_cons, List.foldl_nil, ← Nat.shiftLeft_add_eq_or_of_lt hbit,
      Nat.shiftLeft_eq, wordOf]
    omega

theorem readIndex_eq (bytes : List UInt8) (start : Nat) :
    readIndex bytes start = wordOf (fun b => bitAt bytes (start + b)) 11 := by
  rw [readIndex]
  simp only [getBit_eq]
  exact foldl_bits (fun b => bitAt bytes (start + b)) 11

theorem readIndex_lt (bytes : List UInt8) (start : Nat) : readIndex bytes start < 2048 := by
  rw [readIndex_eq]
  exact wordOf_lt _ 11

theorem bit_ne_zero (idx b : Nat) : ((idx >>> b) &&& 1 ≠ 0) ↔ idx.testBit b = true := by
  rw [Nat.and_one_is_mod, Nat.shiftRight_eq_div_pow, ← Nat.toNat_testBit]
  cases idx.testBit b <;> simp

/-- What setting the bits of one word does. -/
structure Packed (before after : List UInt8) (bits : Nat → Bool) : Prop where
  length : after.length = before.length
  bit : ∀ j, bitAt after j = (bitAt before j || bits j)

variable {packed : List UInt8}

theorem packWord_packed (idx n : Nat) {pos : Nat} (h : pos + n ≤ 8 * packed.length) :
    (packWord idx (List.range n).reverse (packed, pos)).2 = pos + n ∧
      Packed packed (packWord idx (List.range n).reverse (packed, pos)).1
        (fun j => decide (pos ≤ j ∧ j < pos + n) && idx.testBit (n - 1 - (j - pos))) := by
  induction n generalizing packed pos with
  | zero =>
    refine ⟨rfl, rfl, ?_⟩
    intro j
    have hempty : decide (pos ≤ j ∧ j < pos + 0) = false := decide_eq_false (by omega)
    rw [hempty, Bool.false_and, Bool.or_false]
    rfl
  | succ n ih =>
    have hlist : (List.range (n + 1)).reverse = n :: (List.range n).reverse := by
      rw [List.range_succ, List.reverse_append]
      rfl
    rw [hlist, packWord]
    have hbyte : pos / 8 < packed.length := by omega
    -- the first bit, set or not
    have hfirst : Packed packed (if (idx >>> n) &&& 1 ≠ 0 then setBit packed pos else packed)
        (fun j => decide (j = pos) && idx.testBit n) := by
      by_cases hbit : (idx >>> n) &&& 1 ≠ 0
      · rw [if_pos hbit]
        refine ⟨setBit_length _ _, ?_⟩
        intro j
        rw [bitAt_setBit hbyte, (bit_ne_zero idx n).mp hbit, Bool.and_true, Bool.or_comm]
      · rw [if_neg hbit]
        refine ⟨rfl, ?_⟩
        intro j
        rw [bit_ne_zero, Bool.not_eq_true] at hbit
        rw [hbit, Bool.and_false, Bool.or_false]
    obtain ⟨hpos, hrest⟩ := @ih (if (idx >>> n) &&& 1 ≠ 0 then setBit packed pos else packed) (pos + 1)
      (by rw [hfirst.length]; omega)
    refine ⟨by rw [hpos]; omega, hrest.length.trans hfirst.length, ?_⟩
    intro j
    rw [hrest.bit j, hfirst.bit j, Bool.or_assoc]
    congr 1
    by_cases hj : j = pos
    · subst hj
      have hout : decide (j + 1 ≤ j ∧ j < j + 1 + n) = false := decide_eq_false (by omega)
      have hin : decide (j ≤ j ∧ j < j + (n + 1)) = true := decide_eq_true (by omega)
      rw [hout, hin, Bool.false_and, Bool.or_false, decide_eq_true rfl, Nat.sub_self]
      rfl
    · rw [decide_eq_false hj, Bool.false_and, Bool.false_or]
      by_cases hin : pos + 1 ≤ j ∧ j < pos + 1 + n
      · rw [decide_eq_true hin, decide_eq_true (show pos ≤ j ∧ j < pos + (n + 1) by omega),
          show n + 1 - 1 - (j - pos) = n - 1 - (j - (pos + 1)) by omega]
      · rw [decide_eq_false hin, decide_eq_false (show ¬ (pos ≤ j ∧ j < pos + (n + 1)) by omega), Bool.false_and,
          Bool.false_and]

/-- The bit at `j` of the words written from `pos` on. -/
def indexBit (indices : List Nat) (pos j : Nat) : Bool :=
  decide (pos ≤ j) && (match indices[(j - pos) / 11]? with
    | some idx => idx.testBit (10 - (j - pos) % 11)
    | none => false)

theorem indexBit_cons (idx : Nat) (rest : List Nat) (pos j : Nat) :
    indexBit (idx :: rest) pos j =
      ((decide (pos ≤ j ∧ j < pos + 11) && idx.testBit (11 - 1 - (j - pos))) || indexBit rest (pos + 11) j) := by
  rw [indexBit, indexBit]
  by_cases hbefore : pos ≤ j
  · by_cases hhere : j < pos + 11
    · rw [decide_eq_true hbefore, decide_eq_true (show pos ≤ j ∧ j < pos + 11 from ⟨hbefore, hhere⟩),
        decide_eq_false (show ¬ pos + 11 ≤ j by omega), show (j - pos) / 11 = 0 by omega,
        show (j - pos) % 11 = j - pos by omega, List.getElem?_cons_zero, Bool.false_and, Bool.or_false]
    · rw [decide_eq_true hbefore, decide_eq_false (show ¬ (pos ≤ j ∧ j < pos + 11) by omega),
        decide_eq_true (show pos + 11 ≤ j by omega), Bool.false_and, Bool.false_or,
        show (j - pos) / 11 = (j - (pos + 11)) / 11 + 1 by omega, show (j - pos) % 11 = (j - (pos + 11)) % 11 by omega,
        List.getElem?_cons_succ]
  · rw [decide_eq_false hbefore, decide_eq_false (show ¬ (pos ≤ j ∧ j < pos + 11) by omega),
      decide_eq_false (show ¬ pos + 11 ≤ j by omega), Bool.false_and, Bool.false_and, Bool.false_and, Bool.or_false]

theorem foldl_packed (indices : List Nat) {pos : Nat} (h : pos + 11 * indices.length ≤ 8 * packed.length) :
    Packed packed (indices.foldl (fun state idx => packWord idx bitsDown state) (packed, pos)).1 (indexBit indices pos) := by
  induction indices generalizing packed pos with
  | nil =>
    refine ⟨rfl, ?_⟩
    intro j
    rw [indexBit, List.getElem?_nil, Bool.and_false, Bool.or_false]
    rfl
  | cons idx rest ih =>
    rw [List.length_cons] at h
    obtain ⟨hpos, hfirst⟩ := packWord_packed idx 11 (show pos + 11 ≤ 8 * packed.length by omega)
    rw [List.foldl_cons]
    generalize hstate : packWord idx bitsDown (packed, pos) = state
    obtain ⟨packed', pos'⟩ := state
    have hstate' : packWord idx (List.range 11).reverse (packed, pos) = (packed', pos') := hstate
    rw [hstate'] at hpos hfirst
    cases hpos
    have hrest := ih (show pos + 11 + 11 * rest.length ≤ 8 * packed'.length by rw [hfirst.length]; omega)
    refine ⟨hrest.length.trans hfirst.length, ?_⟩
    intro j
    rw [hrest.bit j, hfirst.bit j, Bool.or_assoc, indexBit_cons]

variable {prefixBits : Nat} {indices : List Nat}

theorem packFromIndices_bits (h : 11 * indices.length ≤ prefixBits) :
    (packFromIndices indices prefixBits).length = (prefixBits + 7) / 8 ∧
      ∀ j, bitAt (packFromIndices indices prefixBits) j = indexBit indices 0 j := by
  have hpacked : Packed (List.replicate ((prefixBits + 7) / 8) 0) (packFromIndices indices prefixBits)
      (indexBit indices 0) := foldl_packed indices (by rw [List.length_replicate]; omega)
  refine ⟨hpacked.length.trans List.length_replicate, ?_⟩
  intro j
  rw [hpacked.bit j, bitAt_zeros, Bool.false_or]

variable {bytes : List UInt8}

theorem bitAt_take_append {n i : Nat} (hn : n ≤ bytes.length) (hi : i / 8 < n) :
    bitAt (bytes.take n ++ List.replicate (n - bytes.length) 0) i = bitAt bytes i := by
  rw [bitAt, bitAt, List.getD_eq_getElem?_getD, List.getD_eq_getElem?_getD,
    List.getElem?_append_left (by rw [List.length_take]; omega), List.getElem?_take_of_lt hi]

theorem packPrefix_bits (h : prefixBits ≤ 8 * bytes.length) :
    (packPrefix bytes prefixBits).length = (prefixBits + 7) / 8 ∧
      ∀ j < 8 * ((prefixBits + 7) / 8), bitAt (packPrefix bytes prefixBits) j =
        (decide (j < prefixBits) && bitAt bytes j) := by
  have hlen : (prefixBits + 7) / 8 ≤ bytes.length := by omega
  have hsize : (bytes.take ((prefixBits + 7) / 8) ++ List.replicate ((prefixBits + 7) / 8 - bytes.length) 0).length =
      (prefixBits + 7) / 8 := by
    rw [List.length_append, List.length_take, List.length_replicate]
    omega
  rw [packPrefix]
  by_cases hrem : prefixBits % 8 = 0
  · simp only [hrem, ne_eq, not_true_eq_false, if_false]
    refine ⟨hsize, ?_⟩
    intro j hj
    rw [bitAt_take_append hlen (by omega), decide_eq_true (by omega), Bool.true_and]
  · simp only [ne_eq, hrem, not_false_eq_true, if_true]
    refine ⟨by rw [List.length_modify, hsize], ?_⟩
    intro j hj
    have hbit := bitAt_take_append hlen (show j / 8 < (prefixBits + 7) / 8 by omega)
    rw [bitAt, List.getD_eq_getElem?_getD] at hbit
    rw [bitAt, List.getD_eq_getElem?_getD, List.getElem?_modify]
    have hget := List.getElem?_eq_getElem (show j / 8 < _ by rw [hsize]; omega)
    rw [hget] at hbit ⊢
    by_cases hlast : (prefixBits + 7) / 8 - 1 = j / 8
    · -- the last byte is masked
      simp only [hlast, if_true, Option.map_eq_map, Option.map_some, Option.getD_some] at hbit ⊢
      rw [UInt8.toNat_and, Nat.testBit_and, hbit,
        testBit_highMask (prefixBits % 8) (by omega) (by omega) (j % 8) (by omega), Bool.and_comm]
      congr 1
      rw [decide_eq_decide]
      omega
    · simp only [hlast, if_false, Option.map_eq_map, Option.map_some, Option.getD_some] at hbit ⊢
      rw [hbit, decide_eq_true (show j < prefixBits by omega), Bool.true_and]

theorem pack_dataIndices (h : prefixBits ≤ 8 * bytes.length) (hmult : prefixBits % 11 = 0) :
    packFromIndices (dataIndices bytes prefixBits) prefixBits = packPrefix bytes prefixBits := by
  have hcount : (dataIndices bytes prefixBits).length = prefixBits / 11 := by
    rw [dataIndices, List.length_map, List.length_range]
    rfl
  obtain ⟨hlen, hbits⟩ := packFromIndices_bits (show 11 * (dataIndices bytes prefixBits).length ≤ prefixBits by omega)
  obtain ⟨hlen', hbits'⟩ := packPrefix_bits h
  apply ext_bits (hlen.trans hlen'.symm)
  intro j hj
  rw [hlen] at hj
  rw [hbits j, hbits' j hj, indexBit, Nat.sub_zero, decide_eq_true (Nat.zero_le j), Bool.true_and]
  by_cases hin : j < prefixBits
  · have hword : (dataIndices bytes prefixBits)[j / 11]? = some (readIndex bytes (11 * (j / 11))) := by
      rw [dataIndices, List.getElem?_map, List.getElem?_range (show j / 11 < prefixBits / WORD_BITS by
        rw [WORD_BITS]; omega)]
      rfl
    rw [hword, decide_eq_true hin, Bool.true_and]
    show (readIndex bytes (11 * (j / 11))).testBit (10 - j % 11) = _
    rw [readIndex_eq, show 10 - j % 11 = 11 - 1 - j % 11 by omega, testBit_wordOf _ (by omega),
      show 11 * (j / 11) + j % 11 = j by omega]
  · have hnone : (dataIndices bytes prefixBits)[j / 11]? = none := List.getElem?_eq_none (by omega)
    rw [hnone, decide_eq_false hin, Bool.false_and]

section
variable {L : Lexicon}

theorem wordIndex_word {idx : Nat} (h : idx < 2048) : wordIndex L (word L idx) = some idx := by
  have hlt : idx < L.words.length := by rw [L.size]; exact h
  have hword : word L idx = L.words[idx] := by
    rw [word, List.getD_eq_getElem?_getD, List.getElem?_eq_getElem hlt, Option.getD_some]
  rw [wordIndex, List.findIdx?_eq_some_iff_getElem]
  refine ⟨hlt, decide_eq_true hword.symm, ?_⟩
  intro j hj heq
  have hsame : L.words[j] = L.words[idx] := (of_decide_eq_true heq).trans hword
  have hindex := L.distinct.getElem_inj_iff.mp hsame
  omega

theorem filterMap_words (h : ∀ idx ∈ indices, idx < 2048) :
    (indices.map (word L)).filterMap (wordIndex L) = indices := by
  induction indices with
  | nil => rfl
  | cons idx rest ih =>
    obtain ⟨hidx, hrest⟩ := List.forall_mem_cons.mp h
    rw [List.map_cons, List.filterMap_cons, wordIndex_word hidx, ih hrest]

theorem unknownWords_nil (h : ∀ idx ∈ indices, idx < 2048) : unknownWords L (indices.map (word L)) = [] := by
  rw [unknownWords, List.filter_eq_nil_iff]
  intro i hi
  rw [List.mem_range, List.length_map] at hi
  rw [List.getElem?_map, List.getElem?_eq_getElem hi, Option.map_some, Option.bind_some,
    wordIndex_word (h _ (List.getElem_mem hi))]
  exact Bool.false_ne_true

theorem validatePrefixBits_ok {prefixBits : JsNumber} {n : Nat} (h : validatePrefixBits prefixBits = .ok n) :
    0 < n ∧ n % 11 = 0 ∧ n ≤ 0xFFFF := by
  cases prefixBits with
  | nan => cases h
  | infinite neg => cases h
  | finite d =>
    rw [validatePrefixBits] at h
    split at h
    · cases h
    · rename_i hinteger
      split at h
      · cases h
      · rename_i hle
        cases h
        simp only [Bool.or_eq_true, Bool.not_eq_true', decide_eq_true_eq, not_or] at hinteger
        have hmod : d.toInt % (11 : Nat) = 0 := not_not.mp hinteger.2
        omega

theorem validatePrefixBits_ofInt {n : Nat} (hpos : 0 < n) (hmod : n % 11 = 0) (hle : n ≤ 0xFFFF) :
    validatePrefixBits (JsNumber.ofInt n) = .ok n := by
  obtain ⟨d, hd, hscaled⟩ := ofInt_exact (show n < 2 ^ 53 by omega)
  have hint : d.toInt = n := by
    rw [Double.toInt, hscaled, Int.mul_ediv_cancel _ (Int.ne_of_gt scaleOne_pos)]
  have hinteger : d.isInteger = true := by
    rw [Double.isInteger, hscaled, Int.mul_emod_left]
    rfl
  have hmod' : ((n : Int) % (WORD_BITS : Nat)) = 0 := by
    rw [WORD_BITS]
    omega
  rw [hd, validatePrefixBits, hint, hinteger, hmod', if_neg (by simp; omega), if_neg (by omega)]
  rfl

theorem allEqual_iff {expected given : List Nat} (hlen : expected.length = given.length) :
    allEqual expected given = true ↔ expected = given := by
  rw [allEqual, List.all_eq_true]
  constructor
  · intro h
    apply List.ext_getElem? 
    intro j
    by_cases hj : j < expected.length
    · exact of_decide_eq_true (h j (List.mem_range.mpr hj))
    · rw [List.getElem?_eq_none (by omega), List.getElem?_eq_none (by omega)]
  · intro h j _
    rw [h]
    exact decide_eq_true rfl

end

section
variable {sha256 : Hash} {L : Lexicon}

theorem checksumIndices_length (prefixBits : Nat) (packed : List UInt8) (count : Nat) :
    (checksumIndicesFor sha256 prefixBits packed count).length = count := by
  rw [checksumIndicesFor, List.length_map, List.length_range]

theorem checksumIndices_lt {count idx : Nat} (h : idx ∈ checksumIndicesFor sha256 prefixBits packed count) :
    idx < 2048 := by
  obtain ⟨j, -, rfl⟩ := List.mem_map.mp h
  exact readIndex_lt _ _

theorem dataIndices_lt {prefixBits idx : Nat} (h : idx ∈ dataIndices bytes prefixBits) : idx < 2048 := by
  obtain ⟨i, -, rfl⟩ := List.mem_map.mp h
  exact readIndex_lt _ _

theorem decodeWords_indices {data given : List Nat} {prefixBits count : Nat} (hbits : 11 * data.length = prefixBits)
    (hgiven : given.length = count) (hpos : 0 < prefixBits) (hle : prefixBits ≤ 0xFFFF)
    (hdata : ∀ idx ∈ data, idx < 2048) (hchecks : ∀ idx ∈ given, idx < 2048) :
    decodeWords sha256 L (data.map (word L) ++ given.map (word L)) count =
      .ok (decodeIndices sha256 L data given prefixBits count) := by
  have hall : ∀ idx ∈ data ++ given, idx < 2048 := List.forall_mem_append.mpr ⟨hdata, hchecks⟩
  rw [← List.map_append, decodeWords, unknownWords_nil hall, filterMap_words hall, List.length_map, List.length_append,
    hgiven, if_neg (by simp), if_neg (by omega), show data.length + count - count = data.length by omega]
  have hvalid := validatePrefixBits_ofInt (show 0 < 11 * data.length by omega) (by omega) (by omega)
  rw [hbits] at hvalid
  have hcast : ((WORD_BITS * data.length : Nat) : Int) = (prefixBits : Nat) := by rw [← hbits, WORD_BITS]
  rw [Nat.cast_mul] at hcast
  simp only [List.take_left, List.drop_left, hcast, hvalid]
  rfl

structure Handle (sha256 : Hash) (L : Lexicon) (bytes : List UInt8) (prefixBits count : Nat) (words : List Str) : Prop where
  positive : 0 < prefixBits
  multiple : prefixBits % 11 = 0
  bounded : prefixBits ≤ 0xFFFF
  supplied : prefixBits ≤ 8 * bytes.length
  words_eq : words = (dataIndices bytes prefixBits).map (word L) ++
    (checksumIndicesFor sha256 prefixBits (packPrefix bytes prefixBits) count).map (word L)

theorem hexToBytes_length (hex : Str) : (hexToBytes hex).length = hex.length / 2 := by
  fun_induction hexToBytes hex with
  | case1 a b rest ih =>
    rw [List.length_cons, ih, List.length_cons, List.length_cons]
    omega
  | case2 hex hshort =>
    match hex with
    | [] => rfl
    | [_] => simp
    | a :: b :: rest => exact absurd rfl (hshort a b rest)

variable {input : HandleInput}

theorem toBytes_supplied {bitLength : Nat} (h : toBytes input = .ok (bytes, bitLength)) :
    bitLength ≤ 8 * bytes.length := by
  cases input with
  | bytes given =>
    cases h
    omega
  | text hex =>
    rw [toBytes] at h
    split at h
    · cases h
    · cases h
      rw [hexToBytes_length]
      split
      · omega
      · rw [List.length_append, List.length_singleton]
        omega

theorem encode_handle {prefixBits checksumWords : JsNumber} {n count bitLength : Nat}
    (hbits : validatePrefixBits prefixBits = .ok n) (hcount : validateChecksumWords checksumWords = .ok count)
    (hinput : toBytes input = .ok (bytes, bitLength)) (henough : n ≤ bitLength) :
    ∃ words, encode sha256 L input prefixBits checksumWords = .ok words ∧ Handle sha256 L bytes n count words := by
  obtain ⟨hpos, hmult, hle⟩ := validatePrefixBits_ok hbits
  have hsupplied := toBytes_supplied hinput
  refine ⟨_, ?_, hpos, hmult, hle, by omega, rfl⟩
  rw [encode, hbits, hcount, hinput]
  exact if_neg (by omega)

variable {words : List Str}

theorem handle_of_encode {prefixBits checksumWords : JsNumber} {n count bitLength : Nat}
    (hbits : validatePrefixBits prefixBits = .ok n) (hcount : validateChecksumWords checksumWords = .ok count)
    (hinput : toBytes input = .ok (bytes, bitLength)) (h : encode sha256 L input prefixBits checksumWords = .ok words) :
    Handle sha256 L bytes n count words := by
  have henough : n ≤ bitLength := by
    rw [encode, hbits, hcount, hinput] at h
    by_cases hfew : bitLength < n
    · have herror : encodeBytes sha256 L bytes bitLength n count = .error (.tooFewBits bitLength n) := if_pos hfew
      have hok : encodeBytes sha256 L bytes bitLength n count = .ok words := h
      rw [herror] at hok
      cases hok
    · omega
  obtain ⟨words', hok, hhandle⟩ : ∃ words, encode sha256 L input prefixBits checksumWords = .ok words ∧
      Handle sha256 L bytes n count words := encode_handle hbits hcount hinput henough
  rw [h] at hok
  cases hok
  exact hhandle

variable {n count : Nat}

theorem Handle.data_length (h : Handle sha256 L bytes n count words) : 11 * (dataIndices bytes n).length = n := by
  have hmult := h.multiple
  rw [dataIndices, List.length_map, List.length_range, WORD_BITS]
  omega

variable {checksumWords : JsNumber}

theorem Handle.decode (h : Handle sha256 L bytes n count words)
    (hcount : validateChecksumWords checksumWords = .ok count) :
    decode sha256 L words checksumWords = .ok ⟨some (bytesToHex (packPrefix bytes n)), some n, true, none, []⟩ := by
  have hpack := pack_dataIndices h.supplied h.multiple
  have hsame : allEqual (checksumIndicesFor sha256 n (packPrefix bytes n) count)
      (checksumIndicesFor sha256 n (packPrefix bytes n) count) = true := (allEqual_iff rfl).mpr rfl
  rw [WordHandles.decode, hcount, h.words_eq]
  refine (decodeWords_indices h.data_length (checksumIndices_length n _ count) h.positive h.bounded
    (fun _ => dataIndices_lt) (fun _ => checksumIndices_lt)).trans ?_
  rw [decodeIndices, hpack, hsame]
  rfl

theorem dataIndices_of_packPrefix {bytes bytes' : List UInt8} {n : Nat} (h : n ≤ 8 * bytes.length)
    (h' : n ≤ 8 * bytes'.length) (hpack : packPrefix bytes n = packPrefix bytes' n) :
    dataIndices bytes n = dataIndices bytes' n := by
  apply List.map_congr_left
  intro i hi
  rw [List.mem_range, WORD_BITS] at hi
  rw [readIndex_eq, readIndex_eq]
  apply wordOf_congr
  intro b hb
  have hin : 11 * i + b < n := by omega
  have hbit := (packPrefix_bits h).2 (11 * i + b) (by omega)
  have hbit' := (packPrefix_bits h').2 (11 * i + b) (by omega)
  rw [hpack, hbit', decide_eq_true hin, Bool.true_and, Bool.true_and] at hbit
  exact hbit.symm

theorem bytesToHex_inj {bytes bytes' : List UInt8} (h : bytesToHex bytes = bytesToHex bytes') : bytes = bytes' := by
  rw [← hexToBytes_bytesToHex bytes, h, hexToBytes_bytesToHex]

theorem Handle.words_eq_iff {bytes bytes' : List UInt8} {words words' : List Str}
    (h : Handle sha256 L bytes n count words) (h' : Handle sha256 L bytes' n count words')
    (hcount : validateChecksumWords checksumWords = .ok count) :
    words = words' ↔ packPrefix bytes n = packPrefix bytes' n := by
  constructor
  · intro heq
    have hdecode := h.decode hcount
    rw [heq, h'.decode hcount] at hdecode
    injection hdecode with hresult
    injection hresult with hhex
    injection hhex with htext
    exact (bytesToHex_inj htext).symm
  · intro hpack
    rw [h.words_eq, h'.words_eq, hpack, dataIndices_of_packPrefix h.supplied h'.supplied hpack]

theorem localize_mem {fixable differing : List Nat} {i : Nat} (h : i ∈ fixable) :
    localize fixable differing = some i ∨ localize fixable differing = none := by
  match fixable with
  | [] => cases h
  | [k] =>
    left
    rw [List.mem_singleton.mp h]
    rfl
  | _ :: _ :: _ => exact .inr rfl

theorem word_of_mem {w : Str} (h : w ∈ L.words) : ∃ idx < 2048, word L idx = w := by
  obtain ⟨idx, hlt, hword⟩ := List.mem_iff_getElem.mp h
  refine ⟨idx, by rw [← L.size]; exact hlt, ?_⟩
  rw [word, List.getD_eq_getElem?_getD, List.getElem?_eq_getElem hlt, Option.getD_some]
  exact hword

theorem mem_fixable {data given : List Nat} {n count i k original : Nat} (horiginal : data[i]? = some original)
    (hlt : original < 2048) (hne : k ≠ original)
    (hgiven : checksumIndicesFor sha256 n (packFromIndices data n) count = given) :
    i ∈ fixable sha256 L (data.set i k) given n count := by
  obtain ⟨hi, horig⟩ := List.getElem?_eq_some_iff.mp horiginal
  rw [fixable, List.mem_filter, List.mem_range, List.length_set, List.any_eq_true]
  refine ⟨hi, original, List.mem_range.mpr (by rw [L.size]; exact hlt), ?_⟩
  rw [List.getElem?_set_self hi, List.set_set]
  have hback : data.set i original = data := by rw [← horig, List.set_getElem_self]
  have hsome : (some k : Option Nat) ≠ some original := by
    intro heq
    injection heq with heq
    exact hne heq
  rw [hback, hgiven, decide_eq_true hsome, Bool.true_and]
  exact (allEqual_iff rfl).mpr rfl

theorem Handle.replaced (h : Handle sha256 L bytes n count words)
    (hcount : validateChecksumWords checksumWords = .ok count) {i : Nat} (hi : i < n / 11) {w : Str} (hw : w ∈ L.words)
    (hne : words[i]? ≠ some w) : ∃ result, WordHandles.decode sha256 L (words.set i w) checksumWords = .ok result ∧
      (result.failedWordIndex = some i ∨ result.failedWordIndex = none) := by
  obtain ⟨k, hk, rfl⟩ := word_of_mem hw
  have hlength := h.data_length
  have hin : i < (dataIndices bytes n).length := by omega
  -- the replaced handle is made of the indices with one replaced
  have hset : words.set i (word L k) = ((dataIndices bytes n).set i k).map (word L) ++
      (checksumIndicesFor sha256 n (packPrefix bytes n) count).map (word L) := by
    rw [h.words_eq, List.set_append_left i _ (by rw [List.length_map]; exact hin), List.map_set]
  have hdata : ∀ idx ∈ (dataIndices bytes n).set i k, idx < 2048 := by
    intro idx hidx
    rcases List.mem_or_eq_of_mem_set hidx with hold | hnew
    · exact dataIndices_lt hold
    · exact hnew ▸ hk
  have hdecode : WordHandles.decode sha256 L (words.set i (word L k)) checksumWords =
      .ok (decodeIndices sha256 L ((dataIndices bytes n).set i k)
        (checksumIndicesFor sha256 n (packPrefix bytes n) count) n count) := by
    rw [WordHandles.decode, hcount, hset]
    exact decodeWords_indices (by rw [List.length_set]; exact hlength) (checksumIndices_length n _ count) h.positive
      h.bounded hdata (fun _ => checksumIndices_lt)
  refine ⟨_, hdecode, ?_⟩
  -- the word that stood there repairs it
  have horiginal : (dataIndices bytes n)[i]? = some (dataIndices bytes n)[i] := List.getElem?_eq_getElem hin
  have hwords : words[i]? = some (word L (dataIndices bytes n)[i]) := by
    rw [h.words_eq, List.getElem?_append_left (by rw [List.length_map]; exact hin), List.getElem?_map, horiginal]
    rfl
  have hdiffers : k ≠ (dataIndices bytes n)[i] := by
    intro heq
    rw [hwords, heq] at hne
    exact hne rfl
  have hmem : i ∈ fixable sha256 L ((dataIndices bytes n).set i k)
      (checksumIndicesFor sha256 n (packPrefix bytes n) count) n count :=
    mem_fixable horiginal (dataIndices_lt (List.getElem_mem hin)) hdiffers
      (by rw [pack_dataIndices h.supplied h.multiple])
  rw [decodeIndices]
  dsimp only
  split
  · exact .inr rfl
  · exact localize_mem hmem

/-- The codec of word handles. For an accepted number of bits and of checksum words, every input that
supplies the bits has a handle, which is decoded to the packed bits; a handle in which one data word
was replaced by another word of the lexicon is decoded with that word blamed or none; and two inputs
have the same handle exactly when their packed bits are the same. -/
theorem word_handle_codec (sha256 : Hash) (L : Lexicon) {prefixBits checksumWords : JsNumber} {n count : Nat}
    (hbits : validatePrefixBits prefixBits = .ok n) (hcount : validateChecksumWords checksumWords = .ok count) :
    (∀ input bytes bitLength, toBytes input = .ok (bytes, bitLength) → n ≤ bitLength →
      ∃ words, encode sha256 L input prefixBits checksumWords = .ok words ∧
        WordHandles.decode sha256 L words checksumWords =
          .ok ⟨some (bytesToHex (packPrefix bytes n)), some n, true, none, []⟩ ∧
        ∀ i < n / WORD_BITS, ∀ w ∈ L.words, words[i]? ≠ some w →
          ∃ result, WordHandles.decode sha256 L (words.set i w) checksumWords = .ok result ∧
            (result.checksumOk = false → result.failedWordIndex = some i ∨ result.failedWordIndex = none)) ∧
    ∀ input input' bytes bytes' bitLength bitLength' words words',
      toBytes input = .ok (bytes, bitLength) → toBytes input' = .ok (bytes', bitLength') →
      encode sha256 L input prefixBits checksumWords = .ok words →
      encode sha256 L input' prefixBits checksumWords = .ok words' →
      (words = words' ↔ packPrefix bytes n = packPrefix bytes' n) := by
  constructor
  · intro input bytes bitLength hinput henough
    obtain ⟨words, hencode, hhandle⟩ : ∃ words, encode sha256 L input prefixBits checksumWords = .ok words ∧
        Handle sha256 L bytes n count words := encode_handle hbits hcount hinput henough
    refine ⟨words, hencode, hhandle.decode hcount, ?_⟩
    intro i hi w hw hne
    obtain ⟨result, hdecode, hblame⟩ := hhandle.replaced hcount hi hw hne
    exact ⟨result, hdecode, fun _ => hblame⟩
  · intro input input' bytes bytes' bitLength bitLength' words words' hinput hinput' hencode hencode'
    have hhandle := handle_of_encode hbits hcount hinput hencode
    have hhandle' := handle_of_encode hbits hcount hinput' hencode'
    exact hhandle.words_eq_iff hhandle' hcount

def letters : Lexicon where
  words := (List.range 2048).map (fun i => [UInt16.ofNat i])
  size := by rw [List.length_map, List.length_range]
  distinct := by
    rw [List.nodup_map_iff_inj_on List.nodup_range]
    intro i hi j hj heq
    rw [List.mem_range] at hi hj
    have hchar := congrArg UInt16.toNat (List.singleton_inj.mp heq)
    rw [UInt16.toNat_ofNat', UInt16.toNat_ofNat'] at hchar
    omega

def digest22 : Hash := ofTable [([0x00, 0x16, 0x01, 0x23, 0x44],
  lit "315559b262e2f3c8fd0d2c5a15ada726d74cdbe1ebf3654b5080f11298ac47e2")]

/-- Twenty-two bits of an odd number of hexadecimal digits, in two words and two checksum words. -/
theorem word_handle_codec_text :
    ∃ words, encode digest22 letters (.text (lit "sha256:0123456")) (JsNumber.ofInt 22) (JsNumber.ofInt 2) = .ok words ∧
      WordHandles.decode digest22 letters words (JsNumber.ofInt 2) =
        .ok ⟨some (lit "012344"), some 22, true, none, []⟩ := by
  have hbits : validatePrefixBits (JsNumber.ofInt 22) = .ok 22 := by decide +kernel
  have hcount : validateChecksumWords (JsNumber.ofInt 2) = .ok 2 := by decide +kernel
  have hinput : toBytes (.text (lit "sha256:0123456")) = .ok ([0x01, 0x23, 0x45, 0x60], 28) := by decide
  have hhex : bytesToHex (packPrefix [0x01, 0x23, 0x45, 0x60] 22) = lit "012344" := by decide
  obtain ⟨words, hencode, hdecode, -⟩ :=
    (word_handle_codec digest22 letters hbits hcount).1 _ _ _ hinput (by decide)
  rw [hhex] at hdecode
  exact ⟨words, hencode, hdecode⟩

end

end AgentPassport.WordHandleCodec
