import AgentPassport.DidKeys
import AgentPassport.UniquePrefix
import AgentPassport.WordHandleCodec

/-! Handles of the number of bits that tells digests apart are told apart, and shorter ones are not. -/
namespace AgentPassport.HandleNames
open JsText Js Sha256 Outcome BitStrings UniquePrefix WordHandles WordHandleCodec
open Multibase (hexToBytes bytesToHex byteHex)

/-! The bits of the text are those of the bytes. -/

theorem nibbleBits_hexChar : ∀ m < 16, nibbleBits (hexChar m) = [3, 2, 1, 0].map m.testBit := by decide

theorem bitsOf_byteHex (b : UInt8) : bitsOf (byteHex b) = (List.range 8).map (fun i => b.toNat.testBit (7 - i)) := by
  have hb := b.toNat_lt
  have hhigh : ∀ j, (b.toNat / 16).testBit j = b.toNat.testBit (j + 4) := fun j => by
    rw [show 16 = 2 ^ 4 from rfl, Nat.testBit_div_two_pow]
  have hlow : ∀ j < 4, (b.toNat % 16).testBit j = b.toNat.testBit j := fun j hj => by
    rw [show 16 = 2 ^ 4 from rfl, Nat.testBit_mod_two_pow, decide_eq_true hj, Bool.true_and]
  have hbits : bitsOf (byteHex b) = nibbleBits (hexChar (b.toNat / 16)) ++ nibbleBits (hexChar (b.toNat % 16)) :=
    congrArg (_ ++ ·) (List.append_nil _)
  rw [hbits, nibbleBits_hexChar _ (by omega), nibbleBits_hexChar _ (by omega)]
  simp [List.range_succ, hhigh, hlow]

theorem bitsOf_bytesToHex (bytes : List UInt8) :
    bitsOf (bytesToHex bytes) = (List.range (8 * bytes.length)).map (bitAt bytes) := by
  induction bytes with
  | nil => rfl
  | cons b rest ih =>
    have hbits : bitsOf (bytesToHex (b :: rest)) = bitsOf (byteHex b) ++ bitsOf (bytesToHex rest) :=
      List.flatMap_append
    rw [hbits, bitsOf_byteHex, ih, List.length_cons, show 8 * (rest.length + 1) = 8 + 8 * rest.length by omega,
      List.range_add, List.map_append, List.map_map]
    congr 1
    refine List.map_congr_left fun i _ => ?_
    rw [Function.comp_apply, bitAt, bitAt, Nat.add_mod_left, Nat.add_div_left _ (by decide)]
    rfl

theorem leadingBits_supplied {digest : Str} {bytes : List UInt8} {bitLength n : Nat}
    (h : toBytes (.text digest) = .ok (bytes, bitLength)) (hn : n ≤ bitLength) :
    leadingBits n (normalize digest) = (List.range n).map (bitAt bytes) := by
  have hsupplied := toBytes_supplied h
  rw [toBytes] at h
  split at h
  · cases h
  rename_i hhex
  rw [Bool.not_eq_true, Bool.not_eq_false', List.all_eq_true] at hhex
  cases h
  obtain ⟨extra, hextra, heven⟩ : ∃ extra, (∀ c ∈ extra, isHex c = true) ∧
      (stripSha256Prefix digest ++ extra).length % 2 = 0 ∧
      (if (stripSha256Prefix digest).length % 2 = 0 then stripSha256Prefix digest
        else stripSha256Prefix digest ++ [0x30]) = stripSha256Prefix digest ++ extra := by
    split
    · exact ⟨[], by simp, by simpa, (List.append_nil _).symm⟩
    · refine ⟨[0x30], List.forall_mem_singleton.mpr rfl, ?_, rfl⟩
      rw [List.length_append, List.length_singleton]
      omega
  obtain ⟨heven, hpadded⟩ := heven
  rw [hpadded] at hsupplied ⊢
  have hall := List.forall_mem_append.mpr ⟨hhex, hextra⟩
  have hlower := toLowerCase_digits hall
  rw [DidKeys.hexToBytes_lower _ hall] at hsupplied ⊢
  have htext := Multibase.bytesToHex_hexToBytes _ (by rw [toLowerCase, List.length_map]; exact heven) hlower
  have happend : bitsOf (toLowerCase (stripSha256Prefix digest ++ extra)) =
      bitsOf (normalize digest) ++ bitsOf (toLowerCase extra) := by
    rw [toLowerCase, List.map_append, bitsOf, List.flatMap_append]
    rfl
  have hbits := bitsOf_bytesToHex (hexToBytes (toLowerCase (stripSha256Prefix digest ++ extra)))
  rw [htext, happend] at hbits
  have hlength : (stripSha256Prefix digest).length * 4 = (bitsOf (normalize digest)).length := by
    rw [bitsOf_length, UniquePrefix.normalize, toLowerCase, List.length_map, Nat.mul_comm]
  have htake := congrArg (List.take n) hbits
  rw [← List.map_take, List.take_range, min_eq_left (by omega), List.take_append_of_le_length (by omega)] at htake
  exact htake

variable {sha256 : Hash} {L : Lexicon} {n count : Nat}

theorem packPrefix_eq_iff {bytes bytes' : List UInt8} (h : n ≤ 8 * bytes.length) (h' : n ≤ 8 * bytes'.length) :
    packPrefix bytes n = packPrefix bytes' n ↔ (List.range n).map (bitAt bytes) = (List.range n).map (bitAt bytes') := by
  obtain ⟨hlength, hbits⟩ := packPrefix_bits h
  obtain ⟨hlength', hbits'⟩ := packPrefix_bits h'
  rw [List.map_inj_left]
  constructor
  · intro heq i hi
    rw [List.mem_range] at hi
    have hbit := hbits i (by omega)
    rw [heq, hbits' i (by omega), decide_eq_true hi, Bool.true_and, Bool.true_and] at hbit
    exact hbit.symm
  · intro heq
    refine ext_bits (hlength.trans hlength'.symm) fun i hi => ?_
    rw [hbits i (by omega), hbits' i (by omega)]
    by_cases hin : i < n
    · rw [heq i (List.mem_range.mpr hin)]
    · rw [decide_eq_false hin, Bool.false_and, Bool.false_and]

def handle (sha256 : Hash) (L : Lexicon) (checksumWords : JsNumber) (n : Nat) (digest : Str) :
    Except CodecError (List Str) :=
  encode sha256 L (.text digest) (JsNumber.ofInt n) checksumWords

variable {checksumWords : JsNumber}

theorem handle_ok (sha256 : Hash) (L : Lexicon) {digest : Str}
    (hcount : validateChecksumWords checksumWords = .ok count) (hbits : validatePrefixBits (JsNumber.ofInt n) = .ok n)
    (h : IsHexDigest digest) (hn : n ≤ (normalize digest).length * 4) :
    ∃ words bytes, handle sha256 L checksumWords n digest = .ok words ∧ Handle sha256 L bytes n count words ∧
      leadingBits n (normalize digest) = (List.range n).map (bitAt bytes) := by
  obtain ⟨bytes, hinput⟩ : ∃ bytes, toBytes (.text digest) = .ok (bytes, (normalize digest).length * 4) := by
    rw [toBytes, if_neg (by simpa [IsHexDigest] using h), UniquePrefix.normalize, toLowerCase, List.length_map]
    exact ⟨_, rfl⟩
  obtain ⟨words, hwords, hhandle⟩ : ∃ words, handle sha256 L checksumWords n digest = .ok words ∧
      Handle sha256 L bytes n count words := encode_handle hbits hcount hinput hn
  exact ⟨words, bytes, hwords, hhandle, leadingBits_supplied hinput hn⟩

theorem handle_eq_iff (sha256 : Hash) (L : Lexicon) {a b : Str}
    (hcount : validateChecksumWords checksumWords = .ok count) (hbits : validatePrefixBits (JsNumber.ofInt n) = .ok n)
    (ha : IsHexDigest a) (hb : IsHexDigest b) (hna : n ≤ (normalize a).length * 4)
    (hnb : n ≤ (normalize b).length * 4) :
    handle sha256 L checksumWords n a = handle sha256 L checksumWords n b ↔
      leadingBits n (normalize a) = leadingBits n (normalize b) := by
  obtain ⟨words, bytes, hwords, hhandle, hfirst⟩ := handle_ok sha256 L hcount hbits ha hna
  obtain ⟨words', bytes', hwords', hhandle', hfirst'⟩ := handle_ok sha256 L hcount hbits hb hnb
  rw [hwords, hwords', Except.ok.injEq, hhandle.words_eq_iff hhandle' hcount,
    packPrefix_eq_iff hhandle.supplied hhandle'.supplied, hfirst, hfirst']

theorem separating_of_ok {digests : List Str} {startBits : Int} {b : Nat}
    (h : minUniquePrefixBits digests startBits = .ok b) :
    IsLeast (separating (digests.map normalize) (max WORD_BITS startBits)) b ∧
      ∀ digest ∈ digests, b ≤ (normalize digest).length * 4 := by
  rw [minUniquePrefixBits] at h
  split at h
  · cases h
  obtain ⟨normalized, hnormalized, h⟩ := bind_eq_ok.mp h
  obtain ⟨hlower, rfl⟩ := (Decides.mapM checkDigest_decides digests).eq_ok_iff.mp hnormalized
  split at h
  · cases h
  obtain ⟨hleast, henough⟩ := (search_eq_ok_iff (List.forall_mem_map.mpr fun d hd => (hlower d hd).2) _ b
    (firstBits_dvd startBits)).mp h
  rw [separating_firstBits] at hleast
  exact ⟨hleast, fun digest hd => henough _ (List.mem_map_of_mem hd)⟩

/-- At the number of bits that is returned every digest has a handle of its own, and at no smaller one. -/
theorem unique_handles (sha256 : Hash) (L : Lexicon) {digests : List Str} {startBits : Int} {b : Nat}
    (hhex : ∀ digest ∈ digests, IsHexDigest digest) (h : minUniquePrefixBits digests startBits = .ok b)
    (hlimit : b ≤ 0xFFFF) (hcount : validateChecksumWords checksumWords = .ok count) :
    (∀ digest ∈ digests, ∃ words, handle sha256 L checksumWords b digest = .ok words) ∧
      IsLeast {n : Nat | WORD_BITS ∣ n ∧ max (WORD_BITS : Int) startBits ≤ n ∧
        (digests.map (handle sha256 L checksumWords n)).Nodup} b := by
  obtain ⟨⟨⟨hdvd, hstart, hb⟩, hleast⟩, henough⟩ := separating_of_ok h
  have hvalid : ∀ n ≤ b, WORD_BITS ∣ n → max (WORD_BITS : Int) startBits ≤ n →
      validatePrefixBits (JsNumber.ofInt n) = .ok n := by
    intro n hn hdvd hstart
    have hword : ((11 : Nat) : Int) ≤ n := (le_max_left _ _).trans hstart
    exact validatePrefixBits_ofInt (by omega) (Nat.mod_eq_zero_of_dvd hdvd) (by omega)
  have hnodup : ∀ n ≤ b, validatePrefixBits (JsNumber.ofInt n) = .ok n →
      ((digests.map (handle sha256 L checksumWords n)).Nodup ↔
        ((digests.map normalize).map (leadingBits n)).Nodup) := by
    intro n hn hbits
    have hsame := fun x hx y hy => handle_eq_iff sha256 L hcount hbits (hhex x hx) (hhex y hy)
      (hn.trans (henough x hx)) (hn.trans (henough y hy))
    rw [List.map_map, List.Nodup, List.Nodup, List.pairwise_map, List.pairwise_map]
    constructor
    · exact fun h => h.imp_of_mem fun hx hy hne heq => hne ((hsame _ hx _ hy).mpr heq)
    · exact fun h => h.imp_of_mem fun hx hy hne heq => hne ((hsame _ hx _ hy).mp heq)
  have hbits := hvalid b le_rfl hdvd hstart
  refine ⟨?_, ⟨hdvd, hstart, (hnodup b le_rfl hbits).mpr hb⟩, ?_⟩
  · intro digest hd
    obtain ⟨words, -, hwords, -⟩ := handle_ok sha256 L hcount hbits (hhex digest hd) (henough digest hd)
    exact ⟨words, hwords⟩
  · rintro n ⟨hdvd, hstart, hn⟩
    by_contra hlt
    have hle : n ≤ b := by omega
    exact hlt (hleast ⟨hdvd, hstart, (hnodup n hle (hvalid n hle hdvd hstart)).mp hn⟩)

/-- The digests of the first sixty-six bits of the two, and of the fifty-five that they share. -/
def digest66 : Hash := ofTable [
  ([0x00, 0x42, 0xab, 0xcd, 0xef, 0x01, 0x23, 0x45, 0x67, 0x8f, 0x80],
    lit "4c07bfa7f4b2d89f5ea90fb5c21272e84f19257189115982eb431d7f1691edf5"),
  ([0x00, 0x42, 0xab, 0xcd, 0xef, 0x01, 0x23, 0x45, 0x67, 0x0f, 0x80],
    lit "361c79801f1e34b9a6baf7974a7709fb4d2dfe0bf00a496acea5fe9787363a97"),
  ([0x00, 0x37, 0xab, 0xcd, 0xef, 0x01, 0x23, 0x45, 0x66],
    lit "ca3b701a4cff95e6246373fbfda8167463b3e2a70299d5b5d30517ce5395e2e5")]

/-- Two digests have handles of their own at sixty-six bits, and one handle at fifty-five. -/
theorem unique_handles_alike :
    (∃ upper lower, alike.mapM (handle digest66 letters (JsNumber.ofInt 1) 66) = .ok [upper, lower] ∧ upper ≠ lower) ∧
      ∃ words, alike.mapM (handle digest66 letters (JsNumber.ofInt 1) 55) = .ok [words, words] := by
  have hsearch : search (alike.map normalize) 44 = .ok 66 :=
    (search_eq_ok_iff (List.forall_mem_map.mpr fun d hd => toLowerCase_digits (alike_hex d hd)) 44 66 (by decide)).mpr
      ⟨alike_least, by decide⟩
  have hbits : minUniquePrefixBits alike 44 = .ok 66 := hsearch
  have hcount : validateChecksumWords (JsNumber.ofInt 1) = .ok 1 := by decide +kernel
  obtain ⟨hwords, ⟨-, -, hdistinct⟩, hleast⟩ := unique_handles digest66 letters alike_hex hbits (by decide) hcount
  constructor
  · obtain ⟨upper, hupper⟩ := hwords _ List.mem_cons_self
    obtain ⟨lower, hlower⟩ := hwords _ (List.mem_cons_of_mem _ List.mem_cons_self)
    refine ⟨upper, lower, ?_, ?_⟩
    · rw [alike, List.mapM_cons, hupper, List.mapM_cons, hlower]
      rfl
    · rintro rfl
      rw [alike, List.map_cons, hupper, List.map_singleton, hlower] at hdistinct
      exact absurd hdistinct (by simp)
  · have hshort : validatePrefixBits (JsNumber.ofInt 55) = .ok 55 := by decide +kernel
    obtain ⟨words, -, hupper, -⟩ := handle_ok digest66 letters hcount hshort (alike_hex _ List.mem_cons_self) (by decide)
    obtain ⟨words', -, hlower, -⟩ := handle_ok digest66 letters hcount hshort
      (alike_hex _ (List.mem_cons_of_mem _ List.mem_cons_self)) (by decide)
    obtain rfl : words = words' := by
      by_contra hne
      refine absurd (hleast ⟨by decide, by decide, ?_⟩) (by decide : ¬ 66 ≤ 55)
      rw [alike, List.map_cons, hupper, List.map_singleton, hlower]
      simpa using hne
    refine ⟨words, ?_⟩
    rw [alike, List.mapM_cons, hupper, List.mapM_cons, hlower]
    rfl

end AgentPassport.HandleNames
