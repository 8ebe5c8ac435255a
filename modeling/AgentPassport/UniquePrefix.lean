import AgentPassport.Outcome
import AgentPassport.WordHandles

/-! How many leading bits tell digests apart (`minUniquePrefixBits` of `v2/word_handles/codec.ts`). Numbers of
bits are exact: no text is long enough for one that a double does not hold. -/
namespace AgentPassport.UniquePrefix
open JsText Sha256 Outcome
open Multibase (parseInt16 hexText)
open WordHandles (WORD_BITS stripSha256Prefix)

inductive PrefixError where
  | noDigests
  | notHex (digest : Str)
  | duplicate
  | tooFewBits (supplied needed : Nat)

/-- The digit at the end of a key, its low bits zero. -/
def maskedDigit (rem : Nat) (c : UInt16) : Str :=
  hexText (((parseInt16 [c]).getD 0).toNat &&& ((0xF <<< (4 - rem)) &&& 0xF))

def keyText (bits : Nat) (hex : Str) : Str :=
  let chars := (bits + 3) / 4
  let leading := hex.take chars
  let rem := bits % 4
  if rem = 0 then leading else leading.take (chars - 1) ++ maskedDigit rem (leading.getD (chars - 1) 0)

def bitPrefixKey (bits : Nat) (hex : Str) : Except PrefixError Str :=
  if hex.length * 4 < bits then throw (.tooFewBits (hex.length * 4) bits) else return keyText bits hex

def normalize (digest : Str) : Str := toLowerCase (stripSha256Prefix digest)

def checkDigest (digest : Str) : Except PrefixError Str :=
  if (normalize digest).length = 0 ∨ !(normalize digest).all isLowerHex then throw (.notHex digest)
  else return normalize digest

/-- The size of a `Set` of the texts is the number of them. -/
def allDistinct (texts : List Str) : Bool := texts.dedup.length = texts.length

theorem bitPrefixKey_decides (bits : Nat) (hex : Str) :
    Decides (bitPrefixKey bits hex) (bits ≤ hex.length * 4) (keyText bits hex) := by
  unfold bitPrefixKey
  split
  · exact (Decides.fail _ _).of_iff (iff_of_false not_false (by omega))
  · exact (Decides.pure _).of_iff (iff_of_true trivial (by omega))

variable {digests keys : List Str} {bits : Nat}

theorem bits_le_total (h : digests.mapM (bitPrefixKey bits) = .ok keys) (hkeys : ¬ allDistinct keys = true) :
    bits ≤ (digests.map List.length).sum * 4 := by
  obtain ⟨hbits, rfl⟩ := (Decides.mapM (bitPrefixKey_decides bits) digests).eq_ok_iff.mp h
  cases digests with
  | nil => exact absurd rfl hkeys
  | cons first rest =>
    have hfirst := hbits first List.mem_cons_self
    rw [List.map_cons, List.sum_cons]
    omega

/-- The search loop, from a number of bits on. -/
def search (digests : List Str) (bits : Nat) : Except PrefixError Nat :=
  match h : digests.mapM (bitPrefixKey bits) with
  | .error e => throw e
  | .ok keys =>
    if hkeys : allDistinct keys then return bits
    else
      have := bits_le_total h hkeys
      search digests (bits + WORD_BITS)
termination_by (digests.map List.length).sum * 4 + 1 - bits
decreasing_by
  have hword : WORD_BITS = 11 := rfl
  omega

/-- The least multiple of eleven from the start on, and eleven at least. -/
def firstBits (startBits : Int) : Nat := (max (WORD_BITS : Int) (-(-startBits / WORD_BITS) * WORD_BITS)).toNat

def minUniquePrefixBits (digestsHex : List Str) (startBits : Int) : Except PrefixError Nat :=
  if digestsHex.length = 0 then throw .noDigests
  else do
    let normalized ← digestsHex.mapM checkDigest
    if !allDistinct normalized then throw .duplicate else search normalized (firstBits startBits)

def nibbleBits (c : UInt16) : List Bool :=
  [3, 2, 1, 0].map (fun i => ((hexDigit c).getD 0).testBit i)

def bitsOf (hex : Str) : List Bool := hex.flatMap nibbleBits

def leadingBits (bits : Nat) (hex : Str) : List Bool := (bitsOf hex).take bits

theorem bitsOf_length (hex : Str) : (bitsOf hex).length = 4 * hex.length := by
  induction hex with
  | nil => rfl
  | cons c rest ih =>
    rw [bitsOf, List.flatMap_cons, List.length_append, List.length_cons, Nat.mul_add, ← ih, Nat.add_comm]
    rfl

theorem leadingBits_append {front : Str} {c : UInt16} {rest : Str} {rem : Nat} (hrem : rem < 4) :
    leadingBits (4 * front.length + rem) (front ++ c :: rest) = bitsOf front ++ (nibbleBits c).take rem := by
  have hfront := bitsOf_length front
  have hdigit : (nibbleBits c).length = 4 := rfl
  have hbits : bitsOf (front ++ c :: rest) = bitsOf front ++ (nibbleBits c ++ bitsOf rest) := by
    rw [bitsOf, List.flatMap_append, List.flatMap_cons]
    rfl
  rw [leadingBits, hbits, ← hfront, List.take_length_add_append, List.take_append_of_le_length (by omega)]

theorem maskedDigit_eq_iff : ∀ rem ∈ [1, 2, 3], ∀ m < 16, ∀ n < 16,
    maskedDigit rem (hexChar m) = maskedDigit rem (hexChar n) ↔
      (nibbleBits (hexChar m)).take rem = (nibbleBits (hexChar n)).take rem := by
  decide

theorem nibbleBits_inj : ∀ m < 16, ∀ n < 16, nibbleBits (hexChar m) = nibbleBits (hexChar n) → m = n := by
  decide

def LowerHex (hex : Str) : Prop := ∀ c ∈ hex, isLowerHex c = true

theorem bitsOf_inj {a b : Str} (ha : LowerHex a) (hb : LowerHex b) (h : bitsOf a = bitsOf b) : a = b := by
  induction a generalizing b with
  | nil =>
    have hlength := congrArg List.length h
    rw [bitsOf_length, bitsOf_length, List.length_nil] at hlength
    exact (List.eq_nil_of_length_eq_zero (by omega)).symm
  | cons c rest ih =>
    cases b with
    | nil => cases h
    | cons d rest' =>
      obtain ⟨hc, hrest⟩ := List.forall_mem_cons.mp ha
      obtain ⟨hd, hrest'⟩ := List.forall_mem_cons.mp hb
      obtain ⟨m, hm, rfl⟩ := Multibase.exists_hexChar hc
      obtain ⟨n, hn, rfl⟩ := Multibase.exists_hexChar hd
      have h : nibbleBits (hexChar m) ++ bitsOf rest = nibbleBits (hexChar n) ++ bitsOf rest' := h
      obtain ⟨hfirst, hothers⟩ := List.append_inj h rfl
      rw [nibbleBits_inj m hm n hn hfirst, ih hrest hrest' hothers]

theorem append_eq_iff {α : Type} {s s' t t' : List α} (h : s.length = s'.length) :
    s ++ t = s' ++ t' ↔ s = s' ∧ t = t' := by
  constructor
  · intro heq
    exact List.append_inj heq h
  · rintro ⟨rfl, rfl⟩
    rfl

theorem keyText_append {front : Str} {c : UInt16} {rest : Str} {rem : Nat} (hrem : rem ∈ [1, 2, 3]) :
    keyText (4 * front.length + rem) (front ++ c :: rest) = front ++ maskedDigit rem c := by
  have hlt : rem ≠ 0 ∧ rem < 4 := by
    simp only [List.mem_cons, List.not_mem_nil, or_false] at hrem
    omega
  have hchars : (4 * front.length + rem + 3) / 4 = front.length + 1 := by omega
  have htake : (front ++ c :: rest).take (front.length + 1) = front ++ [c] := by
    rw [List.take_length_add_append]
    rfl
  rw [keyText, hchars, show (4 * front.length + rem) % 4 = rem by omega, htake]
  simp only [if_neg hlt.1, Nat.add_sub_cancel, List.take_left', List.getD_eq_getElem?_getD,
    List.getElem?_concat_length, Option.getD_some]

theorem exists_front {q : Nat} {hex : Str} (h : q < hex.length) :
    ∃ front c rest, hex = front ++ c :: rest ∧ front.length = q := by
  refine ⟨hex.take q, hex[q], hex.drop (q + 1), ?_, List.length_take_of_le (Nat.le_of_lt h)⟩
  rw [← List.drop_eq_getElem_cons h, List.take_append_drop]

theorem keyText_eq_iff {a b : Str} (ha : LowerHex a) (hb : LowerHex b) (hla : bits ≤ a.length * 4)
    (hlb : bits ≤ b.length * 4) : keyText bits a = keyText bits b ↔ leadingBits bits a = leadingBits bits b := by
  obtain ⟨q, rem, hrem, rfl⟩ : ∃ q rem, rem < 4 ∧ bits = 4 * q + rem := ⟨bits / 4, bits % 4, by omega, by omega⟩
  by_cases hzero : rem = 0
  · -- whole digits: the key is the digits themselves
    subst hzero
    have hkey : ∀ hex : Str, keyText (4 * q + 0) hex = hex.take q := by
      intro hex
      rw [keyText, show (4 * q + 0 + 3) / 4 = q by omega, if_pos (show (4 * q + 0) % 4 = 0 by omega)]
    have hbits : ∀ hex : Str, 4 * q + 0 ≤ hex.length * 4 → leadingBits (4 * q + 0) hex = bitsOf (hex.take q) := by
      intro hex hlength
      have hsplit : bitsOf hex = bitsOf (hex.take q) ++ bitsOf (hex.drop q) := by
        rw [bitsOf, bitsOf, bitsOf, ← List.flatMap_append, List.take_append_drop]
      have htake := bitsOf_length (hex.take q)
      rw [List.length_take_of_le (by omega)] at htake
      rw [leadingBits, hsplit, Nat.add_zero, List.take_left' htake]
    rw [hkey, hkey, hbits a hla, hbits b hlb]
    constructor
    · exact congrArg bitsOf
    · exact bitsOf_inj (fun c hc => ha c (List.mem_of_mem_take hc)) (fun c hc => hb c (List.mem_of_mem_take hc))
  · have hmem : rem ∈ [1, 2, 3] := by
      simp only [List.mem_cons, List.not_mem_nil, or_false]
      omega
    obtain ⟨front, c, rest, rfl, rfl⟩ := @exists_front q a (by omega)
    obtain ⟨front', c', rest', rfl, hfront⟩ := @exists_front front.length b (by omega)
    obtain ⟨m, hm, rfl⟩ := Multibase.exists_hexChar (ha c (List.mem_append_right _ List.mem_cons_self))
    obtain ⟨n, hn, rfl⟩ := Multibase.exists_hexChar (hb c' (List.mem_append_right _ List.mem_cons_self))
    have hfronts : (bitsOf front).length = (bitsOf front').length := by
      rw [bitsOf_length, bitsOf_length, hfront]
    have hfrontEq : bitsOf front = bitsOf front' ↔ front = front' := by
      constructor
      · exact bitsOf_inj (fun c hc => ha c (List.mem_append_left _ hc)) (fun c hc => hb c (List.mem_append_left _ hc))
      · exact congrArg bitsOf
    rw [keyText_append hmem, leadingBits_append hrem, ← hfront, keyText_append hmem, leadingBits_append hrem,
      append_eq_iff hfront.symm, append_eq_iff hfronts, hfrontEq, maskedDigit_eq_iff rem hmem m hm n hn]

theorem nodup_map_congr {α β γ : Type} {f : α → β} {g : α → γ} {l : List α}
    (h : ∀ a ∈ l, ∀ b ∈ l, f a = f b ↔ g a = g b) : (l.map f).Nodup ↔ (l.map g).Nodup := by
  rw [List.Nodup, List.Nodup, List.pairwise_map, List.pairwise_map]
  exact List.Pairwise.iff_of_mem fun {a b} ha hb => not_congr (h a ha b hb)

theorem allDistinct_iff (texts : List Str) : allDistinct texts = true ↔ texts.Nodup := by
  rw [allDistinct, decide_eq_true_eq]
  constructor
  · intro hlength
    rw [← (List.dedup_sublist texts).eq_of_length hlength]
    exact List.nodup_dedup texts
  · intro hnodup
    rw [List.dedup_eq_self.mpr hnodup]

/-- The numbers of bits, whole words of them, at which no two digests begin alike. -/
def separating (digests : List Str) (start : Int) : Set Nat :=
  {n | WORD_BITS ∣ n ∧ start ≤ n ∧ (digests.map (leadingBits n)).Nodup}

theorem mapM_keys : digests.mapM (bitPrefixKey bits) = .ok keys ↔
      (∀ digest ∈ digests, bits ≤ digest.length * 4) ∧ keys = digests.map (keyText bits) :=
  (Decides.mapM (bitPrefixKey_decides bits) digests).eq_ok_iff

theorem keys_distinct (hhex : ∀ digest ∈ digests, LowerHex digest) (h : digests.mapM (bitPrefixKey bits) = .ok keys) :
    allDistinct keys = true ↔ (digests.map (leadingBits bits)).Nodup := by
  obtain ⟨hbits, rfl⟩ := mapM_keys.mp h
  rw [allDistinct_iff]
  exact nodup_map_congr fun a ha b hb => keyText_eq_iff (hhex a ha) (hhex b hb) (hbits a ha) (hbits b hb)

/-- The loop returns the first number of bits, from the one it is at, that separates the digests, if no digest
ends before it. -/
theorem search_eq_ok_iff {digests : List Str} (hhex : ∀ digest ∈ digests, LowerHex digest) (bits b : Nat)
    (hbits : WORD_BITS ∣ bits) :
    search digests bits = .ok b ↔
      IsLeast (separating digests bits) b ∧ ∀ digest ∈ digests, b ≤ digest.length * 4 := by
  induction bits using search.induct digests with
  | case1 bits e herror =>
    -- a digest ends before the bits it is asked for, and before any later number of them
    have hsearch : search digests bits = .error e := by
      rw [search]
      split
      · rename_i e' he'
        cases herror.symm.trans he'
        rfl
      · rename_i keys hkeys
        cases herror.symm.trans hkeys
    rw [hsearch]
    refine iff_of_false (fun h => nomatch h) ?_
    rintro ⟨⟨⟨-, hstart, -⟩, -⟩, hlong⟩
    have hkeys := mapM_keys.mpr ⟨fun digest hd => (Int.ofNat_le.mp hstart).trans (hlong digest hd), rfl⟩
    cases herror.symm.trans hkeys
  | case2 bits keys hkeys hdistinct =>
    have hsearch : search digests bits = .ok bits := by
      rw [search]
      split
      · rename_i e he
        cases hkeys.symm.trans he
      · rename_i keys' hkeys'
        cases hkeys.symm.trans hkeys'
        rw [dif_pos hdistinct]
        rfl
    have hleast : IsLeast (separating digests bits) bits :=
      ⟨⟨hbits, le_refl _, (keys_distinct hhex hkeys).mp hdistinct⟩, fun n hn => Int.ofNat_le.mp hn.2.1⟩
    rw [hsearch, Except.ok.injEq]
    constructor
    · rintro rfl
      exact ⟨hleast, (mapM_keys.mp hkeys).1⟩
    · rintro ⟨hb, -⟩
      exact hleast.unique hb
  | case3 bits keys hkeys hdistinct hle ih =>
    have hsearch : search digests bits = search digests (bits + WORD_BITS) := by
      conv_lhs => rw [search]
      split
      · rename_i e he
        cases hkeys.symm.trans he
      · rename_i keys' hkeys'
        cases hkeys.symm.trans hkeys'
        rw [dif_neg hdistinct]
    -- the bits the loop is at do not separate, and the next whole word is the next candidate
    have hnext : separating digests bits = separating digests ((bits + WORD_BITS : Nat) : Int) := by
      ext n
      have hword : WORD_BITS = 11 := rfl
      constructor
      · rintro ⟨hdvd, hstart, hnodup⟩
        refine ⟨hdvd, ?_, hnodup⟩
        have hne : n ≠ bits := by
          rintro rfl
          exact hdistinct ((keys_distinct hhex hkeys).mpr hnodup)
        rw [hword] at hdvd hbits ⊢
        omega
      · rintro ⟨hdvd, hstart, hnodup⟩
        exact ⟨hdvd, by omega, hnodup⟩
    rw [hsearch, ih (Nat.dvd_add hbits (dvd_refl _)), hnext]

theorem firstBits_dvd (startBits : Int) : WORD_BITS ∣ firstBits startBits := by
  have hword : (WORD_BITS : Int) = 11 := rfl
  rw [firstBits, hword, show WORD_BITS = 11 from rfl]
  omega

theorem separating_firstBits (digests : List Str) (startBits : Int) :
    separating digests (firstBits startBits) = separating digests (max WORD_BITS startBits) := by
  ext n
  refine and_congr_right fun hdvd => and_congr_left fun _ => ?_
  have hword : (WORD_BITS : Int) = 11 := rfl
  rw [show WORD_BITS = 11 from rfl] at hdvd
  rw [firstBits, hword]
  omega

def IsHexDigest (digest : Str) : Prop := ∀ c ∈ stripSha256Prefix digest, isHex c = true

theorem checkDigest_decides (digest : Str) :
    Decides (checkDigest digest) (normalize digest ≠ [] ∧ LowerHex (normalize digest)) (normalize digest) := by
  have hall : (normalize digest).all isLowerHex = true ↔ LowerHex (normalize digest) := List.all_eq_true
  unfold checkDigest
  split
  · rename_i hbad
    refine (Decides.fail _ _).of_iff (iff_of_false not_false ?_)
    rintro ⟨hne, hhex⟩
    rw [hall.mpr hhex] at hbad
    exact hbad.elim (fun h => hne (List.eq_nil_of_length_eq_zero h)) (fun h => nomatch h)
  · rename_i hgood
    refine (Decides.pure _).of_iff (iff_of_true trivial ?_)
    rw [not_or] at hgood
    refine ⟨fun h => hgood.1 (by rw [h]; rfl), hall.mp (by simpa using hgood.2)⟩

/-- What is returned: the least number of bits, whole words of them, that separates the digests. -/
structure Separates (digests : List Str) (startBits : Int) (b : Nat) : Prop where
  different : digests.Nodup
  least : IsLeast (separating digests (max WORD_BITS startBits)) b
  enough : ∀ digest ∈ digests, b ≤ digest.length * 4

theorem minUniquePrefixBits_iff (digestsHex : List Str) (hne : digestsHex ≠ [])
    (hhex : ∀ digest ∈ digestsHex, IsHexDigest digest) (startBits : Int) :
    (∀ b, minUniquePrefixBits digestsHex startBits = .ok b ↔ Separates (digestsHex.map normalize) startBits b) ∧
    ((∃ e, minUniquePrefixBits digestsHex startBits = .error e) ↔
      ¬ ∃ b, Separates (digestsHex.map normalize) startBits b) := by
  have hlower : ∀ digest ∈ digestsHex.map normalize, LowerHex digest := by
    intro digest hmem
    obtain ⟨d, hd, rfl⟩ := List.mem_map.mp hmem
    exact toLowerCase_digits (hhex d hd)
  have hiff : ∀ b, minUniquePrefixBits digestsHex startBits = .ok b ↔
      Separates (digestsHex.map normalize) startBits b := by
    intro b
    have hsearch := search_eq_ok_iff hlower _ b (firstBits_dvd startBits)
    rw [separating_firstBits] at hsearch
    have hchecks : ∀ {texts}, digestsHex.mapM checkDigest = .ok texts ↔ _ :=
      (Decides.mapM checkDigest_decides digestsHex).eq_ok_iff
    rw [minUniquePrefixBits, if_neg (mt List.eq_nil_of_length_eq_zero hne), bind_eq_ok]
    constructor
    · rintro ⟨normalized, hnormalized, h⟩
      obtain ⟨-, rfl⟩ := hchecks.mp hnormalized
      split at h
      · cases h
      · rename_i hdistinct
        rw [Bool.not_eq_true, Bool.not_eq_false'] at hdistinct
        obtain ⟨hleast, henough⟩ := hsearch.mp h
        exact ⟨(allDistinct_iff _).mp hdistinct, hleast, henough⟩
    · rintro ⟨hdifferent, hleast, henough⟩
      refine ⟨digestsHex.map normalize, hchecks.mpr ⟨?_, rfl⟩, ?_⟩
      · intro digest hd
        have hmem := List.mem_map_of_mem (f := normalize) hd
        refine ⟨fun hnil => ?_, hlower _ hmem⟩
        -- an empty digest has no eleven bits
        have hlong := henough _ hmem
        have hstart := hleast.1.2.1
        rw [hnil, List.length_nil] at hlong
        rw [show (WORD_BITS : Int) = 11 from rfl] at hstart
        omega
      · rw [(allDistinct_iff _).mpr hdifferent]
        exact hsearch.mpr ⟨hleast, henough⟩
  refine ⟨hiff, ?_⟩
  constructor
  · rintro ⟨e, he⟩ ⟨b, hb⟩
    cases he.symm.trans ((hiff b).mpr hb)
  · intro hnone
    cases hresult : minUniquePrefixBits digestsHex startBits with
    | error e => exact ⟨e, rfl⟩
    | ok b => exact absurd ⟨b, (hiff b).mp hresult⟩ hnone

def alike : List Str := [lit "sha256:ABCDEF012345678F9A", lit "abcdef012345670f9a"]

theorem alike_hex : ∀ digest ∈ alike, IsHexDigest digest := by
  intro digest hd
  obtain rfl | rfl := List.mem_pair.mp hd
  · exact List.all_eq_true.mp (by decide)
  · exact List.all_eq_true.mp (by decide)

theorem alike_least : IsLeast (separating (alike.map normalize) 44) 66 := by
  refine ⟨⟨by decide, by decide, by decide⟩, ?_⟩
  rintro n ⟨⟨k, rfl⟩, hstart, hnodup⟩
  by_contra hlt
  have hstart : (44 : Int) ≤ ((11 * k : Nat) : Int) := hstart
  have hlt : ¬ 66 ≤ 11 * k := hlt
  obtain rfl | rfl : k = 4 ∨ k = 5 := by omega
  · exact absurd hnodup (by decide)
  · exact absurd hnodup (by decide)

theorem minUniquePrefixBits_alike : minUniquePrefixBits alike 44 = .ok 66 :=
  ((minUniquePrefixBits_iff alike (by decide) alike_hex 44).1 66).mpr ⟨by decide, alike_least, by decide⟩

end AgentPassport.UniquePrefix
