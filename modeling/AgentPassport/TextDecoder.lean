import AgentPassport.Utf8
import Mathlib.Data.List.DropRight

/-! `new TextDecoder().decode(bytes)`: the UTF-8 decoder of the Encoding standard, which replaces every
ill-formed part by U+FFFD and drops a byte order mark at the start. -/
namespace AgentPassport.TextDecoder
open JsText Utf8

def replacement : Char := Char.ofNat 0xFFFD

/-- Between characters, or inside one: the bits so far, the bytes still needed and the bounds of the
next byte. -/
inductive DecoderState where
  | start
  | pending (codePoint needed lower upper : Nat)

def startByte (b : Nat) : List Char × DecoderState :=
  if b ≤ 0x7F then ([Char.ofNat b], .start)
  else if 0xC2 ≤ b ∧ b ≤ 0xDF then ([], .pending (b % 0x20) 1 0x80 0xBF)
  else if 0xE0 ≤ b ∧ b ≤ 0xEF then
    ([], .pending (b % 0x10) 2 (if b = 0xE0 then 0xA0 else 0x80) (if b = 0xED then 0x9F else 0xBF))
  else if 0xF0 ≤ b ∧ b ≤ 0xF4 then
    ([], .pending (b % 0x8) 3 (if b = 0xF0 then 0x90 else 0x80) (if b = 0xF4 then 0x8F else 0xBF))
  else ([replacement], .start)

/-- A byte that cannot continue the character ends it and is read again. -/
def stepByte : DecoderState → Nat → List Char × DecoderState
  | .start, b => startByte b
  | .pending codePoint needed lower upper, b =>
    if b < lower ∨ upper < b then (replacement :: (startByte b).1, (startByte b).2)
    else if needed = 1 then ([Char.ofNat (codePoint * 0x40 + b % 0x40)], .start)
    else ([], .pending (codePoint * 0x40 + b % 0x40) (needed - 1) 0x80 0xBF)

def decodeBytes : DecoderState → List UInt8 → List Char
  | .start, [] => []
  | .pending _ _ _ _, [] => [replacement]
  | state, b :: rest => (stepByte state b.toNat).1 ++ decodeBytes (stepByte state b.toNat).2 rest

def dropMark : List UInt8 → List UInt8
  | 0xEF :: 0xBB :: 0xBF :: rest => rest
  | bytes => bytes

def decode (bytes : List UInt8) : Str := (decodeBytes .start (dropMark bytes)).flatMap units

/-- `s.trimEnd()`. -/
def trimEnd (s : Str) : Str := s.rdropWhile isTrimmed

theorem char_range (c : Char) : c.toNat < 0xD800 ∨ (0xE000 ≤ c.toNat ∧ c.toNat < 0x110000) := by
  have hvalid : c.toNat.isValidChar := c.valid
  rw [Nat.isValidChar] at hvalid
  omega

theorem toNat_byte {n : Nat} (h : n < 256) : (UInt8.ofNat n).toNat = n := by
  rw [UInt8.toNat_ofNat', Nat.mod_eq_of_lt h]

theorem decodeBytes_pending {codePoint needed lower upper n : Nat} (hlt : n < 256) (hlower : lower ≤ n)
    (hupper : n ≤ upper) (hneeded : needed ≠ 1) (rest : List UInt8) :
    decodeBytes (.pending codePoint needed lower upper) (UInt8.ofNat n :: rest) =
      decodeBytes (.pending (codePoint * 0x40 + n % 0x40) (needed - 1) 0x80 0xBF) rest := by
  have hstep : stepByte (.pending codePoint needed lower upper) (UInt8.ofNat n).toNat =
      ([], .pending (codePoint * 0x40 + n % 0x40) (needed - 1) 0x80 0xBF) := by
    rw [toNat_byte hlt, stepByte, if_neg (by omega), if_neg hneeded]
  rw [decodeBytes, hstep, List.nil_append]

theorem decodeBytes_last {codePoint lower upper n : Nat} (hlt : n < 256) (hlower : lower ≤ n) (hupper : n ≤ upper)
    (rest : List UInt8) :
    decodeBytes (.pending codePoint 1 lower upper) (UInt8.ofNat n :: rest) =
      Char.ofNat (codePoint * 0x40 + n % 0x40) :: decodeBytes .start rest := by
  have hstep : stepByte (.pending codePoint 1 lower upper) (UInt8.ofNat n).toNat =
      ([Char.ofNat (codePoint * 0x40 + n % 0x40)], .start) := by
    rw [toNat_byte hlt, stepByte, if_neg (by omega), if_pos rfl]
  rw [decodeBytes, hstep, List.singleton_append]

theorem decodeBytes_start {n : Nat} (hlt : n < 256) (rest : List UInt8) :
    decodeBytes .start (UInt8.ofNat n :: rest) = (startByte n).1 ++ decodeBytes (startByte n).2 rest := by
  rw [decodeBytes, toNat_byte hlt, stepByte]

theorem decodeBytes_char (c : Char) (rest : List UInt8) :
    decodeBytes .start (String.utf8EncodeChar c ++ rest) = c :: decodeBytes .start rest := by
  have hrange := char_range c
  have hback : Char.ofNat c.toNat = c := Char.ofNat_toNat c
  have hval : c.val.toNat = c.toNat := rfl
  rw [String.utf8EncodeChar]
  simp only [hval]
  by_cases h1 : c.toNat ≤ 0x7F
  · rw [if_pos h1, List.singleton_append, decodeBytes_start (by omega), startByte, if_pos h1, hback,
      List.singleton_append]
  rw [if_neg h1]
  by_cases h2 : c.toNat ≤ 0x7FF
  · rw [if_pos h2, List.cons_append, List.cons_append, List.nil_append, decodeBytes_start (by omega), startByte,
      if_neg (by omega), if_pos (by omega), List.nil_append, decodeBytes_last (by omega) (by omega) (by omega),
      show (c.toNat / 64 % 0x20 + 0xC0) % 0x20 * 0x40 + (c.toNat % 0x40 + 0x80) % 0x40 = c.toNat by omega, hback]
  rw [if_neg h2]
  by_cases h3 : c.toNat ≤ 0xFFFF
  · rw [if_pos h3, List.cons_append, List.cons_append, List.cons_append, List.nil_append,
      decodeBytes_start (by omega), startByte, if_neg (by omega), if_neg (by omega), if_pos (by omega),
      List.nil_append, decodeBytes_pending (by omega) (by split <;> omega) (by split <;> omega) (by decide),
      decodeBytes_last (by omega) (by omega) (by omega),
      show ((c.toNat / 4096 % 0x10 + 0xE0) % 0x10 * 0x40 + (c.toNat / 64 % 0x40 + 0x80) % 0x40) * 0x40 +
        (c.toNat % 0x40 + 0x80) % 0x40 = c.toNat by omega, hback]
  · rw [if_neg h3, List.cons_append, List.cons_append, List.cons_append, List.cons_append, List.nil_append,
      decodeBytes_start (by omega), startByte, if_neg (by omega), if_neg (by omega), if_neg (by omega),
      if_pos (by omega), List.nil_append,
      decodeBytes_pending (by omega) (by split <;> omega) (by split <;> omega) (by decide),
      decodeBytes_pending (by omega) (by omega) (by omega) (by decide),
      decodeBytes_last (by omega) (by omega) (by omega),
      show (((c.toNat / 262144 % 0x8 + 0xF0) % 0x8 * 0x40 + (c.toNat / 4096 % 0x40 + 0x80) % 0x40) * 0x40 +
        (c.toNat / 64 % 0x40 + 0x80) % 0x40) * 0x40 + (c.toNat % 0x40 + 0x80) % 0x40 = c.toNat by omega, hback]

theorem decodeBytes_encode (text : List Char) : decodeBytes .start (text.flatMap String.utf8EncodeChar) = text := by
  induction text with
  | nil => rfl
  | cons c text ih => rw [List.flatMap_cons, decodeBytes_char, ih]

def mark : Char := Char.ofNat 0xFEFF

def withoutMark : List Char → List Char
  | c :: text => if c = mark then text else c :: text
  | [] => []

theorem decodeBytes_mark (rest : List UInt8) :
    decodeBytes .start (0xEF :: 0xBB :: 0xBF :: rest) = mark :: decodeBytes .start rest := by
  have hmark : String.utf8EncodeChar mark = [0xEF, 0xBB, 0xBF] := by decide
  have hchar := decodeBytes_char mark rest
  rw [hmark] at hchar
  exact hchar

theorem dropMark_encode (text : List Char) :
    dropMark (text.flatMap String.utf8EncodeChar) = (withoutMark text).flatMap String.utf8EncodeChar := by
  have hdecode := decodeBytes_encode text
  generalize hbytes : text.flatMap String.utf8EncodeChar = bytes at hdecode
  by_cases hstart : ∃ rest, bytes = 0xEF :: 0xBB :: 0xBF :: rest
  · obtain ⟨rest, rfl⟩ := hstart
    rw [decodeBytes_mark] at hdecode
    have htext := hbytes
    rw [← hdecode, List.flatMap_cons, show String.utf8EncodeChar mark = [0xEF, 0xBB, 0xBF] by decide] at htext
    injection htext with _ htext
    injection htext with _ htext
    injection htext with _ htext
    rw [← hdecode, withoutMark, if_pos rfl]
    exact htext.symm
  · have hkeep : dropMark bytes = bytes := by
      rw [dropMark]
      intro rest heq
      exact hstart ⟨rest, heq⟩
    rw [hkeep, ← hbytes]
    match text, hbytes with
    | [], _ => rfl
    | c :: text, hbytes =>
      have hc : c ≠ mark := by
        intro heq
        subst heq
        exact hstart ⟨_, hbytes.symm⟩
      rw [withoutMark, if_neg hc]

theorem decode_encode (text : List Char) :
    decode (text.flatMap String.utf8EncodeChar) = (withoutMark text).flatMap units := by
  rw [decode, dropMark_encode, decodeBytes_encode]

theorem units_length_charOf (c : UInt16) : (units (charOf c)).length = 1 := by
  rw [charOf]
  split
  · rfl
  · have hlt := c.toNat_lt
    rename_i hplain
    rw [Bool.or_eq_true, not_or] at hplain
    have hunits := units_charOf (eq_false_of_ne_true hplain.1) (eq_false_of_ne_true hplain.2)
    rw [charOf, eq_false_of_ne_true hplain.1, eq_false_of_ne_true hplain.2] at hunits
    exact congrArg List.length hunits

theorem toWellFormed_length (s : Str) : (toWellFormed s).length = s.length := by
  rw [toWellFormed]
  fun_induction chars s with
  | case1 => rfl
  | case2 c => rw [List.flatMap_singleton, units_length_charOf, List.length_singleton]
  | case3 c d rest hpair ih =>
    obtain ⟨hhigh, hlow⟩ := Bool.and_eq_true_iff.mp hpair
    rw [List.flatMap_cons, List.length_append, ih, units_pairChar hhigh hlow, List.length_cons, List.length_cons]
    exact Nat.add_comm 2 _
  | case4 c d rest hpair ih =>
    rw [List.flatMap_cons, List.length_append, ih, units_length_charOf, List.length_cons]
    exact Nat.add_comm 1 _

theorem wellFormed_units (text : List Char) : WellFormed (text.flatMap units) := by
  induction text with
  | nil => rfl
  | cons c text ih =>
    rw [List.flatMap_cons]
    refine wellFormed_append ?_ ih
    have hrange := char_range c
    rw [units]
    split
    · rename_i hsmall
      have hnat : (UInt16.ofNat c.toNat).toNat = c.toNat := UInt16.toNat_ofNat_of_lt' hsmall
      have hhigh : isHigh (UInt16.ofNat c.toNat) = false := by
        apply eq_false_of_ne_true
        rw [isHigh_iff, hnat]
        omega
      have hlow : isLow (UInt16.ofNat c.toNat) = false := by
        apply eq_false_of_ne_true
        rw [isLow_iff, hnat]
        omega
      rw [WellFormed, loneSurrogate, hhigh, hlow]
      rfl
    · have hhigh : isHigh (UInt16.ofNat (0xD800 + (c.toNat - 0x10000) / 0x400)) = true := by
        rw [isHigh_iff, UInt16.toNat_ofNat']
        omega
      have hlow : isLow (UInt16.ofNat (0xDC00 + (c.toNat - 0x10000) % 0x400)) = true := by
        rw [isLow_iff, UInt16.toNat_ofNat']
        omega
      rw [WellFormed, loneSurrogate, hhigh, hlow]
      rfl

variable {s : Str}

theorem toWellFormed_eq_iff : toWellFormed s = s ↔ WellFormed s := by
  constructor
  · intro h
    rw [← h]
    exact wellFormed_units (chars s)
  · exact units_chars

theorem encode_ne_zero {c : Char} (hc : c.toNat ≠ 0) : ∀ b ∈ String.utf8EncodeChar c, b ≠ 0 := by
  have hval : c.val.toNat = c.toNat := rfl
  have hrange := char_range c
  have hbyte : ∀ {n : Nat}, n < 256 → n ≠ 0 → UInt8.ofNat n ≠ 0 := by
    intro n hlt hne heq
    have hnat := congrArg UInt8.toNat heq
    rw [toNat_byte hlt] at hnat
    exact hne hnat
  rw [String.utf8EncodeChar]
  simp only [hval]
  split
  · exact List.forall_mem_singleton.mpr (hbyte (by omega) hc)
  · split
    · rw [List.forall_mem_cons, List.forall_mem_singleton]
      exact ⟨hbyte (by omega) (by omega), hbyte (by omega) (by omega)⟩
    · split
      · rw [List.forall_mem_cons, List.forall_mem_cons, List.forall_mem_singleton]
        exact ⟨hbyte (by omega) (by omega), hbyte (by omega) (by omega), hbyte (by omega) (by omega)⟩
      · rw [List.forall_mem_cons, List.forall_mem_cons, List.forall_mem_cons, List.forall_mem_singleton]
        exact ⟨hbyte (by omega) (by omega), hbyte (by omega) (by omega), hbyte (by omega) (by omega),
          hbyte (by omega) (by omega)⟩

def notNul (c : Char) : Bool := c.toNat ≠ 0

theorem takeWhile_encode (text : List Char) (n : Nat) :
    (text.flatMap String.utf8EncodeChar ++ List.replicate n 0).takeWhile (fun b => b ≠ 0) =
      (text.takeWhile notNul).flatMap String.utf8EncodeChar := by
  induction text with
  | nil =>
    rw [List.flatMap_nil, List.nil_append, List.takeWhile_nil, List.flatMap_nil, List.takeWhile_eq_nil_iff]
    intro hpos
    rw [List.get_eq_getElem, List.getElem_replicate]
    decide
  | cons c text ih =>
    rw [List.flatMap_cons, List.append_assoc, List.takeWhile_cons]
    by_cases hc : c.toNat = 0
    · have hnul : String.utf8EncodeChar c = [0] := by
        rw [← Char.ofNat_toNat c, hc]
        decide
      rw [hnul, notNul, decide_eq_false (not_not.mpr hc)]
      rfl
    · rw [List.takeWhile_append_of_pos (fun b hb => decide_eq_true (encode_ne_zero hc b hb)), ih, notNul,
        decide_eq_true hc, if_pos rfl, List.flatMap_cons]

theorem units_ne_nil (c : Char) : units c ≠ [] := by
  rw [units]
  split
  · exact List.cons_ne_nil _ _
  · exact List.cons_ne_nil _ _

theorem eq_of_prefix {part text : List Char} (h : part <+: text)
    (hlen : (text.flatMap units).length ≤ (part.flatMap units).length) : part = text := by
  obtain ⟨rest, rfl⟩ := h
  cases rest with
  | nil => rw [List.append_nil]
  | cons c rest =>
    have hpos := List.length_pos_iff.mpr (units_ne_nil c)
    rw [List.flatMap_append, List.length_append, List.flatMap_cons, List.length_append] at hlen
    omega

theorem withoutMark_length_le (text : List Char) :
    ((withoutMark text).flatMap units).length ≤ (text.flatMap units).length := by
  cases text with
  | nil => exact Nat.le_refl _
  | cons c text =>
    rw [withoutMark]
    split
    · rw [List.flatMap_cons, List.length_append]
      omega
    · exact Nat.le_refl _

theorem head_ne_mark {text : List Char}
    (h : (text.flatMap units).length ≤ ((withoutMark text).flatMap units).length) : text.head? ≠ some mark := by
  cases text with
  | nil => exact Option.some_ne_none mark ∘ Eq.symm
  | cons c text =>
    intro hhead
    rw [List.head?_cons, Option.some.injEq] at hhead
    rw [withoutMark, if_pos hhead, List.flatMap_cons, List.length_append] at h
    have hpos := List.length_pos_iff.mpr (units_ne_nil c)
    omega

theorem withoutMark_of_head {text : List Char} (h : text.head? ≠ some mark) : withoutMark text = text := by
  cases text with
  | nil => rfl
  | cons c text =>
    rw [withoutMark, if_neg]
    intro hc
    exact h (congrArg some hc)

theorem head_units {c : Char} {n : Nat} (hn : n < 0xD800 ∨ (0xE000 ≤ n ∧ n < 0x10000)) :
    UInt16.ofNat n ∈ units c ↔ c.toNat = n := by
  have hrange := char_range c
  have hsame : ∀ {m : Nat}, m < 0x10000 → (UInt16.ofNat n = UInt16.ofNat m ↔ m = n) := by
    intro m hm
    constructor
    · intro heq
      have hnat := congrArg UInt16.toNat heq
      rw [UInt16.toNat_ofNat', UInt16.toNat_ofNat'] at hnat
      omega
    · intro heq
      rw [heq]
  rw [units]
  split
  · rename_i hsmall
    rw [List.mem_singleton, hsame hsmall]
  · rw [List.mem_cons, List.mem_singleton, hsame (by omega), hsame (by omega)]
    omega

/-- A text that survives being written in bytes, cut at a zero byte, decoded and trimmed. -/
structure Portable (name : Str) : Prop where
  noNul : 0 ∉ name
  wellFormed : WellFormed name
  noMark : name.head? ≠ some 0xFEFF
  noTrailingSpace : ∀ c, name.getLast? = some c → isTrimmed c = false

theorem trimEnd_eq_iff : trimEnd s = s ↔ ∀ c, s.getLast? = some c → isTrimmed c = false := by
  rw [trimEnd, List.rdropWhile_eq_self_iff]
  constructor
  · intro h c hc
    have hne : s ≠ [] := by
      intro hnil
      rw [hnil] at hc
      cases hc
    rw [List.getLast?_eq_some_getLast hne, Option.some.injEq] at hc
    exact hc ▸ eq_false_of_ne_true (h hne)
  · intro h hne
    exact ne_true_of_eq_false (h _ (List.getLast?_eq_some_getLast hne))

theorem nul_mem_iff {name : Str} (h : WellFormed name) : 0 ∈ name ↔ ∃ c ∈ chars name, notNul c = false := by
  have hiff : 0 ∈ (chars name).flatMap units ↔ ∃ c ∈ chars name, notNul c = false := by
    rw [List.mem_flatMap]
    apply exists_congr
    intro c
    apply and_congr_right
    intro _
    rw [notNul, decide_eq_false_iff_not, not_not]
    exact @head_units c 0 (by omega)
  rw [units_chars h] at hiff
  exact hiff

theorem head_chars {name : Str} (h : WellFormed name) : name.head? = some 0xFEFF ↔ (chars name).head? = some mark := by
  have hname := units_chars h
  cases htext : chars name with
  | nil =>
    rw [htext, List.flatMap_nil] at hname
    rw [← hname]
    constructor
    · intro heq
      cases heq
    · intro heq
      cases heq
  | cons c text =>
    rw [htext, List.flatMap_cons] at hname
    rw [← hname, List.head?_append_of_ne_nil _ (units_ne_nil c), List.head?_cons, Option.some.injEq]
    constructor
    · intro hhead
      have hvalue : c.toNat = 0xFEFF := (@head_units c 0xFEFF (by omega)).mp (List.mem_of_head? hhead)
      rw [← Char.ofNat_toNat c, hvalue]
      rfl
    · intro hmark
      rw [hmark]
      rfl

/-- What is read of a text that was written in bytes and padded with zero bytes. -/
def readBack (s : Str) : Str := trimEnd ((withoutMark ((chars s).takeWhile notNul)).flatMap units)

theorem decode_padded (s : Str) (n : Nat) :
    trimEnd (decode ((utf8 s ++ List.replicate n 0).takeWhile (fun b => b ≠ 0))) = readBack s := by
  rw [utf8, takeWhile_encode, decode_encode, readBack]

theorem readBack_eq_iff (name : Str) : readBack name = name ↔ Portable name := by
  rw [readBack]
  constructor
  · intro h
    -- no step loses a unit, for none gives one back
    have hprefix : (chars name).takeWhile notNul <+: chars name := List.takeWhile_prefix _
    have hmark := withoutMark_length_le ((chars name).takeWhile notNul)
    have hwhole := toWellFormed_length name
    rw [toWellFormed] at hwhole
    have hcut : (((chars name).takeWhile notNul).flatMap units).length ≤ ((chars name).flatMap units).length := by
      obtain ⟨rest, hrest⟩ := hprefix
      conv_rhs => rw [← hrest]
      rw [List.flatMap_append, List.length_append]
      omega
    generalize hread : (withoutMark ((chars name).takeWhile notNul)).flatMap units = read at h hmark
    have htrim : trimEnd read <+: read := List.rdropWhile_prefix _ read
    have hshort := htrim.length_le
    rw [h] at hshort
    have hname : read = name := by
      rw [← htrim.eq_of_length (by rw [h]; omega)]
      exact h
    have hall := eq_of_prefix hprefix (by rw [hname] at hmark; omega)
    rw [hall] at hread hmark
    have hhead := head_ne_mark (show ((chars name).flatMap units).length ≤ ((withoutMark (chars name)).flatMap units).length by
      rw [hread, hname]; omega)
    rw [withoutMark_of_head hhead, hname] at hread
    have hwell : WellFormed name := toWellFormed_eq_iff.mp hread
    refine ⟨?_, hwell, mt (head_chars hwell).mp hhead, trimEnd_eq_iff.mp (hname ▸ h)⟩
    intro hnul
    obtain ⟨c, hc, hzero⟩ := (nul_mem_iff hwell).mp hnul
    have hkept := List.takeWhile_eq_self_iff.mp hall c hc
    rw [hzero] at hkept
    cases hkept
  · intro h
    have hall : (chars name).takeWhile notNul = chars name := by
      rw [List.takeWhile_eq_self_iff]
      intro c hc
      by_contra hnul
      exact h.noNul ((nul_mem_iff h.wellFormed).mpr ⟨c, hc, eq_false_of_ne_true hnul⟩)
    rw [hall, withoutMark_of_head (mt (head_chars h.wellFormed).mpr h.noMark), units_chars h.wellFormed]
    exact trimEnd_eq_iff.mpr h.noTrailingSpace

instance (name : Str) : Decidable (Portable name) := decidable_of_iff _ (readBack_eq_iff name)

theorem charOf_low {c : UInt16} (h : c.toNat < 0xD800) : charOf c = Char.ofNat c.toNat := by
  have hhigh : isHigh c = false := by
    apply eq_false_of_ne_true
    rw [isHigh_iff]
    omega
  have hlow : isLow c = false := by
    apply eq_false_of_ne_true
    rw [isLow_iff]
    omega
  rw [charOf, hhigh, hlow]
  rfl

theorem chars_low (h : ∀ c ∈ s, c.toNat < 0xD800) : chars s = s.map (fun c => Char.ofNat c.toNat) := by
  fun_induction chars s with
  | case1 => rfl
  | case2 c => rw [charOf_low (h c List.mem_cons_self), List.map_singleton]
  | case3 c d rest hpair ih =>
    have hhigh := isHigh_iff.mp (Bool.and_eq_true_iff.mp hpair).1
    have hc := h c List.mem_cons_self
    omega
  | case4 c d rest hpair ih =>
    rw [charOf_low (h c List.mem_cons_self), ih (List.forall_mem_cons.mp h).2]
    rfl

theorem utf8_ascii_length (h : ∀ c ∈ s, c.toNat < 0x80) : (utf8 s).length = s.length := by
  rw [utf8, chars_low (fun c hc => Nat.lt_trans (h c hc) (by decide))]
  induction s with
  | nil => rfl
  | cons c s ih =>
    obtain ⟨hc, hs⟩ := List.forall_mem_cons.mp h
    have hnat : (Char.ofNat c.toNat).toNat = c.toNat := toNat_ofNat_char (by simp only [Nat.isValidChar]; omega)
    have hbyte : String.utf8EncodeChar (Char.ofNat c.toNat) = [UInt8.ofNat c.toNat] := by
      rw [String.utf8EncodeChar]
      simp only [show (Char.ofNat c.toNat).val.toNat = c.toNat from hnat]
      exact if_pos (by omega)
    rw [List.map_cons, List.flatMap_cons, hbyte, List.length_append, ih hs, List.length_cons]
    exact Nat.add_comm 1 _

end AgentPassport.TextDecoder
