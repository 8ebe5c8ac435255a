import AgentPassport.TarArchive

/-! What is read of an archive that was written: the data as it was, and every name as far as its field
carries it. -/
namespace AgentPassport.TarRoundTrip
open JsText Utf8 TextDecoder ByteFields Outcome TarArchive

theorem toDigits_digit {v : Nat} {d : Char} (h : d ∈ Nat.toDigits 8 v) : ∃ k < 8, d = Nat.digitChar k := by
  induction v using Nat.strongRecOn with
  | ind v ih =>
    rw [Nat.toDigits_eq_if (by decide)] at h
    split at h
    · rename_i hlt
      exact ⟨v, hlt, List.mem_singleton.mp h⟩
    · rcases List.mem_append.mp h with hfirst | hlast
      · exact ih (v / 8) (by omega) hfirst
      · exact ⟨v % 8, by omega, List.mem_singleton.mp hlast⟩

variable {c : UInt16}

theorem octalDigits_digit {v : Nat} (h : c ∈ octalDigits v) : isOctalDigit c = true := by
  obtain ⟨d, hd, rfl⟩ := List.mem_map.mp h
  obtain ⟨k, hk, rfl⟩ := toDigits_digit hd
  clear h hd
  revert k
  decide

variable {v width : Nat}

theorem octal_digit (h : c ∈ octal v width) : isOctalDigit c = true := by
  rcases List.mem_append.mp h with hzero | hdigit
  · rw [List.eq_of_mem_replicate hzero]
    decide
  · exact octalDigits_digit hdigit

theorem octal_length (hpos : 0 < width) (h : v < 8 ^ width) : (octal v width).length = width := by
  have hle : (octalDigits v).length ≤ width := by
    rw [octalDigits, List.length_map]
    exact (Nat.length_toDigits_le_iff (by decide) hpos).mpr h
  rw [octal, List.length_append, List.length_replicate]
  omega

theorem octal_too_long (hpos : 0 < width) (h : 8 ^ width ≤ v) : width < (octal v width).length := by
  have hle : ¬ (octalDigits v).length ≤ width := by
    rw [octalDigits, List.length_map, Nat.length_toDigits_le_iff (by decide) hpos]
    omega
  rw [octal, List.length_append, List.length_replicate]
  omega

theorem octalValue_octal (v width : Nat) : octalValue (octal v width) = v := by
  have hzeros : ∀ n, (List.replicate n (0x30 : UInt16)).foldl (fun n c => 8 * n + (c.toNat - 0x30)) 0 = 0 := by
    intro n
    induction n with
    | zero => rfl
    | succ n ih =>
      rw [List.replicate_succ, List.foldl_cons]
      exact ih
  have hdigits := @Nat.ofDigitChars_toDigits 8 v (by decide) (by decide)
  rw [Nat.ofDigitChars_eq_foldl] at hdigits
  rw [octalValue, octal, List.foldl_append, hzeros, octalDigits, List.foldl_map]
  refine Eq.trans ?_ hdigits
  apply List.foldl_ext
  intro n d hd
  obtain ⟨k, hk, rfl⟩ := toDigits_digit hd
  congr 1
  clear hd
  revert k
  decide

theorem digit_plain (h : isOctalDigit c = true) :
    isTrimmed c = false ∧ c ≠ 0 ∧ c ≠ 0x2D ∧ c ≠ 0x2B ∧ c.toNat < 0x80 := by
  rw [isOctalDigit, Bool.and_eq_true, decide_eq_true_eq, decide_eq_true_eq, UInt16.le_iff_toNat_le,
    UInt16.le_iff_toNat_le] at h
  have hlow : 0x30 ≤ c.toNat := h.1
  have hhigh : c.toNat ≤ 0x37 := h.2
  rw [← UInt16.ofNat_toNat (x := c)]
  interval_cases c.toNat <;> decide

variable {offset length : Nat}

theorem readOctal_of_digits {buf : List UInt8} {digits : Str} (hread : readString buf offset length = digits)
    (hne : digits ≠ []) (hdigits : ∀ c ∈ digits, isOctalDigit c = true) :
    readOctal buf offset length = .ok (octalValue digits) := by
  have hdrop : digits.dropWhile isTrimmed = digits := by
    rw [List.dropWhile_eq_self_iff]
    intro hpos
    exact ne_true_of_eq_false (digit_plain (hdigits _ (List.getElem_mem hpos))).1
  have htrim : trimEnd digits = digits := by
    rw [trimEnd_eq_iff]
    intro c hc
    exact (digit_plain (hdigits c (List.mem_of_getLast? hc))).1
  have htake : digits.takeWhile isOctalDigit = digits := List.takeWhile_eq_self_iff.mpr hdigits
  have hvalue : leadingOctal digits = some (octalValue digits) := by
    rw [leadingOctal, htake, if_neg (by rw [List.isEmpty_iff]; exact hne)]
  have hparse : parseInt8 digits = some (octalValue digits : Int) := by
    obtain ⟨c, rest, rfl⟩ := List.exists_cons_of_ne_nil hne
    obtain ⟨-, -, hminus, hplus, -⟩ := digit_plain (hdigits c List.mem_cons_self)
    rw [parseInt8, hdrop]
    split
    · rename_i heq
      injection heq with hc
      exact absurd hc hminus
    · rename_i heq
      injection heq with hc
      exact absurd hc hplus
    · rw [hvalue]
      rfl
  rw [readOctal, hread, hdrop, htrim]
  simp only [hne, if_false, hparse]
  rfl

theorem readBack_plain {s t : Str} (hs : ∀ c ∈ s, c ≠ 0 ∧ c.toNat < 0xD800) (ht : ∀ c ∈ t, c.toNat < 0xD800)
    (hstop : t = [] ∨ t.head? = some 0) : readBack (s ++ t) = trimEnd s := by
  have hwell : WellFormed s := wellFormed_of_low (fun c hc => (hs c hc).2)
  have hlow : ∀ c ∈ s ++ t, c.toNat < 0xD800 := List.forall_mem_append.mpr ⟨fun c hc => (hs c hc).2, ht⟩
  have hchars : chars (s ++ t) = chars s ++ t.map (fun c => Char.ofNat c.toNat) := by
    rw [chars_low hlow, List.map_append, chars_low (fun c hc => (hs c hc).2)]
  have hkeep : ∀ c ∈ chars s, notNul c = true := by
    intro c hc
    by_contra hnul
    exact (hs 0 ((nul_mem_iff hwell).mpr ⟨c, hc, eq_false_of_ne_true hnul⟩)).1 rfl
  have htake : (chars (s ++ t)).takeWhile notNul = chars s := by
    rw [hchars, List.takeWhile_append_of_pos hkeep]
    rcases hstop with rfl | hnul
    · rw [List.map_nil, List.takeWhile_nil, List.append_nil]
    · obtain ⟨rest, rfl⟩ := List.head?_eq_some_iff.mp hnul
      rw [List.map_cons, List.takeWhile_cons, if_neg (by decide), List.append_nil]
  have hmark : (chars s).head? ≠ some mark := by
    intro hhead
    have hunit := (hs 0xFEFF (List.mem_of_head? ((head_chars hwell).mpr hhead))).2
    exact absurd hunit (by decide)
  rw [readBack, htake, withoutMark_of_head hmark, units_chars hwell]

/-- What writing a text into a field of a header does. -/
structure Written (before after : List UInt8) (offset : Nat) (value : Str) (length : Nat) : Prop where
  size : after.length = BLOCK_SIZE
  fits : (utf8 value).length ≤ length
  written : field offset length after = utf8 value ++ field (offset + (utf8 value).length) (length - (utf8 value).length) before
  others : ∀ o n, o + n ≤ offset ∨ offset + length ≤ o → field o n after = field o n before

theorem writeString_written {before after : List UInt8} {value : Str} (hsize : before.length = BLOCK_SIZE)
    (hin : offset + length ≤ BLOCK_SIZE) (h : writeString before offset value length = .ok after) :
    Written before after offset value length := by
  rw [writeString] at h
  split at h
  · cases h
  · rename_i hfits
    cases h
    rw [Nat.not_lt] at hfits
    have hend : offset + (utf8 value).length ≤ before.length := by omega
    refine ⟨?_, hfits, field_writeAt_self hfits (by omega), ?_⟩
    · rw [writeAt_length hend, hsize]
    · intro o n hdisjoint
      exact field_writeAt_of_disjoint hend (by omega)

/-- The fields of a header that are read. -/
structure Header (entry : TarEntry) (header : List UInt8) : Prop where
  size : header.length = BLOCK_SIZE
  name : field 0 NAME_MAX header = utf8 entry.name ++ List.replicate (NAME_MAX - (utf8 entry.name).length) 0
  dataFits : entry.data.length < 8 ^ 11
  dataSize : field 124 12 header = utf8 (octal entry.data.length 11 ++ lit " ")
  type : field 156 1 header = [0x30]

theorem octal_low (h : c ∈ octal v width) : c.toNat < 0x80 :=
  (digit_plain (octal_digit h)).2.2.2.2

theorem field_octal {before after : List UInt8} {offset v width : Nat} {terminator : Str} (hpos : 0 < width)
    (hterminator : ∀ c ∈ terminator, c.toNat < 0x80)
    (h : Written before after offset (octal v width ++ terminator) (width + terminator.length)) :
    v < 8 ^ width ∧ field offset (width + terminator.length) after = utf8 (octal v width ++ terminator) := by
  have hlow : ∀ c ∈ octal v width ++ terminator, c.toNat < 0x80 :=
    List.forall_mem_append.mpr ⟨fun c => octal_low, hterminator⟩
  have hlength := utf8_ascii_length hlow
  have hfits := h.fits
  rw [List.length_append] at hlength
  have hv : v < 8 ^ width := by
    by_contra hlarge
    have hlong := octal_too_long hpos (Nat.not_lt.mp hlarge)
    omega
  have hdigits := octal_length hpos hv
  refine ⟨hv, ?_⟩
  rw [h.written, hlength, hdigits, Nat.sub_self, field, List.take_zero, List.append_nil]

theorem headerFields_header {entry : TarEntry} {header : List UInt8} (h : headerFields entry = .ok header) :
    Header entry header := by
  rw [headerFields, bind_eq_ok] at h
  obtain ⟨h1, hname, h⟩ := h
  rw [bind_eq_ok] at h
  obtain ⟨h2, hmode, h⟩ := h
  rw [bind_eq_ok] at h
  obtain ⟨h3, huid, h⟩ := h
  rw [bind_eq_ok] at h
  obtain ⟨h4, hgid, h⟩ := h
  rw [bind_eq_ok] at h
  obtain ⟨h5, hdata, h⟩ := h
  rw [bind_eq_ok] at h
  obtain ⟨h6, hmtime, h⟩ := h
  rw [bind_eq_ok] at h
  obtain ⟨h7, hmagic, hversion⟩ := h
  have w1 := writeString_written (List.length_replicate) (by decide) hname
  have w2 := writeString_written w1.size (by decide) hmode
  have w3 := writeString_written w2.size (by decide) huid
  have w4 := writeString_written w3.size (by decide) hgid
  have w5 := writeString_written w4.size (by decide) hdata
  have w6 := writeString_written w5.size (by decide) hmtime
  have htype : (writeAt h6 156 [(0x30 : UInt8)]).length = BLOCK_SIZE := by
    rw [writeAt_length (by rw [w6.size]; decide), w6.size]
  have hothers : ∀ o n, o + n ≤ 156 ∨ 157 ≤ o → field o n (writeAt h6 156 [(0x30 : UInt8)]) = field o n h6 := by
    intro o n hdisjoint
    exact field_writeAt_of_disjoint (by rw [w6.size]; decide) hdisjoint
  have w7 := writeString_written htype (by decide) hmagic
  have w8 := writeString_written w7.size (by decide) hversion
  obtain ⟨hfits, hsize⟩ := field_octal (by decide) (forall_of_all (by decide)) w5
  refine ⟨w8.size, ?_, hfits, ?_, ?_⟩
  · rw [w8.others _ _ (by decide), w7.others _ _ (by decide), hothers _ _ (by decide), w6.others _ _ (by decide),
      w5.others _ _ (by decide), w4.others _ _ (by decide), w3.others _ _ (by decide), w2.others _ _ (by decide),
      w1.written, field_replicate]
    have hlen := w1.fits
    rw [NAME_MAX] at hlen ⊢
    rw [BLOCK_SIZE]
    omega
  · rw [w8.others _ _ (by decide), w7.others _ _ (by decide), hothers _ _ (by decide), w6.others _ _ (by decide)]
    exact hsize
  · rw [w8.others _ _ (by decide), w7.others _ _ (by decide), field_writeAt_self (by decide) (by rw [w6.size]; decide)]
    rfl

theorem foldl_checksum_le (f : Nat → Nat) (hf : ∀ i, f i ≤ 255) (n : Nat) :
    (List.range n).foldl (fun sum i => sum + f i) 0 ≤ 255 * n := by
  induction n with
  | zero => exact Nat.le_refl _
  | succ n ih =>
    have hn := hf n
    rw [List.range_succ, List.foldl_append, List.foldl_cons, List.foldl_nil]
    omega

theorem computeChecksum_lt (header : List UInt8) : computeChecksum header < 8 ^ 6 := by
  have hle := foldl_checksum_le (fun i => if 148 ≤ i ∧ i < 156 then 0x20 else (header.getD i 0).toNat) (by
    intro i
    have hbyte := (header.getD i 0).toNat_lt
    split <;> omega) BLOCK_SIZE
  rw [computeChecksum]
  exact Nat.lt_of_le_of_lt hle (by decide)

theorem computeChecksum_congr {header header' : List UInt8} (hbefore : field 0 148 header = field 0 148 header')
    (hafter : field 156 356 header = field 156 356 header') : computeChecksum header = computeChecksum header' := by
  have hbyte : ∀ i < BLOCK_SIZE, ¬ (148 ≤ i ∧ i < 156) → header[i]? = header'[i]? := by
    intro i hi hout
    rw [BLOCK_SIZE] at hi
    by_cases hlow : i < 148
    · have hget := congrArg (fun l => l[i]?) hbefore
      simp only [getElem?_field, if_pos hlow, Nat.zero_add] at hget
      exact hget
    · have hget := congrArg (fun l => l[i - 156]?) hafter
      simp only [getElem?_field, if_pos (show i - 156 < 356 by omega), show 156 + (i - 156) = i by omega] at hget
      exact hget
  rw [computeChecksum, computeChecksum]
  apply List.foldl_ext
  intro sum i hi
  split
  · rfl
  · rename_i hout
    rw [List.getD_eq_getElem?_getD, List.getD_eq_getElem?_getD, hbyte i (List.mem_range.mp hi) hout]

theorem buildHeader_header {entry : TarEntry} {header : List UInt8} (h : buildHeader entry = .ok header) :
    Header entry header ∧ field 148 8 header = utf8 (octal (computeChecksum header) 6 ++ lit "\x00 ") := by
  rw [buildHeader, bind_unit_eq_ok] at h
  obtain ⟨-, h⟩ := h
  rw [bind_eq_ok] at h
  obtain ⟨fields, hfields, hwrite⟩ := h
  have hheader := headerFields_header hfields
  have w := writeString_written hheader.size (by decide) hwrite
  have hsame : computeChecksum header = computeChecksum fields :=
    computeChecksum_congr (w.others _ _ (by decide)) (w.others _ _ (by decide))
  refine ⟨⟨w.size, ?_, hheader.dataFits, ?_, ?_⟩, ?_⟩
  · rw [w.others _ _ (by decide)]
    exact hheader.name
  · rw [w.others _ _ (by decide)]
    exact hheader.dataSize
  · rw [w.others _ _ (by decide)]
    exact hheader.type
  · rw [hsame]
    exact (field_octal (by decide) (forall_of_all (by decide)) w).2

variable {entry : TarEntry} {header : List UInt8}

theorem trimEnd_octal (v width : Nat) : trimEnd (octal v width) = octal v width := by
  rw [trimEnd_eq_iff]
  intro c hc
  exact (digit_plain (octal_digit (List.mem_of_getLast? hc))).1

theorem trimEnd_octal_space (v width : Nat) : trimEnd (octal v width ++ lit " ") = octal v width := by
  have hspace : lit " " = [0x20] := by decide
  rw [hspace, trimEnd, List.rdropWhile_concat_pos _ _ _ (by decide)]
  exact trimEnd_octal v width

theorem octal_ne_nil (hpos : 0 < width) (h : v < 8 ^ width) : octal v width ≠ [] := by
  intro hnil
  have hlen := octal_length hpos h
  rw [hnil, List.length_nil] at hlen
  omega

theorem octal_plain (h : c ∈ octal v width) : c ≠ 0 ∧ c.toNat < 0xD800 := by
  obtain ⟨-, hne, -, -, hlow⟩ := digit_plain (octal_digit h)
  exact ⟨hne, Nat.lt_trans hlow (by decide)⟩

theorem readString_of_field {buf : List UInt8} {offset length n : Nat} {s : Str}
    (h : field offset length buf = utf8 s ++ List.replicate n 0) : readString buf offset length = readBack s := by
  rw [readString, h, decode_padded]

theorem readOctal_size {tail : List UInt8} (h : Header entry header) :
    readOctal (header ++ tail) 124 12 = .ok (entry.data.length : Int) := by
  have hsize := h.size
  rw [BLOCK_SIZE] at hsize
  have hread : readString (header ++ tail) 124 12 = octal entry.data.length 11 := by
    have hfield : field 124 12 (header ++ tail) = utf8 (octal entry.data.length 11 ++ lit " ") ++ List.replicate 0 0 := by
      rw [field_append (by omega), h.dataSize, List.replicate_zero, List.append_nil]
    have hall : ∀ c ∈ octal entry.data.length 11 ++ lit " ", c ≠ 0 ∧ c.toNat < 0xD800 :=
      List.forall_mem_append.mpr ⟨fun c => octal_plain, forall_of_all (by decide)⟩
    have hplain := readBack_plain hall (List.forall_mem_nil _) (.inl rfl)
    rw [List.append_nil] at hplain
    rw [readString_of_field hfield, hplain, trimEnd_octal_space]
  rw [readOctal_of_digits hread (octal_ne_nil (by decide) h.dataFits) (fun c => octal_digit), octalValue_octal]

theorem checkChecksum_ok (h : field 148 8 header = utf8 (octal (computeChecksum header) 6 ++ lit "\x00 ")) :
    checkChecksum header = .ok () := by
  have hread : readString header 148 8 = octal (computeChecksum header) 6 := by
    have hfield : field 148 8 header = utf8 (octal (computeChecksum header) 6 ++ lit "\x00 ") ++ List.replicate 0 0 := by
      rw [h, List.replicate_zero, List.append_nil]
    rw [readString_of_field hfield, readBack_plain (fun c => octal_plain) (forall_of_all (by decide)) (.inr (by decide)), trimEnd_octal]
  have hoctal := readOctal_of_digits hread (octal_ne_nil (by decide) (computeChecksum_lt header)) (fun c => octal_digit)
  rw [octalValue_octal] at hoctal
  rw [checkChecksum, hoctal]
  generalize (computeChecksum header : Int) = checksum
  exact if_neg (not_not.mpr rfl)

theorem padded_length (data : List UInt8) :
    data.length + (padding data).length = (data.length + (BLOCK_SIZE - 1)) / BLOCK_SIZE * BLOCK_SIZE := by
  rw [padding, BLOCK_SIZE]
  split
  · rw [List.length_replicate]
    omega
  · rw [List.length_nil]
    omega

theorem type_byte (h : Header entry header) (tail : List UInt8) : (header ++ tail).getD 156 0 = 0x30 := by
  have hget := congrArg (fun l => l[0]?) h.type
  have hsize := h.size
  rw [BLOCK_SIZE] at hsize
  simp only [getElem?_field] at hget
  rw [List.getD_eq_getElem?_getD, List.getElem?_append_left (by omega)]
  exact congrArg (Option.getD · 0) hget

theorem readEntry_built (h : buildHeader entry = .ok header) (tail : List UInt8) :
    readEntry (header ++ (entry.data ++ padding entry.data ++ tail)) =
      .ok (⟨readBack entry.name, entry.data⟩, BLOCK_SIZE + (entry.data ++ padding entry.data).length) := by
  obtain ⟨hheader, hchecksum⟩ := buildHeader_header h
  have hsize := hheader.size
  have htake : (header ++ (entry.data ++ padding entry.data ++ tail)).take BLOCK_SIZE = header := by
    rw [← hsize, List.take_left]
  have hdrop : (header ++ (entry.data ++ padding entry.data ++ tail)).drop BLOCK_SIZE =
      entry.data ++ (padding entry.data ++ tail) := by
    rw [← hsize, List.drop_left, List.append_assoc]
  have hname : readString (header ++ (entry.data ++ padding entry.data ++ tail)) 0 NAME_MAX = readBack entry.name := by
    apply readString_of_field
    rw [field_append (by rw [hsize]; decide)]
    exact hheader.name
  have hdata : readData (entry.data ++ (padding entry.data ++ tail)) (entry.data.length : Int) = .ok entry.data := by
    rw [readData, Int.toNat_natCast, List.take_left, if_neg (by omega)]
    rfl
  have htype : checkType ((header ++ (entry.data ++ padding entry.data ++ tail)).getD 156 0)
      (readString (header ++ (entry.data ++ padding entry.data ++ tail)) 0 NAME_MAX) = .ok () := by
    rw [type_byte hheader]
    rfl
  rw [readEntry, htake, bind_eq_ok]
  refine ⟨(), checkChecksum_ok hchecksum, ?_⟩
  rw [bind_eq_ok]
  refine ⟨_, readOctal_size hheader, ?_⟩
  rw [bind_eq_ok]
  refine ⟨(), htype, ?_⟩
  rw [hdrop, hdata, hname, Int.toNat_natCast, ← padded_length, List.length_append]
  rfl

theorem isZeroBlock_built (h : Header entry header) (tail : List UInt8) : isZeroBlock (header ++ tail) = false := by
  have hsize := h.size
  rw [isZeroBlock, ← hsize, List.take_left, Bool.eq_false_iff]
  intro hall
  rw [List.all_eq_true] at hall
  have hget := congrArg (fun l => l[0]?) h.type
  simp only [getElem?_field] at hget
  have hbyte : (0x30 : UInt8) ∈ header := List.mem_of_getElem? hget
  exact absurd (of_decide_eq_true (hall _ hbyte)) (by decide)

theorem isZeroBlock_end : isZeroBlock (List.replicate BLOCK_SIZE 0 ++ List.replicate BLOCK_SIZE 0) = true := by
  rw [isZeroBlock, List.take_left' List.length_replicate, List.all_eq_true]
  intro b hb
  exact decide_eq_true (List.eq_of_mem_replicate hb)

variable {entries : List TarEntry} {archive : List UInt8}

theorem unpackEntries_packed (h : packEntries entries = .ok archive) {blocks : Nat} (hblocks : entries.length < blocks) :
    unpackEntries blocks archive = .ok (entries.map (fun entry => ⟨readBack entry.name, entry.data⟩)) := by
  induction entries generalizing archive blocks with
  | nil =>
    cases h
    obtain ⟨n, rfl⟩ := Nat.exists_eq_add_of_lt hblocks
    rw [unpackEntries, if_neg (by rw [List.length_append, List.length_replicate]; omega), isZeroBlock_end, if_pos rfl]
    rfl
  | cons entry rest ih =>
    rw [packEntries, bind_eq_ok] at h
    obtain ⟨header, hheader, h⟩ := h
    rw [bind_eq_ok] at h
    obtain ⟨tail, htail, h⟩ := h
    cases h
    obtain ⟨n, rfl⟩ := Nat.exists_eq_add_of_lt hblocks
    obtain ⟨hfields, -⟩ := buildHeader_header hheader
    have hsize := hfields.size
    have hbody : header ++ entry.data ++ padding entry.data ++ tail =
        header ++ (entry.data ++ padding entry.data ++ tail) := by
      rw [List.append_assoc, List.append_assoc, List.append_assoc]
    have hdrop : (header ++ (entry.data ++ padding entry.data ++ tail)).drop
        (BLOCK_SIZE + (entry.data ++ padding entry.data).length) = tail := by
      rw [← List.drop_drop, ← hsize, List.drop_left, List.drop_left]
    rw [hbody, unpackEntries, if_neg (by rw [List.length_append, hsize]; omega), isZeroBlock_built hfields, if_neg
      Bool.false_ne_true, bind_eq_ok]
    refine ⟨_, readEntry_built hheader _, ?_⟩
    rw [bind_eq_ok]
    refine ⟨_, ?_, rfl⟩
    rw [hdrop]
    exact ih htail (by rw [List.length_cons]; omega)

theorem packEntries_length (h : packEntries entries = .ok archive) :
    ∃ blocks, entries.length < blocks ∧ archive.length = BLOCK_SIZE * blocks := by
  induction entries generalizing archive with
  | nil =>
    cases h
    refine ⟨2, by decide, ?_⟩
    rw [List.length_append, List.length_replicate]
    decide
  | cons entry rest ih =>
    rw [packEntries, bind_eq_ok] at h
    obtain ⟨header, hheader, h⟩ := h
    rw [bind_eq_ok] at h
    obtain ⟨tail, htail, h⟩ := h
    cases h
    obtain ⟨n, hn, hlength⟩ := ih htail
    have hsize := (buildHeader_header hheader).1.size
    have hpadded := padded_length entry.data
    generalize (entry.data.length + (BLOCK_SIZE - 1)) / BLOCK_SIZE = dataBlocks at hpadded
    refine ⟨1 + dataBlocks + n, by rw [List.length_cons]; omega, ?_⟩
    rw [List.length_append, List.length_append, List.length_append, hsize, hlength, Nat.mul_add, Nat.mul_add,
      Nat.mul_comm BLOCK_SIZE dataBlocks]
    omega

theorem checkNames_iff {names : List Str} : checkNames names entries = .ok () ↔
      (∀ entry ∈ entries, entry.name ∉ names) ∧ (entries.map (·.name)).Nodup := by
  induction entries generalizing names with
  | nil =>
    rw [List.map_nil]
    exact iff_of_true rfl ⟨List.forall_mem_nil _, List.nodup_nil⟩
  | cons entry rest ih =>
    have hany : names.any (· = entry.name) = true ↔ entry.name ∈ names := by
      simp only [List.any_eq_true, decide_eq_true_eq, exists_eq_right]
    rw [checkNames, List.map_cons, List.nodup_cons, List.forall_mem_cons]
    by_cases hseen : entry.name ∈ names
    · rw [if_pos (hany.mpr hseen)]
      constructor
      · intro h
        cases h
      · intro h
        exact absurd hseen h.1.1
    · rw [if_neg (mt hany.mp hseen), ih]
      constructor
      · rintro ⟨hnew, hnodup⟩
        refine ⟨⟨hseen, fun e he hmem => hnew e he (List.mem_cons_of_mem _ hmem)⟩, ?_, hnodup⟩
        intro hmem
        obtain ⟨e, he, hname⟩ := List.mem_map.mp hmem
        exact hnew e he (hname ▸ List.mem_cons_self)
      · rintro ⟨⟨-, hnew⟩, hother, hnodup⟩
        refine ⟨?_, hnodup⟩
        intro e he hmem
        rcases List.mem_cons.mp hmem with hsame | hold
        · exact hother (List.mem_map.mpr ⟨e, he, hsame⟩)
        · exact hnew e he hold

theorem sortEntries_perm (entries : List TarEntry) : (sortEntries entries).Perm entries :=
  List.perm_insertionSort _ entries

theorem sortEntries_pairwise (entries : List TarEntry) :
    (sortEntries entries).Pairwise (fun a b => a.name ≤ b.name) := by
  have : IsTrans TarEntry (fun a b => a.name ≤ b.name) := ⟨fun _ _ _ => List.le_trans⟩
  have : Std.Total (fun a b : TarEntry => a.name ≤ b.name) := ⟨fun a b => List.le_total a.name b.name⟩
  exact List.pairwise_insertionSort _ entries

theorem sortEntries_eq_of_perm {entries entries' : List TarEntry} (h : entries'.Perm entries)
    (hnames : (entries.map (·.name)).Nodup) : sortEntries entries' = sortEntries entries := by
  have hperm : (sortEntries entries').Perm (sortEntries entries) :=
    (sortEntries_perm entries').trans (h.trans (sortEntries_perm entries).symm)
  refine hperm.eq_of_pairwise ?_ (sortEntries_pairwise entries') (sortEntries_pairwise entries)
  intro a b ha hb hab hba
  exact List.inj_on_of_nodup_map hnames (h.mem_iff.mp ((sortEntries_perm entries').mem_iff.mp ha))
    ((sortEntries_perm entries).mem_iff.mp hb) (List.le_antisymm hab hba)

theorem packTar_ok (h : packTar entries = .ok archive) :
    (entries.map (·.name)).Nodup ∧ packEntries (sortEntries entries) = .ok archive := by
  rw [packTar, bind_unit_eq_ok] at h
  exact ⟨(checkNames_iff.mp h.1).2, h.2⟩

theorem packTar_of (hnames : (entries.map (·.name)).Nodup) (hpack : packEntries (sortEntries entries) = .ok archive) :
    packTar entries = .ok archive := by
  rw [packTar, bind_unit_eq_ok]
  exact ⟨checkNames_iff.mpr ⟨fun _ _ => List.not_mem_nil, hnames⟩, hpack⟩

/-- A name and a size that a header can hold. -/
def Fits (entry : TarEntry) : Prop :=
  (utf8 entry.name).length ≤ NAME_MAX ∧ entry.name.head? ≠ some 0x2F ∧ entry.data.length < 8 ^ 11

instance (entry : TarEntry) : Decidable (Fits entry) := inferInstanceAs (Decidable (_ ∧ _))

theorem writeString_fits {before : List UInt8} {value : Str} (h : (utf8 value).length ≤ length) :
    writeString before offset value length = .ok (writeAt before offset (utf8 value)) := if_neg (Nat.not_lt.mpr h)

theorem octal_fits {terminator : Str} (hpos : 0 < width) (h : v < 8 ^ width)
    (hterminator : ∀ c ∈ terminator, c.toNat < 0x80) :
    (utf8 (octal v width ++ terminator)).length ≤ width + terminator.length := by
  rw [utf8_ascii_length (List.forall_mem_append.mpr ⟨fun c => octal_low, hterminator⟩), List.length_append,
    octal_length hpos h]

theorem exists_bind {α β : Type} {x : Except TarError α} {f : α → Except TarError β} {a : α} (hx : x = .ok a)
    (h : ∃ r, f a = .ok r) : ∃ r, (x >>= f) = .ok r := by
  obtain ⟨r, hr⟩ := h
  exact ⟨r, bind_eq_ok.mpr ⟨a, hx, hr⟩⟩

theorem headerFields_fits {entry : TarEntry} (h : Fits entry) : ∃ header, headerFields entry = .ok header := by
  rw [headerFields]
  refine exists_bind (writeString_fits h.1) ?_
  refine exists_bind (writeString_fits (by decide)) ?_
  refine exists_bind (writeString_fits (by decide)) ?_
  refine exists_bind (writeString_fits (by decide)) ?_
  refine exists_bind (writeString_fits (octal_fits (by decide) h.2.2 (forall_of_all (by decide)))) ?_
  refine exists_bind (writeString_fits (by decide)) ?_
  refine exists_bind (writeString_fits (by decide)) ?_
  exact ⟨_, writeString_fits (by decide)⟩

theorem buildHeader_fits {entry : TarEntry} (h : Fits entry) : ∃ header, buildHeader entry = .ok header := by
  have hcheck : checkName entry.name = .ok () := by
    rw [checkName, if_neg (Nat.not_lt.mpr h.1), if_neg h.2.1]
    rfl
  obtain ⟨fields, hfields⟩ := headerFields_fits h
  rw [buildHeader]
  refine exists_bind hcheck ?_
  refine exists_bind hfields ?_
  exact ⟨_, writeString_fits (octal_fits (by decide) (computeChecksum_lt fields) (forall_of_all (by decide)))⟩

theorem packEntries_fits (h : ∀ entry ∈ entries, Fits entry) : ∃ archive, packEntries entries = .ok archive := by
  induction entries with
  | nil => exact ⟨_, rfl⟩
  | cons entry rest ih =>
    obtain ⟨hentry, hrest⟩ := List.forall_mem_cons.mp h
    obtain ⟨header, hheader⟩ := buildHeader_fits hentry
    obtain ⟨blocks, hblocks⟩ := ih hrest
    rw [packEntries]
    refine exists_bind hheader ?_
    refine exists_bind hblocks ?_
    exact ⟨_, rfl⟩

theorem packTar_accepts (hnames : (entries.map (·.name)).Nodup) (h : ∀ entry ∈ entries, Fits entry) :
    ∃ archive, packTar entries = .ok archive := by
  have hsorted : ∀ entry ∈ sortEntries entries, Fits entry := by
    intro entry hentry
    exact h entry ((sortEntries_perm entries).mem_iff.mp hentry)
  obtain ⟨archive, hpack⟩ := packEntries_fits hsorted
  exact ⟨archive, packTar_of hnames hpack⟩

theorem packTar_perm {entries entries' : List TarEntry} (h : packTar entries = .ok archive)
    (hperm : entries'.Perm entries) : packTar entries' = .ok archive := by
  obtain ⟨hnames, hpack⟩ := packTar_ok h
  apply packTar_of ((hperm.map _).nodup_iff.mpr hnames)
  rw [sortEntries_eq_of_perm hperm hnames]
  exact hpack

theorem unpackTar_packEntries (h : packEntries entries = .ok archive) :
    unpackTar archive = .ok (entries.map (fun entry => ⟨readBack entry.name, entry.data⟩)) := by
  obtain ⟨blocks, hblocks, hlength⟩ := packEntries_length h
  rw [unpackTar, hlength, Nat.mul_mod_right, if_neg (not_not.mpr rfl), Nat.mul_div_cancel_left _ (by decide)]
  exact unpackEntries_packed h hblocks

theorem unpackTar_packTar (h : packTar entries = .ok archive) :
    unpackTar archive = .ok ((sortEntries entries).map (fun entry => ⟨readBack entry.name, entry.data⟩)) :=
  unpackTar_packEntries (packTar_ok h).2

theorem unpackTar_eq_iff (h : packTar entries = .ok archive) :
    unpackTar archive = .ok (sortEntries entries) ↔ ∀ entry ∈ entries, Portable entry.name := by
  have hmem : ∀ {entry}, entry ∈ sortEntries entries ↔ entry ∈ entries := (sortEntries_perm entries).mem_iff
  rw [unpackTar_packTar h, Except.ok.injEq]
  conv_lhs => rhs; rw [← List.map_id (sortEntries entries)]
  rw [List.map_eq_map_iff]
  constructor
  · intro hsame entry hentry
    have heq := congrArg TarEntry.name (hsame entry (hmem.mpr hentry))
    exact (readBack_eq_iff entry.name).mp heq
  · intro hportable entry hentry
    have hread := (readBack_eq_iff entry.name).mpr (hportable entry (hmem.mp hentry))
    rw [hread]
    rfl

end AgentPassport.TarRoundTrip
