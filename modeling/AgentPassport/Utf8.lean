import AgentPassport.JsText

/-! The UTF-8 bytes of a JavaScript string. They determine the string when every surrogate in it is
one of a pair; an unpaired one is written as U+FFFD. -/
namespace AgentPassport.Utf8
open JsText

def charOf (c : UInt16) : Char := if isHigh c || isLow c then Char.ofNat 0xFFFD else Char.ofNat c.toNat

def pairChar (c d : UInt16) : Char := Char.ofNat (0x10000 + (c.toNat - 0xD800) * 0x400 + (d.toNat - 0xDC00))

def chars : Str → List Char
  | [] => []
  | [c] => [charOf c]
  | c :: d :: rest =>
    if isHigh c && isLow d then pairChar c d :: chars rest else charOf c :: chars (d :: rest)

/-- `new TextEncoder().encode(s)`, `Buffer.from(s, 'utf8')`. -/
def utf8 (s : Str) : List UInt8 := (chars s).flatMap String.utf8EncodeChar

def units (c : Char) : Str :=
  if c.toNat < 0x10000 then [UInt16.ofNat c.toNat]
  else [UInt16.ofNat (0xD800 + (c.toNat - 0x10000) / 0x400), UInt16.ofNat (0xDC00 + (c.toNat - 0x10000) % 0x400)]

variable {c : UInt16}

theorem isHigh_iff : isHigh c = true ↔ 0xD800 ≤ c.toNat ∧ c.toNat ≤ 0xDBFF := by
  rw [isHigh, Bool.and_eq_true, decide_eq_true_eq, decide_eq_true_eq, UInt16.le_iff_toNat_le, UInt16.le_iff_toNat_le]
  rfl

theorem isLow_iff : isLow c = true ↔ 0xDC00 ≤ c.toNat ∧ c.toNat ≤ 0xDFFF := by
  rw [isLow, Bool.and_eq_true, decide_eq_true_eq, decide_eq_true_eq, UInt16.le_iff_toNat_le, UInt16.le_iff_toNat_le]
  rfl

theorem toNat_ofNat_char {n : Nat} (h : n.isValidChar) : (Char.ofNat n).toNat = n := by
  rw [Char.ofNat, dif_pos h]
  rfl

theorem units_charOf (hhigh : isHigh c = false) (hlow : isLow c = false) : units (charOf c) = [c] := by
  have hlt := c.toNat_lt
  have hvalid : c.toNat.isValidChar := by
    have hhigh' := mt isHigh_iff.mpr (ne_true_of_eq_false hhigh)
    have hlow' := mt isLow_iff.mpr (ne_true_of_eq_false hlow)
    simp only [Nat.isValidChar]
    omega
  rw [charOf, hhigh, hlow, Bool.or_self, if_neg Bool.false_ne_true, units, toNat_ofNat_char hvalid, if_pos hlt,
    UInt16.ofNat_toNat]

theorem units_pairChar {c d : UInt16} (hhigh : isHigh c = true) (hlow : isLow d = true) :
    units (pairChar c d) = [c, d] := by
  have hc := isHigh_iff.mp hhigh
  have hd := isLow_iff.mp hlow
  have hvalid : (0x10000 + (c.toNat - 0xD800) * 0x400 + (d.toNat - 0xDC00)).isValidChar := by
    simp only [Nat.isValidChar]
    omega
  have hfirst : 0xD800 + (0x10000 + (c.toNat - 0xD800) * 0x400 + (d.toNat - 0xDC00) - 0x10000) / 0x400 = c.toNat := by
    omega
  have hsecond : 0xDC00 + (0x10000 + (c.toNat - 0xD800) * 0x400 + (d.toNat - 0xDC00) - 0x10000) % 0x400 = d.toNat := by
    omega
  rw [units, pairChar, toNat_ofNat_char hvalid, if_neg (by omega), hfirst, hsecond, UInt16.ofNat_toNat,
    UInt16.ofNat_toNat]

variable {s : Str}

theorem units_chars (h : WellFormed s) : (chars s).flatMap units = s := by
  fun_induction chars s with
  | case1 => rfl
  | case2 c =>
    rw [WellFormed, loneSurrogate] at h
    split at h
    · cases h
    · rename_i hhigh
      split at h
      · cases h
      · rename_i hlow
        rw [List.flatMap_singleton, units_charOf (eq_false_of_ne_true hhigh) (eq_false_of_ne_true hlow)]
  | case3 c d rest hpair ih =>
    obtain ⟨hhigh, hlow⟩ := Bool.and_eq_true_iff.mp hpair
    rw [WellFormed, loneSurrogate, if_pos hhigh, if_pos hlow] at h
    rw [List.flatMap_cons, units_pairChar hhigh hlow, ih h]
    rfl
  | case4 c d rest hpair ih =>
    rw [WellFormed, loneSurrogate] at h
    split at h
    · rename_i hhigh
      split at h
      · rename_i hlow
        exact absurd (Bool.and_eq_true_iff.mpr ⟨hhigh, hlow⟩) hpair
      · cases h
    · rename_i hhigh
      split at h
      · cases h
      · rename_i hlow
        rw [List.flatMap_cons, units_charOf (eq_false_of_ne_true hhigh) (eq_false_of_ne_true hlow), ih h]
        rfl

theorem encode_inj {xs ys : List Char} (h : xs.flatMap String.utf8EncodeChar = ys.flatMap String.utf8EncodeChar) :
    xs = ys := by
  apply String.ofList_injective
  rw [← String.toByteArray_inj, String.toByteArray_ofList, String.toByteArray_ofList, List.utf8Encode,
    List.utf8Encode, h]

theorem utf8_inj {s t : Str} (hs : WellFormed s) (ht : WellFormed t) (h : utf8 s = utf8 t) : s = t := by
  rw [← units_chars hs, ← units_chars ht, encode_inj h]

theorem wellFormed_append {s t : Str} (hs : WellFormed s) (ht : WellFormed t) : WellFormed (s ++ t) := by
  fun_induction loneSurrogate s with
  | case1 => exact ht
  | case2 c hhigh =>
    rw [WellFormed, loneSurrogate, if_pos hhigh] at hs
    cases hs
  | case3 c hhigh hlow =>
    rw [WellFormed, loneSurrogate, if_neg hhigh, if_pos hlow] at hs
    cases hs
  | case4 c hhigh hlow =>
    cases t with
    | nil => exact hs
    | cons d t =>
      rw [WellFormed, List.singleton_append, loneSurrogate, if_neg hhigh, if_neg hlow]
      exact ht
  | case5 c d rest hhigh hlow ih =>
    rw [WellFormed, loneSurrogate, if_pos hhigh, if_pos hlow] at hs
    rw [WellFormed, List.cons_append, List.cons_append, loneSurrogate, if_pos hhigh, if_pos hlow]
    exact ih hs
  | case6 c d rest hhigh hlow =>
    rw [WellFormed, loneSurrogate, if_pos hhigh, if_neg hlow] at hs
    cases hs
  | case7 c d rest hhigh hlow =>
    rw [WellFormed, loneSurrogate, if_neg hhigh, if_pos hlow] at hs
    cases hs
  | case8 c d rest hhigh hlow ih =>
    rw [WellFormed, loneSurrogate, if_neg hhigh, if_neg hlow] at hs
    rw [WellFormed, List.cons_append, List.cons_append, loneSurrogate, if_neg hhigh, if_neg hlow]
    exact ih hs

theorem wellFormed_of_low (h : ∀ c ∈ s, c.toNat < 0xD800) : WellFormed s := by
  induction s with
  | nil => rfl
  | cons c s ih =>
    obtain ⟨hc, hs⟩ := List.forall_mem_cons.mp h
    apply wellFormed_append (s := [c]) _ (ih hs)
    have hhigh : ¬ isHigh c = true := fun hhigh => by have := isHigh_iff.mp hhigh; omega
    have hlow : ¬ isLow c = true := fun hlow => by have := isLow_iff.mp hlow; omega
    rw [WellFormed, loneSurrogate, if_neg hhigh, if_neg hlow]

theorem wellFormed_of_chars (h : ∀ ch ∈ chars s, ch ≠ Char.ofNat 0xFFFD) : WellFormed s := by
  have halone : ∀ {c : UInt16}, charOf c ≠ Char.ofNat 0xFFFD → ¬ isHigh c = true ∧ ¬ isLow c = true := by
    intro c hc
    refine ⟨fun hhigh => hc ?_, fun hlow => hc ?_⟩
    · rw [charOf, hhigh, Bool.true_or, if_pos rfl]
    · rw [charOf, hlow, Bool.or_true, if_pos rfl]
  fun_induction chars s with
  | case1 => rfl
  | case2 c =>
    obtain ⟨hhigh, hlow⟩ := halone (h _ (List.mem_singleton_self _))
    rw [WellFormed, loneSurrogate, if_neg hhigh, if_neg hlow]
  | case3 c d rest hpair ih =>
    obtain ⟨hhigh, hlow⟩ := Bool.and_eq_true_iff.mp hpair
    rw [WellFormed, loneSurrogate, if_pos hhigh, if_pos hlow]
    exact ih (fun ch hch => h ch (List.mem_cons_of_mem _ hch))
  | case4 c d rest hpair ih =>
    obtain ⟨hhigh, hlow⟩ := halone (h _ List.mem_cons_self)
    rw [WellFormed, loneSurrogate, if_neg hhigh, if_neg hlow]
    exact ih (fun ch hch => h ch (List.mem_cons_of_mem _ hch))

def Plain (s : Str) : Prop := ∀ c ∈ s, c.toNat < 0x80

theorem Plain.wellFormed (h : Plain s) : WellFormed s :=
  wellFormed_of_low (fun c hc => Nat.lt_of_lt_of_le (h c hc) (by decide))

theorem Plain.chars_lt (h : Plain s) : ∀ ch ∈ chars s, ch.toNat < 0x80 := by
  have halone : ∀ {c : UInt16}, c.toNat < 0x80 → (charOf c).toNat < 0x80 := by
    intro c hc
    have hhigh : isHigh c = false := eq_false_of_ne_true (fun hhigh => by have := isHigh_iff.mp hhigh; omega)
    have hlow : isLow c = false := eq_false_of_ne_true (fun hlow => by have := isLow_iff.mp hlow; omega)
    have hvalid : c.toNat.isValidChar := .inl (by omega)
    rw [charOf, hhigh, hlow, Bool.or_self, if_neg Bool.false_ne_true, toNat_ofNat_char hvalid]
    exact hc
  fun_induction chars s with
  | case1 => exact fun ch hch => absurd hch List.not_mem_nil
  | case2 c => exact List.forall_mem_singleton.mpr (halone (h c (List.mem_singleton_self c)))
  | case3 c d rest hpair ih =>
    have hhigh := isHigh_iff.mp (Bool.and_eq_true_iff.mp hpair).1
    have hc := h c List.mem_cons_self
    omega
  | case4 c d rest hpair ih =>
    obtain ⟨hc, hrest⟩ := List.forall_mem_cons.mp h
    exact List.forall_mem_cons.mpr ⟨halone hc, ih hrest⟩

theorem wellFormed_of_lowerHex (h : ∀ c ∈ s, isLowerHex c = true) : WellFormed s :=
  wellFormed_of_low (fun c hc => Nat.lt_trans (lowerHex_lt (h c hc)) (by decide))

theorem chars_append (hs : WellFormed s) (t : Str) : chars (s ++ t) = chars s ++ chars t := by
  fun_induction chars s with
  | case1 => rfl
  | case2 c =>
    have hhigh : ¬ isHigh c = true := by
      intro hhigh
      rw [WellFormed, loneSurrogate, if_pos hhigh] at hs
      cases hs
    cases t with
    | nil => rfl
    | cons d t => rw [List.singleton_append, chars, eq_false_of_ne_true hhigh, Bool.false_and, if_neg Bool.false_ne_true,
        List.singleton_append]
  | case3 c d rest hpair ih =>
    obtain ⟨hhigh, hlow⟩ := Bool.and_eq_true_iff.mp hpair
    rw [WellFormed, loneSurrogate, if_pos hhigh, if_pos hlow] at hs
    rw [List.cons_append, List.cons_append, chars, if_pos hpair, ih hs, List.cons_append]
  | case4 c d rest hpair ih =>
    have hrest : WellFormed (d :: rest) := by
      rw [WellFormed, loneSurrogate] at hs
      by_cases hhigh : isHigh c = true
      · rw [if_pos hhigh] at hs
        by_cases hlow : isLow d = true
        · exact absurd (Bool.and_eq_true_iff.mpr ⟨hhigh, hlow⟩) hpair
        · rw [if_neg hlow] at hs
          cases hs
      · rw [if_neg hhigh] at hs
        by_cases hlow : isLow c = true
        · rw [if_pos hlow] at hs
          cases hs
        · rw [if_neg hlow] at hs
          exact hs
    rw [List.cons_append, List.cons_append, chars, if_neg hpair, ← List.cons_append, ih hrest, List.cons_append]

theorem utf8_append (hs : WellFormed s) (t : Str) : utf8 (s ++ t) = utf8 s ++ utf8 t := by
  rw [utf8, chars_append hs, List.flatMap_append]
  rfl

theorem Plain.eq_of_utf8 {s t : Str} (ht : Plain t) (h : utf8 s = utf8 t) : s = t := by
  refine utf8_inj (wellFormed_of_chars ?_) ht.wellFormed h
  intro ch hch heq
  rw [encode_inj h, heq] at hch
  exact absurd (ht.chars_lt _ hch) (by decide)

/-- `s.toWellFormed()`. -/
def toWellFormed (s : Str) : Str := (chars s).flatMap units

theorem toWellFormed_eq (h : WellFormed s) : toWellFormed s = s := units_chars h

theorem toWellFormed_of_bytes {s t : Str} (h : utf8 s = utf8 t) : toWellFormed s = toWellFormed t := by
  rw [toWellFormed, toWellFormed, encode_inj h]

theorem toWellFormed_append (hs : WellFormed s) (t : Str) : toWellFormed (s ++ t) = s ++ toWellFormed t := by
  rw [toWellFormed, chars_append hs, List.flatMap_append, units_chars hs]
  rfl

theorem chars_append_cons (s : Str) {d : UInt16} (hd : isLow d = false) (t : Str) :
    chars (s ++ d :: t) = chars s ++ chars (d :: t) := by
  fun_induction chars s with
  | case1 => rfl
  | case2 c =>
    rw [List.singleton_append, chars, hd, Bool.and_false, if_neg Bool.false_ne_true]
    rfl
  | case3 c e rest hpair ih =>
    rw [List.cons_append, List.cons_append, chars, if_pos hpair, ih]
    rfl
  | case4 c e rest hpair ih =>
    rw [List.cons_append, List.cons_append, chars, if_neg hpair, ← List.cons_append, ih]
    rfl

theorem isLow_ascii (hc : c.toNat < 0x80) : isLow c = false :=
  eq_false_of_ne_true (fun hlow => by have := isLow_iff.mp hlow; omega)

theorem toWellFormed_at (s : Str) (hc : c.toNat < 0x80) (t : Str) :
    toWellFormed (s ++ c :: t) = toWellFormed s ++ c :: toWellFormed t := by
  have halone : WellFormed [c] := (show Plain [c] from List.forall_mem_singleton.mpr hc).wellFormed
  have hrest : toWellFormed (c :: t) = c :: toWellFormed t := toWellFormed_append halone t
  rw [← hrest, toWellFormed, chars_append_cons s (isLow_ascii hc), List.flatMap_append]
  rfl

theorem mem_units_charOf {c u : UInt16} (h : u ∈ units (charOf c)) : u = c ∨ u = 0xFFFD := by
  by_cases hsurrogate : isHigh c || isLow c
  · have hunits : units (Char.ofNat 0xFFFD) = [0xFFFD] := by decide
    rw [charOf, if_pos hsurrogate, hunits] at h
    exact .inr (List.mem_singleton.mp h)
  · rw [Bool.not_eq_true, Bool.or_eq_false_iff] at hsurrogate
    rw [units_charOf hsurrogate.1 hsurrogate.2] at h
    exact .inl (List.mem_singleton.mp h)

theorem mem_toWellFormed {u : UInt16} (h : u ∈ toWellFormed s) : u ∈ s ∨ u = 0xFFFD := by
  rw [toWellFormed] at h
  fun_induction chars s with
  | case1 => exact absurd h List.not_mem_nil
  | case2 c =>
    rw [List.flatMap_singleton] at h
    exact (mem_units_charOf h).imp_left List.mem_singleton.mpr
  | case3 c d rest hpair ih =>
    obtain ⟨hhigh, hlow⟩ := Bool.and_eq_true_iff.mp hpair
    rw [List.flatMap_cons, units_pairChar hhigh hlow, List.mem_append] at h
    obtain hfirst | hrest := h
    · exact .inl (List.mem_append_left rest hfirst)
    · exact (ih hrest).imp_left (List.mem_append_right [c, d])
  | case4 c d rest hpair ih =>
    rw [List.flatMap_cons, List.mem_append] at h
    obtain hfirst | hrest := h
    · exact (mem_units_charOf hfirst).imp_left (fun hu => List.mem_cons.mpr (.inl hu))
    · exact (ih hrest).imp_left (List.mem_cons_of_mem c)

theorem notMem_toWellFormed {u : UInt16} (hu : u.toNat < 0x80) (h : u ∉ s) : u ∉ toWellFormed s := by
  intro hmem
  obtain hs | rfl := mem_toWellFormed hmem
  · exact h hs
  · exact absurd hu (by decide)

end AgentPassport.Utf8
