import AgentPassport.LegacyCanonical
import AgentPassport.Utf8

/-! The legacy canonical text has no unpaired surrogate, so its UTF-8 bytes determine it. -/
namespace AgentPassport.CanonicalBytes
open JsText Js JsonString SeparatedText
open CanonicalInjective LegacyCanonical Utf8 Outcome

theorem hexChar_low : ∀ n < 16, (hexChar n).toNat < 0xD800 := by decide

theorem unicodeEscape_text (c : UInt16) : WellFormed (unicodeEscape c) := by
  have hc := c.toNat_lt
  apply wellFormed_of_low
  intro u hu
  rw [unicodeEscape, List.mem_append] at hu
  obtain hu | hu := hu
  · exact forall_of_all (p := fun u => u.toNat < 0xD800) (by decide) u hu
  · simp only [List.mem_cons, List.not_mem_nil, or_false] at hu
    obtain rfl | rfl | rfl | rfl := hu
    · exact hexChar_low _ (by omega)
    · exact hexChar_low _ (by omega)
    · exact hexChar_low _ (by omega)
    · exact hexChar_low _ (by omega)

theorem verbatim_or_low_ite {c : UInt16} {p : Prop} [Decidable p] {s t : Str} (hs : ∀ u ∈ s, u.toNat < 0xD800)
    (ht : ¬ p → t = [c] ∨ ∀ u ∈ t, u.toNat < 0xD800) :
    (if p then s else t) = [c] ∨ ∀ u ∈ (if p then s else t), u.toNat < 0xD800 := by
  by_cases hp : p
  · rw [if_pos hp]
    exact .inr hs
  · rw [if_neg hp]
    exact ht hp

theorem escapeUnit_cases (c : UInt16) : escapeUnit c = [c] ∨ ∀ u ∈ escapeUnit c, u.toNat < 0xD800 := by
  rw [escapeUnit]
  refine verbatim_or_low_ite (forall_of_all (by decide)) fun _ => ?_
  refine verbatim_or_low_ite (forall_of_all (by decide)) fun _ => ?_
  refine verbatim_or_low_ite (forall_of_all (by decide)) fun _ => ?_
  refine verbatim_or_low_ite (forall_of_all (by decide)) fun _ => ?_
  refine verbatim_or_low_ite (forall_of_all (by decide)) fun _ => ?_
  refine verbatim_or_low_ite (forall_of_all (by decide)) fun _ => ?_
  refine verbatim_or_low_ite (forall_of_all (by decide)) fun _ => ?_
  by_cases hcontrol : c < 0x20
  · rw [if_pos hcontrol]
    rw [UInt16.lt_iff_toNat_lt] at hcontrol
    have hcontrol : c.toNat < 32 := hcontrol
    refine .inr ?_
    intro u hu
    rw [List.mem_append] at hu
    obtain hu | hu := hu
    · exact forall_of_all (p := fun u => u.toNat < 0xD800) (by decide) u hu
    · simp only [List.mem_cons, List.not_mem_nil, or_false] at hu
      obtain rfl | rfl := hu
      · exact hexChar_low _ (by omega)
      · exact hexChar_low _ (by omega)
  · rw [if_neg hcontrol]
    exact .inl rfl

theorem escapeUnit_surrogate {c : UInt16} (h : 0xD800 ≤ c.toNat) : escapeUnit c = [c] := by
  have hne : ∀ u : UInt16, u.toNat < 0xD800 → c ≠ u := by
    intro u hu heq
    rw [heq] at h
    omega
  rw [escapeUnit, if_neg (hne _ (by decide)), if_neg (hne _ (by decide)), if_neg (hne _ (by decide)),
    if_neg (hne _ (by decide)), if_neg (hne _ (by decide)), if_neg (hne _ (by decide)), if_neg (hne _ (by decide)),
    if_neg]
  rw [UInt16.lt_iff_toNat_lt]
  have h32 : (0x20 : UInt16).toNat = 32 := rfl
  omega

theorem escapeUnit_text {c : UInt16} (hhigh : ¬ isHigh c = true) (hlow : ¬ isLow c = true) :
    WellFormed (escapeUnit c) := by
  obtain h | h := escapeUnit_cases c
  · rw [h, WellFormed, loneSurrogate, if_neg hhigh, if_neg hlow]
  · exact wellFormed_of_low h

theorem escapeUnits_text (s : Str) : WellFormed (escapeUnits s) := by
  fun_induction escapeUnits s with
  | case1 => rfl
  | case2 c _ => exact unicodeEscape_text c
  | case3 c hsurrogate =>
    rw [Bool.or_eq_true, not_or] at hsurrogate
    exact escapeUnit_text hsurrogate.1 hsurrogate.2
  | case4 c d rest hhigh hlow ih =>
    have hc := isHigh_iff.mp hhigh
    have hd := isLow_iff.mp hlow
    rw [escapeUnit_surrogate hc.1, escapeUnit_surrogate (by omega), WellFormed, List.singleton_append,
      List.singleton_append, loneSurrogate, if_pos hhigh, if_pos hlow]
    exact ih
  | case5 c d rest _ _ ih => exact wellFormed_append (unicodeEscape_text c) ih
  | case6 c d rest _ _ ih => exact wellFormed_append (unicodeEscape_text c) ih
  | case7 c d rest hhigh hlow ih => exact wellFormed_append (escapeUnit_text hhigh hlow) ih

theorem stringify_text (s : Str) : WellFormed (stringify s) := by
  have hquote : WellFormed [0x22] := by decide
  exact wellFormed_append hquote (wellFormed_append (escapeUnits_text s) hquote)

theorem join_text {parts : List Str} (h : ∀ p ∈ parts, WellFormed p) : WellFormed (join 0x2C parts) := by
  have hcomma : WellFormed [0x2C] := by decide
  fun_induction join (0x2C : UInt16) parts with
  | case1 => rfl
  | case2 x => exact h x List.mem_cons_self
  | case3 x y rest ih =>
    obtain ⟨hx, hrest⟩ := List.forall_mem_cons.mp h
    exact wellFormed_append hx (wellFormed_append hcomma (ih hrest))

theorem mapPairs_text {members : List (Str × JsValue × Except LegacyError (Option Str))} {pairs : List Str}
    (ih : ∀ m ∈ members, ∀ t, m.2.2 = .ok (some t) → WellFormed t) (h : mapPairs members = .ok pairs) :
    ∀ p ∈ pairs, WellFormed p := by
  induction members generalizing pairs with
  | nil =>
    cases h
    intro p hp
    cases hp
  | cons m rest ihrest =>
    obtain ⟨name, v, text⟩ := m
    rw [mapPairs] at h
    obtain ⟨text, htext, h⟩ := bind_eq_ok.mp h
    obtain ⟨others, hothers, h⟩ := bind_eq_ok.mp h
    cases h
    obtain ⟨hm, hrest⟩ := List.forall_mem_cons.mp ih
    refine List.forall_mem_cons.mpr ⟨?_, ihrest hrest hothers⟩
    refine wellFormed_append (wellFormed_append (stringify_text name) (by decide)) ?_
    cases text with
    | none => decide
    | some t => exact hm t htext

/-- What a value's text would be, if it has one. -/
def HasText (numText : Double → Str) (v : JsValue) : Prop := ∀ t, canonicalize numText v = .ok (some t) → WellFormed t

theorem items_text {numText : Double → Str} {items : List JsValue} (ih : ∀ v ∈ items, HasText numText v) {parts : List (Option Str)}
    (h : canonicalizeItems numText items = .ok parts) : ∀ p ∈ parts, WellFormed (p.getD []) := by
  induction items generalizing parts with
  | nil =>
    rw [canonicalizeItems] at h
    cases h
    intro p hp
    cases hp
  | cons v rest ihrest =>
    rw [canonicalizeItems] at h
    obtain ⟨part, hpart, h⟩ := bind_eq_ok.mp h
    obtain ⟨others, hothers, h⟩ := bind_eq_ok.mp h
    cases h
    obtain ⟨hv, hrest⟩ := List.forall_mem_cons.mp ih
    refine List.forall_mem_cons.mpr ⟨?_, ihrest hrest hothers⟩
    cases part with
    | none => rfl
    | some t => exact hv t hpart

section
variable {numText : Double → Str} (hnum : NumberRendering numText)
include hnum

theorem numText_text (d : Double) : WellFormed (numText d) := by
  apply wellFormed_of_low
  intro c hc
  obtain hdigit | rfl | rfl | rfl | rfl := hnum.units d c hc
  · rw [isDigit, Bool.and_eq_true, decide_eq_true_eq, decide_eq_true_eq, UInt16.le_iff_toNat_le,
      UInt16.le_iff_toNat_le] at hdigit
    have hhi : c.toNat ≤ 57 := hdigit.2
    omega
  · decide
  · decide
  · decide
  · decide

theorem stringifyPrimitive_text {v : JsValue} {t : Str} (h : stringifyPrimitive numText v = .ok (some t)) :
    WellFormed t := by
  have hlit : WellFormed (lit "null") := by decide
  cases v with
  | bool b =>
    cases b with
    | false =>
      cases h
      decide
    | true =>
      cases h
      decide
  | num n =>
    cases n with
    | finite d =>
      cases h
      exact numText_text hnum d
    | nan =>
      cases h
      exact hlit
    | infinite neg =>
      cases h
      exact hlit
  | str s =>
    cases h
    exact stringify_text s
  | other type => cases type <;> cases h
  | date iso =>
    cases iso with
    | none =>
      cases h
      exact hlit
    | some iso =>
      cases h
      exact stringify_text iso
  | undefined =>
    cases h
    exact hlit
  | null =>
    cases h
    exact hlit
  | arr items =>
    cases h
    exact hlit
  | obj members =>
    cases h
    exact hlit

theorem hasText (v : JsValue) : HasText numText v := by
  induction v using JsValue.members_induction with
  | undefined =>
    intro t h
    cases h
    decide
  | null =>
    intro t h
    cases h
    decide
  | bool b =>
    intro t h
    exact stringifyPrimitive_text hnum (v := .bool b) h
  | num n =>
    intro t h
    exact stringifyPrimitive_text hnum (v := .num n) h
  | str s =>
    intro t h
    exact stringifyPrimitive_text hnum (v := .str s) h
  | other type =>
    intro t h
    exact stringifyPrimitive_text hnum (v := .other type) h
  | date iso =>
    intro t h
    exact stringifyPrimitive_text hnum (v := .date iso) h
  | arr items ih =>
    intro t h
    rw [canonicalize] at h
    obtain ⟨parts, hparts, h⟩ := bind_eq_ok.mp h
    cases h
    refine wellFormed_append (wellFormed_append (by decide) (join_text ?_)) (by decide)
    intro p hp
    obtain ⟨part, hpart, rfl⟩ := List.mem_map.mp hp
    exact items_text ih hparts part hpart
  | obj members ih =>
    intro t h
    rw [canonicalize] at h
    obtain ⟨pairs, hpairs, h⟩ := bind_eq_ok.mp h
    cases h
    refine wellFormed_append (wellFormed_append (by decide) (join_text ?_)) (by decide)
    apply mapPairs_text _ hpairs
    intro m hm s hs
    have hmem := (sortByName_perm _).mem_iff.mp (List.mem_of_mem_filter hm)
    rw [canonicalizeMembers_eq] at hmem
    obtain ⟨n, hn, rfl⟩ := List.mem_map.mp hmem
    exact ih n hn s hs

theorem canonicalize_text {v : JsValue} {t : Str} (h : canonicalize numText v = .ok (some t)) : WellFormed t :=
  hasText hnum v t h

theorem canonicalize_of_bytes {v w : JsValue} {s t : Str} (hv : canonicalize numText v = .ok (some s))
    (hw : canonicalize numText w = .ok (some t)) (h : utf8 s = utf8 t) :
    canonicalize numText v = canonicalize numText w := by
  rw [hv, hw, utf8_inj (canonicalize_text hnum hv) (canonicalize_text hnum hw) h]

theorem emit_text {v : JsValue} (h : IsJson v) : WellFormed (emit numText v) := by
  induction h with
  | null => exact show WellFormed (lit "null") by decide
  | bool b =>
    cases b with
    | true => exact show WellFormed (lit "true") by decide
    | false => exact show WellFormed (lit "false") by decide
  | num d => exact numText_text hnum d
  | @str s hs =>
    rw [emit, ← LegacyCanonical.stringify_wellFormed hs]
    exact stringify_text s
  | @arr items _ ih =>
    rw [emit, emitItems_eq_map]
    refine wellFormed_append (wellFormed_append (by decide) (join_text ?_)) (by decide)
    intro part hpart
    obtain ⟨v, hv, rfl⟩ := List.mem_map.mp hpart
    exact ih v hv
  | @obj members _ hnames _ ih =>
    rw [emit, emitMembers_eq_map]
    refine wellFormed_append (wellFormed_append (by decide) (join_text ?_)) (by decide)
    intro part hpart
    obtain ⟨m, hm, rfl⟩ := List.mem_map.mp hpart
    rw [(sortByName_perm _).mem_iff] at hm
    obtain ⟨n, hn, rfl⟩ := List.mem_map.mp hm
    refine wellFormed_append (wellFormed_append ?_ (by decide)) (ih n hn)
    rw [← LegacyCanonical.stringify_wellFormed (hnames n hn)]
    exact stringify_text n.1

end

end AgentPassport.CanonicalBytes
