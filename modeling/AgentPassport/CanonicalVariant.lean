import AgentPassport.LegacyCanonical
import AgentPassport.TextSearch
import Mathlib.Data.List.Infix

/-! Telling the two canonical texts apart by `:null` (`detectCanonicalVariant` of
`core/canonical-jcs.ts`), and for which values the answer is right. -/
namespace AgentPassport.CanonicalVariant
open JsText Js JsonString SeparatedText CanonicalJcs CanonicalInjective LegacyCanonical TextSearch

/-- What `detectCanonicalVariant` answers. -/
inductive Variant where
  | jcs | legacy | ambiguous
  deriving DecidableEq

mutual
def hasNullValues : JsValue → Bool
  | .null => true
  | .arr items => someItem items
  | .obj members => someMember members
  | _ => false

def someItem : List JsValue → Bool
  | [] => false
  | v :: rest => hasNullValues v || someItem rest

/-- `v === null || v === undefined || hasNullValues(v)`. -/
def someMember : List (Str × JsValue) → Bool
  | [] => false
  | (_, v) :: rest => (nullish v || hasNullValues v) || someMember rest
end

/-- `canonicalString.includes(search)`. -/
def includes (canonicalString search : Str) : Bool := decide (search <:+: canonicalString)

def detectCanonicalVariant (obj : JsValue) (canonicalString : Str) : Variant :=
  if !hasNullValues obj then .ambiguous
  else if includes canonicalString (lit ":null") then .jcs
  else .legacy

mutual
def nullMember : JsValue → Bool
  | .arr items => nullMemberItems items
  | .obj members => nullMemberMembers members
  | _ => false

def nullMemberItems : List JsValue → Bool
  | [] => false
  | v :: rest => nullMember v || nullMemberItems rest

def nullMemberMembers : List (Str × JsValue) → Bool
  | [] => false
  | (_, v) :: rest => (isNull v || nullMember v) || nullMemberMembers rest
end

mutual
/-- A string or a member name in which the text occurs. -/
def mentions (search : Str) : JsValue → Bool
  | .str s => includes s search
  | .arr items => mentionsItems search items
  | .obj members => mentionsMembers search members
  | _ => false

def mentionsItems (search : Str) : List JsValue → Bool
  | [] => false
  | v :: rest => mentions search v || mentionsItems search rest

def mentionsMembers (search : Str) : List (Str × JsValue) → Bool
  | [] => false
  | (name, v) :: rest => (includes name search || mentions search v) || mentionsMembers search rest
end

theorem someItem_iff (items : List JsValue) : someItem items = true ↔ ∃ v ∈ items, hasNullValues v = true := by
  induction items with
  | nil => simp [someItem]
  | cons v rest ih => simp [someItem, ih]

theorem someMember_iff (members : List (Str × JsValue)) :
    someMember members = true ↔ ∃ m ∈ members, nullish m.2 = true ∨ hasNullValues m.2 = true := by
  induction members with
  | nil => simp [someMember]
  | cons m rest ih => simp [someMember, ih]

theorem nullMemberItems_iff (items : List JsValue) :
    nullMemberItems items = true ↔ ∃ v ∈ items, nullMember v = true := by
  induction items with
  | nil => simp [nullMemberItems]
  | cons v rest ih => simp [nullMemberItems, ih]

theorem nullMemberMembers_iff (members : List (Str × JsValue)) :
    nullMemberMembers members = true ↔ ∃ m ∈ members, isNull m.2 = true ∨ nullMember m.2 = true := by
  induction members with
  | nil => simp [nullMemberMembers]
  | cons m rest ih => simp [nullMemberMembers, ih]

theorem mentionsItems_iff (search : Str) (items : List JsValue) :
    mentionsItems search items = true ↔ ∃ v ∈ items, mentions search v = true := by
  induction items with
  | nil => simp [mentionsItems]
  | cons v rest ih => simp [mentionsItems, ih]

theorem mentionsMembers_iff (search : Str) (members : List (Str × JsValue)) :
    mentionsMembers search members = true ↔ ∃ m ∈ members, search <:+: m.1 ∨ mentions search m.2 = true := by
  induction members with
  | nil => simp [mentionsMembers]
  | cons m rest ih => simp [mentionsMembers, ih, includes]

theorem search_head : (lit ":null").head? = some 0x3A := by decide

theorem infix_join {sep : UInt16} {p : Str} (hsep : sep ∉ p) (hne : p ≠ []) (parts : List Str) :
    p <:+: join sep parts ↔ ∃ part ∈ parts, p <:+: part := by
  have htail : ∀ x, p <:+: x ++ tail sep parts.tail ↔ p <:+: x ∨ ∃ part ∈ parts.tail, p <:+: part := by
    generalize parts.tail = rest
    induction rest with
    | nil => simp [tail]
    | cons y ys ih =>
      intro x
      rw [tail_cons, infix_cut hsep, ih y]
      simp
  cases parts with
  | nil => simp [join, hne]
  | cons x rest =>
    rw [join_cons, show rest = (x :: rest).tail from rfl, htail x]
    simp

theorem escapeUnit_plain {c : UInt16} (h : 0x20 ≤ c) (hquote : c ≠ 0x22) (hbackslash : c ≠ 0x5C) :
    escapeUnit c = [c] := by
  have hlow : ∀ d : UInt16, d < 0x20 → c ≠ d := fun d hd heq => UInt16.not_lt.mpr h (heq ▸ hd)
  rw [escapeUnit, if_neg (hlow 0x08 (by decide)), if_neg (hlow 0x09 (by decide)), if_neg (hlow 0x0A (by decide)),
    if_neg (hlow 0x0C (by decide)), if_neg (hlow 0x0D (by decide)), if_neg hquote, if_neg hbackslash,
    if_neg (UInt16.not_lt.mpr h)]

theorem hexChar_ne_colon {n : Nat} (h : n < 16) : hexChar n ≠ 0x3A := by
  revert h n
  decide

theorem escapeUnit_cases (c : UInt16) :
    escapeUnit c = [c] ∨ ((∃ rest, escapeUnit c = 0x5C :: rest) ∧ ∀ x ∈ escapeUnit c, x ≠ 0x3A) := by
  have hsimple : ∀ d : UInt16, d ≠ 0x3A →
      (∃ rest, ([0x5C, d] : Str) = 0x5C :: rest) ∧ ∀ x ∈ ([0x5C, d] : Str), x ≠ 0x3A := by
    intro d hd
    refine ⟨⟨[d], rfl⟩, ?_⟩
    simpa using hd
  by_cases hcontrol : c < 0x20
  · refine .inr ?_
    have hlt : c.toNat < 32 := UInt16.lt_iff_toNat_lt.mp hcontrol
    by_cases h8 : c = 0x08
    · rw [h8]
      exact hsimple 0x62 (by decide)
    by_cases h9 : c = 0x09
    · rw [h9]
      exact hsimple 0x74 (by decide)
    by_cases hA : c = 0x0A
    · rw [hA]
      exact hsimple 0x6E (by decide)
    by_cases hC : c = 0x0C
    · rw [hC]
      exact hsimple 0x66 (by decide)
    by_cases hD : c = 0x0D
    · rw [hD]
      exact hsimple 0x72 (by decide)
    have hquote : c ≠ 0x22 := fun h => absurd hcontrol (by rw [h]; decide)
    have hbackslash : c ≠ 0x5C := fun h => absurd hcontrol (by rw [h]; decide)
    rw [escapeUnit, if_neg h8, if_neg h9, if_neg hA, if_neg hC, if_neg hD, if_neg hquote, if_neg hbackslash,
      if_pos hcontrol]
    refine ⟨⟨_, rfl⟩, ?_⟩
    intro x hx
    obtain hx | hx := List.mem_append.mp hx
    · have hall : (lit "\\u00").all (fun x => decide (x ≠ 0x3A)) = true := by decide
      exact of_decide_eq_true (List.all_eq_true.mp hall x hx)
    · obtain rfl | rfl : x = hexChar (c.toNat / 16) ∨ x = hexChar (c.toNat % 16) := by simpa using hx
      · exact hexChar_ne_colon (by omega)
      · exact hexChar_ne_colon (by omega)
  · by_cases hquote : c = 0x22
    · rw [hquote]
      exact .inr (hsimple 0x22 (by decide))
    by_cases hbackslash : c = 0x5C
    · rw [hbackslash]
      exact .inr (hsimple 0x5C (by decide))
    exact .inl (escapeUnit_plain (UInt16.not_lt.mp hcontrol) hquote hbackslash)

theorem search_plain : ∀ c ∈ lit ":null", escapeUnit c = [c] := by
  have hall : (lit ":null").all (fun c => decide (escapeUnit c = [c])) = true := by decide
  exact fun c hc => of_decide_eq_true (List.all_eq_true.mp hall c hc)

theorem infix_opened (s : Str) : lit ":null" <:+: 0x22 :: s.flatMap escapeUnit ↔ lit ":null" <:+: s := by
  have hopen : lit ":null" <:+: [0x22] ++ s.flatMap escapeUnit ↔ lit ":null" <:+: s.flatMap escapeUnit :=
    infix_after _ _ search_head (List.forall_mem_singleton.mpr (by decide))
  exact hopen.trans (infix_written (by decide) search_head search_plain escapeUnit_cases s)

theorem infix_stringify (s : Str) : lit ":null" <:+: stringifyString s ↔ lit ":null" <:+: s := by
  have hclose : lit ":null" <:+: (0x22 :: s.flatMap escapeUnit) ++ 0x22 :: [] ↔
      lit ":null" <:+: 0x22 :: s.flatMap escapeUnit ∨ lit ":null" <:+: [] := infix_cut (by decide) _ _
  have hempty : ¬ lit ":null" <:+: ([] : Str) := by decide
  exact hclose.trans ((or_iff_left hempty).trans (infix_opened s))

theorem exists_written {α : Type*} (f : α → Str) (values : List α) (p : Str) :
    (∃ part ∈ values.map f, p <:+: part) ↔ ∃ v ∈ values, p <:+: f v := by
  simp

theorem infix_bracketed {opening closing : UInt16} (hopening : opening ≠ 0x3A) (hclosing : closing ∉ lit ":null")
    (text : Str) :
    lit ":null" <:+: [opening] ++ text ++ [closing] ↔ lit ":null" <:+: text := by
  have hempty : ¬ lit ":null" <:+: ([] : Str) := by decide
  rw [infix_cut hclosing, or_iff_left hempty]
  exact infix_after _ _ search_head (List.forall_mem_singleton.mpr hopening)

section Texts
variable {numText : Double → Str} (hnum : NumberRendering numText)
include hnum

theorem null_first {v : JsValue} (hv : IsJson v) : lit "null" <+: emit numText v ↔ isNull v = true := by
  constructor
  · intro h
    obtain ⟨c, rest, htext, hkind⟩ := emit_head hnum hv
    have hhead : (0x6E : UInt16) = c := by
      rw [htext] at h
      exact (List.cons_prefix_cons.mp h).1
    rw [← hhead] at hkind
    have hnull : headKind 0x6E = .null := by decide
    rw [hnull] at hkind
    cases hv with
    | null => rfl
    | bool b => cases hkind
    | num d => cases hkind
    | str _ => cases hkind
    | arr _ => cases hkind
    | obj _ _ _ => cases hkind
  · intro h
    cases hv with
    | null => exact List.prefix_rfl
    | bool b => cases h
    | num d => cases h
    | str _ => cases h
    | arr _ => cases h
    | obj _ _ _ => cases h

theorem infix_memberText {m : Str × JsValue} (hm : IsJson m.2) :
    lit ":null" <:+: memberText (emit numText) m ↔
      lit ":null" <:+: m.1 ∨ isNull m.2 = true ∨ lit ":null" <:+: emit numText m.2 := by
  have hcolon : lit ":" = [0x3A] := by decide
  have htext : memberText (emit numText) m =
      (0x22 :: m.1.flatMap escapeUnit) ++ 0x22 :: (0x3A :: emit numText m.2) := by
    rw [memberText, stringifyString, hcolon]
    simp
  have hvalue : lit ":null" <+: 0x3A :: emit numText m.2 ↔ lit "null" <+: emit numText m.2 := by
    have hsearch : lit ":null" = 0x3A :: lit "null" := by decide
    rw [hsearch, List.cons_prefix_cons]
    exact and_iff_right rfl
  rw [htext, infix_cut (by decide), infix_opened, List.infix_cons_iff, hvalue, null_first hnum hm]

theorem infix_emit {v : JsValue} (hv : IsJson v) :
    lit ":null" <:+: emit numText v ↔ nullMember v = true ∨ mentions (lit ":null") v = true := by
  have hliteral : ∀ text : Str, decide (lit ":null" <:+: text) = false →
      (lit ":null" <:+: text ↔ false = true ∨ false = true) := by
    intro text htext
    exact iff_of_false (of_decide_eq_false htext) (by decide)
  induction hv with
  | null => exact hliteral (lit "null") (by decide)
  | bool b =>
    cases b with
    | false => exact hliteral (lit "false") (by decide)
    | true => exact hliteral (lit "true") (by decide)
  | num d =>
    have hcolon : ¬ NumberUnit 0x3A := by
      unfold NumberUnit
      decide
    refine hliteral (numText d) (decide_eq_false ?_)
    intro h
    exact hcolon (hnum.units d _ (h.subset (show (0x3A : UInt16) ∈ lit ":null" by decide)))
  | @str s _ =>
    rw [emit, infix_stringify]
    simp [nullMember, mentions, includes]
  | @arr items _ ih =>
    have hopen : lit "[" = [0x5B] := by decide
    have hclose : lit "]" = [0x5D] := by decide
    rw [emit_arr, hopen, hclose, infix_bracketed (by decide) (by decide), infix_join (by decide) (by decide), nullMember,
      mentions, nullMemberItems_iff, mentionsItems_iff, ← exists_or, exists_written]
    refine exists_congr ?_
    intro v
    rw [← and_or_left]
    exact and_congr_right (ih v)
  | @obj members _ _ hvalues ih =>
    have hopen : lit "\x7b" = [0x7B] := by decide
    have hclose : lit "\x7d" = [0x7D] := by decide
    rw [emit_obj, hopen, hclose, infix_bracketed (by decide) (by decide), infix_join (by decide) (by decide), nullMember,
      mentions, nullMemberMembers_iff, mentionsMembers_iff, ← exists_or, exists_written]
    refine exists_congr ?_
    intro m
    rw [← and_or_left, (sortByName_perm members).mem_iff]
    refine and_congr_right ?_
    intro hm
    have hvalue : lit ":null" <:+: emit numText m.2 ↔
        nullMember m.2 = true ∨ mentions (lit ":null") m.2 = true := ih m hm
    rw [infix_memberText hnum (hvalues m hm), hvalue]
    tauto

end Texts

variable {v : JsValue}

theorem hasNullValues_of_nullMember (hv : IsJson v) (h : nullMember v = true) : hasNullValues v = true := by
  induction hv with
  | null => cases h
  | bool _ => cases h
  | num _ => cases h
  | str _ => cases h
  | arr _ ih =>
    rw [nullMember, nullMemberItems_iff] at h
    rw [hasNullValues, someItem_iff]
    obtain ⟨v, hv, hnull⟩ := h
    exact ⟨v, hv, ih v hv hnull⟩
  | obj _ _ hvalues ih =>
    rw [nullMember, nullMemberMembers_iff] at h
    rw [hasNullValues, someMember_iff]
    obtain ⟨m, hm, hnull⟩ := h
    exact ⟨m, hm, hnull.imp (fun h => (nullish_of_isJson (hvalues m hm)).trans h) (ih m hm)⟩

theorem strip_of_no_nullMember (hv : IsJson v) (h : nullMember v = false) : strip v = v := by
  induction hv with
  | null => rfl
  | bool _ => rfl
  | num _ => rfl
  | str _ => rfl
  | @arr items _ ih =>
    have hitems : ∀ v ∈ items, strip v = id v := by
      intro v hv
      refine ih v hv (Bool.eq_false_iff.mpr ?_)
      exact fun hnull => Bool.eq_false_iff.mp h ((nullMemberItems_iff items).mpr ⟨v, hv, hnull⟩)
    rw [strip_arr, List.map_congr_left hitems, List.map_id]
  | @obj members _ _ _ ih =>
    have hfree : ∀ m ∈ members, isNull m.2 = false ∧ nullMember m.2 = false := by
      intro m hm
      have hnot : ¬ (isNull m.2 = true ∨ nullMember m.2 = true) :=
        fun hnull => Bool.eq_false_iff.mp h ((nullMemberMembers_iff members).mpr ⟨m, hm, hnull⟩)
      rw [not_or, Bool.not_eq_true, Bool.not_eq_true] at hnot
      exact hnot
    have hkept : members.filter (fun m => !isNull m.2) = members :=
      List.filter_eq_self.mpr (fun m hm => by rw [(hfree m hm).1]; rfl)
    have hmembers : ∀ m ∈ members, (m.1, strip m.2) = id m :=
      fun m hm => Prod.ext rfl (ih m hm (hfree m hm).2)
    rw [strip_obj, hkept, List.map_congr_left hmembers, List.map_id]

theorem isNull_strip (v : JsValue) : isNull (strip v) = isNull v := by
  cases v <;> rfl

theorem nullMember_strip (hv : IsJson v) : nullMember (strip v) = false := by
  rw [Bool.eq_false_iff]
  induction hv with
  | null => decide
  | bool _ => exact Bool.false_ne_true
  | num _ => exact Bool.false_ne_true
  | str _ => exact Bool.false_ne_true
  | arr _ ih =>
    intro h
    rw [strip_arr, nullMember, nullMemberItems_iff] at h
    obtain ⟨x, hx, hnull⟩ := h
    obtain ⟨v, hv, rfl⟩ := List.mem_map.mp hx
    exact ih v hv hnull
  | obj _ _ hvalues ih =>
    intro h
    rw [strip_obj, nullMember, nullMemberMembers_iff] at h
    obtain ⟨x, hx, hnull⟩ := h
    obtain ⟨m, hm, rfl⟩ := List.mem_map.mp hx
    obtain ⟨hm, hkept⟩ := List.mem_filter.mp hm
    obtain hnull | hnull := hnull
    · rw [show isNull m.2 = true from (isNull_strip m.2).symm.trans hnull] at hkept
      cases hkept
    · exact ih m hm hnull

theorem isNull_same {v w : JsValue} (h : Same v w) : isNull v = isNull w := by
  cases h <;> rfl

theorem nullMember_same {v w : JsValue} (h : Same v w) (hv : nullMember v = true) : nullMember w = true := by
  induction h with
  | null => cases hv
  | bool _ => cases hv
  | num _ => cases hv
  | str _ => cases hv
  | @arr xs ys hlen _ ih =>
    rw [nullMember, nullMemberItems_iff] at hv ⊢
    obtain ⟨x, hx, hnull⟩ := hv
    obtain ⟨i, hi, rfl⟩ := List.getElem_of_mem hx
    have hzip : (xs[i], ys[i]) ∈ xs.zip ys := by
      rw [← List.getElem_zip (h := by rw [List.length_zip]; omega)]
      exact List.getElem_mem _
    exact ⟨ys[i], List.getElem_mem _, ih _ hzip hnull⟩
  | @obj ms ns hnames hmembers ih =>
    rw [nullMember, nullMemberMembers_iff] at hv ⊢
    obtain ⟨m, hm, hnull⟩ := hv
    obtain ⟨n, hn, hname⟩ := List.mem_map.mp (hnames.mem_iff.mp (List.mem_map_of_mem hm))
    refine ⟨n, hn, hnull.imp ?_ (ih m hm n hn hname.symm)⟩
    exact fun hnull => (isNull_same (hmembers m hm n hn hname.symm)).symm.trans hnull

section Detect
variable (numText : Double → Str)

/-- The two canonical texts of a value are told apart where they differ, and only there. -/
def ToldApart (v : JsValue) : Prop :=
  ∃ jcs legacy, canonicalizeJCS numText v = .ok jcs ∧ canonicalize numText v = .ok (some legacy) ∧
    (detectCanonicalVariant v jcs = .jcs ∨ detectCanonicalVariant v jcs = .ambiguous) ∧
    (detectCanonicalVariant v legacy = .legacy ∨ detectCanonicalVariant v legacy = .ambiguous) ∧
    (detectCanonicalVariant v jcs = .ambiguous ↔ jcs = legacy) ∧
    (detectCanonicalVariant v legacy = .ambiguous ↔ jcs = legacy)

end Detect

theorem detect_of_null (h : hasNullValues v = true) (text : Str) :
    detectCanonicalVariant v text = if includes text (lit ":null") then .jcs else .legacy := by
  rw [detectCanonicalVariant, h]
  rfl

theorem detect_ambiguous (v : JsValue) (text : Str) :
    detectCanonicalVariant v text = .ambiguous ↔ hasNullValues v = false := by
  cases hnull : hasNullValues v with
  | false => simp [detectCanonicalVariant, hnull]
  | true =>
    rw [detect_of_null hnull]
    split <;> simp

/-- The texts are told apart exactly for the values without nulls, and for those with a null member
whose stripped value mentions `:null` in no string and no name. -/
theorem told_apart_iff {numText : Double → Str} (hnum : NumberRendering numText) {v : JsValue} (hv : IsJson v) :
    ToldApart numText v ↔
      hasNullValues v = false ∨ (nullMember v = true ∧ mentions (lit ":null") (strip v) = false) := by
  have hjcs : canonicalizeJCS numText v = .ok (emit numText v) := canonicalizeJCS_ok hv
  have hlegacy : canonicalize numText v = .ok (some (emit numText (strip v))) := canonicalize_json hv
  have hstripped := isJson_strip hv
  have hmentions : includes (emit numText (strip v)) (lit ":null") = true ↔ mentions (lit ":null") (strip v) = true := by
    rw [includes, decide_eq_true_iff, infix_emit hnum hstripped, nullMember_strip hv]
    exact or_iff_right Bool.false_ne_true
  cases hnull : hasNullValues v with
  | false =>
    have hno : nullMember v = false :=
      Bool.eq_false_iff.mpr (fun h => Bool.eq_false_iff.mp hnull (hasNullValues_of_nullMember hv h))
    have hambiguous : ∀ text, detectCanonicalVariant v text = .ambiguous :=
      fun text => (detect_ambiguous v text).mpr hnull
    refine iff_of_true ?_ (.inl rfl)
    refine ⟨_, _, hjcs, hlegacy, .inr (hambiguous _), .inr (hambiguous _), ?_⟩
    rw [strip_of_no_nullMember hv hno]
    exact ⟨iff_of_true (hambiguous _) rfl, iff_of_true (hambiguous _) rfl⟩
  | true =>
    have hdecided : ∀ text, detectCanonicalVariant v text ≠ .ambiguous := by
      intro text h
      exact absurd ((detect_ambiguous v text).mp h) (by rw [hnull]; decide)
    rw [or_iff_right (fun h => nomatch h)]
    constructor
    · intro h
      obtain ⟨jcs, legacy, hj, hl, -, hsecond, htexts, -⟩ := h
      obtain rfl := Except.ok.inj (hjcs.symm.trans hj)
      obtain rfl := Option.some.inj (Except.ok.inj (hlegacy.symm.trans hl))
      have hmember : nullMember v = true := by
        by_contra hno
        rw [Bool.not_eq_true] at hno
        exact hdecided _ (htexts.mpr (by rw [strip_of_no_nullMember hv hno]))
      refine ⟨hmember, Bool.eq_false_iff.mpr ?_⟩
      intro hfound
      obtain hsecond | hsecond := hsecond
      · rw [detect_of_null hnull, if_pos (hmentions.mpr hfound)] at hsecond
        cases hsecond
      · exact hdecided _ hsecond
    · intro h
      obtain ⟨hmember, hfree⟩ := h
      have hdiffer : emit numText v ≠ emit numText (strip v) := by
        intro heq
        have hsame := (emit_eq_iff hnum hv hstripped).mp heq
        exact Bool.eq_false_iff.mp (nullMember_strip hv) (nullMember_same hsame hmember)
      have hfound : includes (emit numText v) (lit ":null") = true := by
        rw [includes, decide_eq_true_iff, infix_emit hnum hv]
        exact .inl hmember
      have hmissing : ¬ includes (emit numText (strip v)) (lit ":null") = true := by
        rw [hmentions, hfree]
        exact Bool.false_ne_true
      refine ⟨_, _, hjcs, hlegacy, .inl ?_, .inl ?_, iff_of_false (hdecided _) hdiffer,
        iff_of_false (hdecided _) hdiffer⟩
      · rw [detect_of_null hnull, if_pos hfound]
      · rw [detect_of_null hnull, if_neg hmissing]

/-- A null item is written by both, and the answer is `legacy`. -/
theorem null_item_named : ¬ ToldApart integerText (.arr [.null]) := by
  intro h
  obtain ⟨jcs, legacy, hjcs, -, hfirst, -, -, -⟩ := h
  have htext : canonicalizeJCS integerText (.arr [.null]) = .ok (lit "[null]") := rfl
  obtain rfl := Except.ok.inj (htext.symm.trans hjcs)
  revert hfirst
  decide

/-- A null member beside a plain string. -/
theorem told_apart_member :
    ToldApart integerText (.obj [(lit "a", .null), (lit "b", .str (lit "c"))]) ∧
      hasNullValues (.obj [(lit "a", .null), (lit "b", .str (lit "c"))]) = true := by
  have hv : IsJson (.obj [(lit "a", .null), (lit "b", .str (lit "c"))]) := by
    refine .obj (by decide) ?_ ?_
    · simp only [List.mem_cons, List.not_mem_nil, or_false, forall_eq_or_imp, forall_eq]
      decide
    · simp only [List.mem_cons, List.not_mem_nil, or_false, forall_eq_or_imp, forall_eq]
      exact ⟨.null, .str (by decide)⟩
  exact ⟨(told_apart_iff integerText_rendering hv).mpr (.inr (by decide)), by decide⟩

end AgentPassport.CanonicalVariant
