import Mathlib.Data.List.Induction

/-! The first match of a pattern in a text, over arbitrary symbols: where a symbol that no match
contains divides the text, and which parts of the text can be passed over. -/
namespace AgentPassport.TextSearch
variable {β α : Type} {here : List β → Option α}

/-- What a pattern, tried at each place in turn, yields first. -/
def firstMatch (here : List β → Option α) : List β → Option α
  | [] => here []
  | c :: rest =>
    match here (c :: rest) with
    | some found => some found
    | none => firstMatch here rest

theorem firstMatch_found {c : β} {rest : List β} {found : α} (h : here (c :: rest) = some found) :
    firstMatch here (c :: rest) = some found := by
  rw [firstMatch, h]

theorem firstMatch_next {c : β} {rest : List β} (h : here (c :: rest) = none) :
    firstMatch here (c :: rest) = firstMatch here rest := by
  rw [firstMatch, h]

def BeginsWith (here : List β → Option α) (mark : β) : Prop := ∀ c rest, c ≠ mark → here (c :: rest) = none

theorem BeginsWith.skip {mark : β} (h : BeginsWith here mark) {a : List β} (ha : ∀ c ∈ a, c ≠ mark) (b : List β) :
    firstMatch here (a ++ b) = firstMatch here b := by
  induction a with
  | nil => rfl
  | cons c a ih =>
    obtain ⟨hc, ha⟩ := List.forall_mem_cons.mp ha
    rw [List.cons_append, firstMatch_next (h c _ hc), ih ha]

theorem BeginsWith.skip_mark {mark : β} (h : BeginsWith here mark) {a : List β} (ha : ∀ c ∈ a, c ≠ mark) (b : List β)
    (hhere : here (mark :: (a ++ b)) = none) : firstMatch here (mark :: (a ++ b)) = firstMatch here b := by
  rw [firstMatch_next hhere, h.skip ha]

/-- The empty text does not match, and no match runs over the symbol. -/
structure Cut (here : List β → Option α) (q : β) : Prop where
  empty : here [] = none
  cut : ∀ a b, here (a ++ q :: b) = here a

theorem Cut.next {q : β} (h : Cut here q) (b : List β) : firstMatch here (q :: b) = firstMatch here b :=
  firstMatch_next ((h.cut [] b).trans h.empty)

theorem Cut.firstMatch_append {q : β} (h : Cut here q) (a b : List β) :
    firstMatch here (a ++ q :: b) = (firstMatch here a).orElse (fun _ => firstMatch here b) := by
  induction a with
  | nil =>
    rw [List.nil_append, h.next, firstMatch, h.empty]
    rfl
  | cons c a ih =>
    have hcut := h.cut (c :: a) b
    cases hhere : here (c :: a) with
    | some found =>
      rw [hhere] at hcut
      rw [List.cons_append] at hcut ⊢
      rw [firstMatch_found hcut, firstMatch_found hhere]
      rfl
    | none =>
      rw [hhere] at hcut
      rw [List.cons_append] at hcut ⊢
      rw [firstMatch_next hcut, firstMatch_next hhere, ih]

theorem takeWhile_cut {p : β → Bool} {q : β} (hq : p q = false) (a b : List β) :
    (a ++ q :: b).takeWhile p = a.takeWhile p := by
  induction a with
  | nil => rw [List.nil_append, List.takeWhile_cons, hq, List.takeWhile_nil]; rfl
  | cons c a ih =>
    rw [List.cons_append, List.takeWhile_cons, List.takeWhile_cons, ih]

section Prefixes
variable [BEq β] [LawfulBEq β]

theorem isPrefixOf_cut {p : List β} {q : β} (hq : q ∉ p) (a b : List β) :
    p.isPrefixOf (a ++ q :: b) = p.isPrefixOf a := by
  induction p generalizing a with
  | nil => rw [List.isPrefixOf, List.isPrefixOf]
  | cons x p ih =>
    have hx : x ≠ q := fun heq => hq (heq ▸ List.mem_cons_self)
    have hp : q ∉ p := fun hmem => hq (List.mem_cons_of_mem x hmem)
    cases a with
    | nil =>
      have hfalse : (x :: p).isPrefixOf [] = false := rfl
      rw [List.nil_append, hfalse, List.isPrefixOf_cons_cons, beq_false_of_ne hx, Bool.false_and]
    | cons y a => rw [List.cons_append, List.isPrefixOf, List.isPrefixOf, ih hp]

end Prefixes

/-- Each symbol of one kind gets another in front of it. -/
def escape [DecidableEq β] (mark unit : β) (text : List β) : List β :=
  text.flatMap (fun c => if c = unit then [mark, c] else [c])

section Escape
variable [DecidableEq β] {mark unit : β}

theorem escape_cons (c : β) (text : List β) :
    escape mark unit (c :: text) = (if c = unit then [mark, c] else [c]) ++ escape mark unit text := rfl

theorem escape_append (a b : List β) : escape mark unit (a ++ b) = escape mark unit a ++ escape mark unit b :=
  List.flatMap_append

theorem escape_free {text : List β} (h : unit ∉ text) : escape mark unit text = text := by
  induction text with
  | nil => rfl
  | cons c text ih =>
    have hc : c ≠ unit := fun heq => h (heq ▸ List.mem_cons_self)
    have htext : unit ∉ text := fun hmem => h (List.mem_cons_of_mem c hmem)
    rw [escape_cons, if_neg hc, ih htext]
    rfl

theorem Cut.here_escape (hunit : Cut here unit) (hmark : Cut here mark) (text : List β) :
    here (escape mark unit text) = here text := by
  by_cases hmem : unit ∈ text
  · obtain ⟨a, b, rfl, hfree⟩ := List.eq_append_cons_of_mem hmem
    rw [escape_append, escape_free hfree, escape_cons, if_pos rfl, List.cons_append, hmark.cut, hunit.cut]
  · rw [escape_free hmem]

theorem Cut.firstMatch_escape (hunit : Cut here unit) (hmark : Cut here mark) (text : List β) :
    firstMatch here (escape mark unit text) = firstMatch here text := by
  induction text with
  | nil => rfl
  | cons c text ih =>
    by_cases hc : c = unit
    · subst hc
      rw [escape_cons, if_pos rfl, List.cons_append, List.cons_append, List.nil_append, hmark.next, hunit.next,
        hunit.next, ih]
    · have hhere := hunit.here_escape hmark (c :: text)
      rw [escape_cons, if_neg hc, List.cons_append, List.nil_append] at hhere ⊢
      cases hfound : here (c :: text) with
      | some found => rw [firstMatch_found (hhere.trans hfound), firstMatch_found hfound]
      | none => rw [firstMatch_next (hhere.trans hfound), firstMatch_next hfound, ih]

theorem escape_twice_cons (c : β) (text : List β) (hne : unit ≠ mark) :
    escape mark unit (escape mark mark (c :: text)) =
      (if c = mark ∨ c = unit then [mark, c] else [c]) ++ escape mark unit (escape mark mark text) := by
  have hmark : escape mark unit [mark] = [mark] := escape_free (by simpa using hne)
  rw [escape_cons, escape_append]
  by_cases hc : c = mark
  · rw [if_pos hc, if_pos (.inl hc), hc, escape_cons, if_neg hne.symm, hmark]
    rfl
  · rw [if_neg hc]
    refine congrArg (· ++ _) ?_
    by_cases hunit : c = unit
    · rw [if_pos (.inr hunit), hunit, escape_cons, if_pos rfl]
      rfl
    · rw [if_neg (not_or.mpr ⟨hc, hunit⟩)]
      exact escape_free (by simpa using fun h => hunit h.symm)

theorem escape_unique (hne : unit ≠ mark) {v w a b : List β}
    (h : escape mark unit (escape mark mark v) ++ unit :: a = escape mark unit (escape mark mark w) ++ unit :: b) :
    v = w ∧ a = b := by
  have hbegin : ∀ (c : β) (rest x : List β),
      (if c = mark ∨ c = unit then [mark, c] else [c]) ++ rest ≠ unit :: x := by
    intro c rest x heq
    by_cases hc : c = mark ∨ c = unit
    · rw [if_pos hc] at heq
      exact hne (List.cons.inj heq).1.symm
    · rw [if_neg hc] at heq
      exact hc (.inr (List.cons.inj heq).1)
  induction v generalizing w with
  | nil =>
    cases w with
    | nil => exact ⟨rfl, (List.cons.inj h).2⟩
    | cons d w =>
      rw [escape_twice_cons d w hne, List.append_assoc] at h
      exact absurd h.symm (hbegin d _ a)
  | cons c v ih =>
    cases w with
    | nil =>
      rw [escape_twice_cons c v hne, List.append_assoc] at h
      exact absurd h (hbegin c _ b)
    | cons d w =>
      rw [escape_twice_cons c v hne, escape_twice_cons d w hne, List.append_assoc, List.append_assoc] at h
      have hsame : c = d ∧ escape mark unit (escape mark mark v) ++ unit :: a =
          escape mark unit (escape mark mark w) ++ unit :: b := by
        by_cases hc : c = mark ∨ c = unit
        · by_cases hd : d = mark ∨ d = unit
          · rw [if_pos hc, if_pos hd] at h
            exact List.cons.inj (List.cons.inj h).2
          · rw [if_pos hc, if_neg hd] at h
            exact absurd (List.cons.inj h).1.symm (fun heq => hd (.inl heq))
        · by_cases hd : d = mark ∨ d = unit
          · rw [if_neg hc, if_pos hd] at h
            exact absurd (List.cons.inj h).1 (fun heq => hc (.inl heq))
          · rw [if_neg hc, if_neg hd] at h
            exact List.cons.inj h
      obtain ⟨rfl, hab⟩ := ih hsame.2
      exact ⟨by rw [hsame.1], hab⟩

theorem suffix_escape {s : List β} (hunit : unit ∉ s) (hmark : mark ∉ s) (text : List β) :
    s <:+ escape mark unit text ↔ s <:+ text := by
  induction text using List.reverseRecOn generalizing s with
  | nil => rfl
  | append_singleton text c ih =>
    rw [escape_append]
    obtain rfl | ⟨s, x, rfl⟩ := List.eq_nil_or_concat s
    · simp
    · rw [List.concat_eq_append] at hunit hmark ⊢
      rw [List.mem_append, not_or, List.mem_singleton] at hunit hmark
      by_cases hc : c = unit
      · subst hc
        have hescape : escape mark c [c] = [mark] ++ [c] := by
          rw [escape_cons, if_pos rfl]
          rfl
        have hne : ¬ x = c := fun h => hunit.2 h.symm
        rw [hescape, ← List.append_assoc, List.suffix_concat_iff, List.suffix_concat_iff]
        simp [hne]
      · have hescape : escape mark unit [c] = [c] := by
          rw [escape_cons, if_neg hc]
          rfl
        rw [hescape]
        simp only [List.suffix_concat_iff]
        simp [ih hunit.1 hmark.1]

end Escape

theorem suffix_after {s x y : List β} {q : β} (hq : q ∉ s) : s <:+ x ++ q :: y ↔ s <:+ y := by
  have htail : q :: y <:+ x ++ q :: y := List.suffix_append x (q :: y)
  constructor
  · intro h
    by_cases hlength : s.length ≤ y.length
    · exact List.suffix_of_suffix_length_le h ((List.suffix_cons q y).trans htail) hlength
    · have hcover : q :: y <:+ s := List.suffix_of_suffix_length_le htail h (by rw [List.length_cons]; omega)
      exact absurd (hcover.subset List.mem_cons_self) hq
  · intro h
    exact h.trans ((List.suffix_cons q y).trans htail)

section Infix
variable {p : List β}

theorem prefix_cut {q : β} (hq : q ∉ p) (a b : List β) : p <+: a ++ q :: b ↔ p <+: a := by
  induction a generalizing p with
  | nil =>
    cases p with
    | nil => exact iff_of_true List.nil_prefix List.nil_prefix
    | cons x p =>
      have hx : x ≠ q := fun heq => hq (heq ▸ List.mem_cons_self)
      exact iff_of_false (fun h => hx (List.cons_prefix_cons.mp h).1) (fun h => nomatch List.prefix_nil.mp h)
  | cons c a ih =>
    cases p with
    | nil => exact iff_of_true List.nil_prefix List.nil_prefix
    | cons x p =>
      rw [List.cons_append, List.cons_prefix_cons, List.cons_prefix_cons,
        ih (fun hmem => hq (List.mem_cons_of_mem x hmem))]

theorem infix_cut {q : β} (hq : q ∉ p) (a b : List β) : p <:+: a ++ q :: b ↔ p <:+: a ∨ p <:+: b := by
  induction a with
  | nil =>
    have hempty : p <+: q :: b ↔ p <+: [] := prefix_cut hq [] b
    rw [List.nil_append, List.infix_cons_iff, hempty, List.prefix_nil, List.infix_nil]
  | cons c a ih =>
    have hcut := prefix_cut hq (c :: a) b
    rw [List.cons_append] at hcut ⊢
    rw [List.infix_cons_iff, List.infix_cons_iff, hcut, ih, or_assoc]

theorem infix_after {mark : β} (a b : List β) (hmark : p.head? = some mark) (ha : ∀ c ∈ a, c ≠ mark) :
    p <:+: a ++ b ↔ p <:+: b := by
  induction a with
  | nil => rfl
  | cons c a ih =>
    obtain ⟨hc, ha⟩ := List.forall_mem_cons.mp ha
    have hnot : ¬ p <+: c :: (a ++ b) := by
      intro h
      cases p with
      | nil => cases hmark
      | cons x p => exact hc ((List.cons_prefix_cons.mp h).1.symm.trans (Option.some.inj hmark))
    rw [List.cons_append, List.infix_cons_iff, or_iff_right hnot, ih ha]

/-- Symbols are written out, one as itself or as some escape. A text of symbols written as themselves
begins the written text as it begins the text. -/
theorem prefix_written {write : β → List β} {mark : β} (hmark : mark ∉ p) (hplain : ∀ c ∈ p, write c = [c])
    (hwrite : ∀ c, write c = [c] ∨ ∃ rest, write c = mark :: rest) (text : List β) :
    p <+: text.flatMap write ↔ p <+: text := by
  induction p generalizing text with
  | nil => exact iff_of_true List.nil_prefix List.nil_prefix
  | cons x p ih =>
    obtain ⟨hx, hp⟩ := List.forall_mem_cons.mp hplain
    rw [List.mem_cons, not_or] at hmark
    cases text with
    | nil => rfl
    | cons c text =>
      obtain hc | ⟨rest, hc⟩ := hwrite c
      · rw [List.flatMap_cons, hc, List.singleton_append, List.cons_prefix_cons, List.cons_prefix_cons,
          ih hmark.2 hp]
      · have hne : x ≠ c := by
          intro heq
          rw [← heq, hx] at hc
          exact hmark.1 (List.cons.inj hc).1.symm
        rw [List.flatMap_cons, hc, List.cons_append, List.cons_prefix_cons, List.cons_prefix_cons]
        exact iff_of_false (fun h => hmark.1 h.1.symm) (fun h => hne h.1)

theorem infix_written {write : β → List β} {mark first : β} (hmark : mark ∉ p) (hfirst : p.head? = some first)
    (hplain : ∀ c ∈ p, write c = [c])
    (hwrite : ∀ c, write c = [c] ∨ ((∃ rest, write c = mark :: rest) ∧ ∀ x ∈ write c, x ≠ first)) (text : List β) :
    p <:+: text.flatMap write ↔ p <:+: text := by
  have hbegin : ∀ text, p <+: text.flatMap write ↔ p <+: text :=
    prefix_written hmark hplain (fun c => (hwrite c).imp_right (·.1))
  induction text with
  | nil => rfl
  | cons c text ih =>
    obtain hc | ⟨⟨rest, hc⟩, hfree⟩ := hwrite c
    · have hcons := hbegin (c :: text)
      rw [List.flatMap_cons, hc, List.singleton_append] at hcons ⊢
      rw [List.infix_cons_iff, List.infix_cons_iff, hcons]
      exact or_congr_right ih
    · have hne : ¬ p <+: c :: text := by
        rw [← hbegin, List.flatMap_cons, hc]
        intro h
        cases p with
        | nil => cases hfirst
        | cons x p => exact hmark ((List.cons_prefix_cons.mp h).1 ▸ List.mem_cons_self)
      rw [List.flatMap_cons, infix_after _ _ hfirst hfree, List.infix_cons_iff, or_iff_right hne]
      exact ih

end Infix

end AgentPassport.TextSearch
