import AgentPassport.CanonicalBytes

/-! Values that hold only strings. Both canonicalizers write them, with one text, whatever is in the
strings, and an object's text stands between its braces. -/
namespace AgentPassport.TextValues
open JsText Js SeparatedText CanonicalJcs CanonicalInjective LegacyCanonical CanonicalBytes Utf8

/-- Strings, what is left out of objects, and containers of these under names without unpaired surrogates. -/
inductive TextValue : JsValue → Prop where
  | undefined : TextValue .undefined
  | str (s : Str) : TextValue (.str s)
  | arr {items : List JsValue} (h : ∀ v ∈ items, TextValue v) : TextValue (.arr items)
  | obj {members : List (Str × JsValue)} (h : ∀ m ∈ members, TextValue m.2) : TextValue (.obj members)

theorem TextValue.strings (items : List Str) : TextValue (.arr (items.map .str)) := by
  refine .arr ?_
  intro v hv
  obtain ⟨s, -, rfl⟩ := List.mem_map.mp hv
  exact .str s

def IsWritten (text : Except LegacyError (Option Str)) : Prop := ∃ t, WellFormed t ∧ text = .ok (some t)

section
variable {numText : Double → Str}

theorem forWriteItems_written {items : List JsValue} (path : Str)
    (h : ∀ v ∈ items, ∀ path, IsWritten (canonicalizeForWrite numText path v)) (i : Nat) :
    ∃ parts : List Str, (∀ p ∈ parts, WellFormed p) ∧ forWriteItems numText path i items = .ok (parts.map some) := by
  induction items generalizing i with
  | nil =>
    refine ⟨[], fun p hp => absurd hp List.not_mem_nil, ?_⟩
    rw [forWriteItems]
    rfl
  | cons v rest ih =>
    obtain ⟨hv, hrest⟩ := List.forall_mem_cons.mp h
    obtain ⟨t, ht, htext⟩ := hv (itemPath path i)
    obtain ⟨parts, hparts, hok⟩ := ih hrest (i + 1)
    refine ⟨t :: parts, List.forall_mem_cons.mpr ⟨ht, hparts⟩, ?_⟩
    rw [forWriteItems, htext, hok]
    rfl

theorem pushPairs_written {entries : List (Str × JsValue × Except LegacyError (Option Str))}
    (h : ∀ m ∈ entries, IsWritten m.2.2) :
    ∃ pairs, (∀ p ∈ pairs, WellFormed p) ∧ pushPairs entries = .ok pairs := by
  induction entries with
  | nil => exact ⟨[], fun p hp => absurd hp List.not_mem_nil, rfl⟩
  | cons m rest ih =>
    obtain ⟨name, v, text⟩ := m
    obtain ⟨hm, hrest⟩ := List.forall_mem_cons.mp h
    obtain ⟨pairs, hpairs, hok⟩ := ih hrest
    by_cases hnull : nullish v = true
    · exact ⟨pairs, hpairs, by rw [pushPairs, if_pos hnull, hok]⟩
    · obtain ⟨t, ht, rfl⟩ := hm
      have hcolon : WellFormed (lit ":") := by decide
      refine ⟨pairText name (some t) :: pairs, List.forall_mem_cons.mpr ⟨?_, hpairs⟩, ?_⟩
      · exact wellFormed_append (wellFormed_append (stringify_text name) hcolon) ht
      · rw [pushPairs, if_neg hnull, hok]
        rfl

theorem obj_written {members : List (Str × JsValue)} (path : Str)
    (h : ∀ m ∈ members, ∀ path, IsWritten (canonicalizeForWrite numText path m.2)) :
    ∃ inner, WellFormed inner ∧
      canonicalizeForWrite numText path (.obj members) = .ok (some (lit "\x7b" ++ inner ++ lit "\x7d")) := by
  have hentries : ∀ m ∈ sortByName (forWriteMembers numText path members), IsWritten m.2.2 := by
    intro m hm
    rw [(sortByName_perm _).mem_iff, forWriteMembers_eq] at hm
    obtain ⟨member, hmember, rfl⟩ := List.mem_map.mp hm
    exact h member hmember _
  obtain ⟨pairs, hpairs, hok⟩ := pushPairs_written hentries
  refine ⟨join 0x2C pairs, join_text hpairs, ?_⟩
  rw [canonicalizeForWrite, hok]
  rfl

theorem TextValue.written {v : JsValue} (h : TextValue v) : ∀ path, IsWritten (canonicalizeForWrite numText path v) := by
  have hopen : WellFormed (lit "\x7b") := by decide
  have hclose : WellFormed (lit "\x7d") := by decide
  induction h with
  | undefined => exact fun path => ⟨lit "null", by decide, rfl⟩
  | str s => exact fun path => ⟨stringify s, stringify_text s, rfl⟩
  | arr _ ih =>
    intro path
    obtain ⟨parts, hparts, hok⟩ := forWriteItems_written path ih 0
    refine ⟨_, ?_, by rw [canonicalizeForWrite, hok]; rfl⟩
    have hjoined : WellFormed (joined (parts.map some)) := by
      rw [joined, List.map_map]
      exact join_text (by simpa using hparts)
    exact wellFormed_append (wellFormed_append (by decide) hjoined) (by decide)
  | obj _ ih =>
    intro path
    obtain ⟨inner, hinner, hok⟩ := obj_written path ih
    exact ⟨_, wellFormed_append (wellFormed_append hopen hinner) hclose, hok⟩

theorem object_written (numText : Double → Str) {members : List (Str × JsValue)} (h : ∀ m ∈ members, TextValue m.2) :
    ∃ inner, WellFormed inner ∧ canonicalize numText (.obj members) = .ok (some (lit "\x7b" ++ inner ++ lit "\x7d")) ∧
      ∀ path, canonicalizeForWrite numText path (.obj members) = .ok (some (lit "\x7b" ++ inner ++ lit "\x7d")) := by
  have hmembers := fun m hm => @TextValue.written numText _ (h m hm)
  obtain ⟨inner, hinner, hok⟩ := obj_written (lit "$") hmembers
  have hread := conservative (.obj members) _ _ hok
  refine ⟨inner, hinner, hread, ?_⟩
  intro path
  obtain ⟨inner', -, hok'⟩ := obj_written path hmembers
  rw [hok', ← conservative (.obj members) _ _ hok', hread]

end
end AgentPassport.TextValues
