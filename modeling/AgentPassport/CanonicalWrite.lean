import AgentPassport.CanonicalInjective
import AgentPassport.Outcome

/-! The write path of the canonicalizer refuses more than the read path and writes nothing
else: what it accepts, the read path accepts with the same text. -/
namespace AgentPassport.CanonicalWrite
open JsText Js JsonString SeparatedText CanonicalJcs CanonicalInjective Outcome

variable {numText : Double → Str}

theorem canonicalizeMembers_eq_map (writePath : Option Str) (members : List (Str × JsValue)) :
    canonicalizeMembers numText writePath members =
      members.map (fun m => (m.1, canonicalizeValue numText (writePath.map (memberPath · m.1)) m.2)) := by
  induction members with
  | nil => simp [canonicalizeMembers]
  | cons m rest ih => simp [canonicalizeMembers, ih]

theorem writePairs_cons_ok {name : Str} {text : Except JcsError Str}
    {rest : List (Str × Except JcsError Str)} {out : List Str} :
    writePairs ((name, text) :: rest) = .ok out ↔ assertNoLoneSurrogate name = .ok () ∧
      ∃ s pairs, text = .ok s ∧ writePairs rest = .ok pairs ∧
        (stringifyString name ++ lit ":" ++ s) :: pairs = out := by
  rw [writePairs, bind_unit_eq_ok, bind_eq_ok]
  constructor
  · rintro ⟨hname, s, hs, h⟩
    obtain ⟨pairs, hpairs, h⟩ := bind_eq_ok.mp h
    cases h
    exact ⟨hname, s, pairs, hs, hpairs, rfl⟩
  · rintro ⟨hname, s, pairs, hs, hpairs, rfl⟩
    exact ⟨hname, s, hs, bind_eq_ok.mpr ⟨pairs, hpairs, rfl⟩⟩

theorem writePairs_agree {f g : Str × JsValue → Except JcsError Str} {members : List (Str × JsValue)} :
    ∀ {out : List Str}, writePairs (members.map (fun m => (m.1, f m))) = .ok out →
      (∀ m ∈ members, ∀ s, f m = .ok s → g m = .ok s) →
      writePairs (members.map (fun m => (m.1, g m))) = .ok out ∧ ∀ m ∈ members, ∃ s, f m = .ok s := by
  induction members with
  | nil =>
    intro out h _
    exact ⟨h, fun _ hm => absurd hm List.not_mem_nil⟩
  | cons m rest ih =>
    intro out h hfg
    rw [List.map_cons] at h ⊢
    obtain ⟨hname, s, pairs, hs, hpairs, hout⟩ := writePairs_cons_ok.mp h
    obtain ⟨hrest, hall⟩ := ih hpairs (fun n hn => hfg n (List.mem_cons_of_mem m hn))
    refine ⟨writePairs_cons_ok.mpr ⟨hname, s, pairs, hfg m List.mem_cons_self s hs, hrest, hout⟩, ?_⟩
    exact List.forall_mem_cons.mpr ⟨⟨s, hs⟩, hall⟩

/-- What the write path accepts at a value, wherever the value stands. -/
def Agrees (numText : Double → Str) (v : JsValue) : Prop :=
  ∀ path s, canonicalizeValue numText (some path) v = .ok s →
    canonicalizeValue numText none v = .ok s ∧ ∀ q, assertNoUndefined q v = .ok ()

theorem items_agree {items : List JsValue} (ih : ∀ v ∈ items, Agrees numText v) (path : Str) :
    ∀ (i : Nat) (parts : List Str), canonicalizeItems numText (some path) i items = .ok parts →
      canonicalizeItems numText none i items = .ok parts ∧
        ∀ v ∈ items, ∀ q, assertNoUndefined q v = .ok () := by
  induction items with
  | nil =>
    intro i parts h
    rw [canonicalizeItems] at h ⊢
    exact ⟨h, fun _ hv => absurd hv List.not_mem_nil⟩
  | cons v rest ihr =>
    intro i parts h
    rw [canonicalizeItems] at h ⊢
    obtain ⟨part, hpart, h⟩ := bind_eq_ok.mp h
    obtain ⟨tail, htail, hparts⟩ := bind_eq_ok.mp h
    obtain ⟨hread, hdefined⟩ := ih v List.mem_cons_self _ part hpart
    obtain ⟨hreads, hall⟩ := ihr (fun w hw => ih w (List.mem_cons_of_mem v hw)) (i + 1) tail htail
    refine ⟨bind_eq_ok.mpr ⟨part, hread, bind_eq_ok.mpr ⟨tail, hreads, hparts⟩⟩, ?_⟩
    exact List.forall_mem_cons.mpr ⟨hdefined, hall⟩

/-- By induction over the value: the two paths agree at every container. -/
theorem agrees (v : JsValue) : Agrees numText v := by
  induction v using JsValue.members_induction with
  | undefined =>
    intro path s h
    cases h
  | null => exact fun path s h => ⟨h, fun q => by simp [assertNoUndefined, pure, Except.pure]⟩
  | bool b => exact fun path s h => ⟨h, fun q => by simp [assertNoUndefined, pure, Except.pure]⟩
  | num n =>
    intro path s h
    refine ⟨?_, fun q => by simp [assertNoUndefined, pure, Except.pure]⟩
    cases n with
    | finite d =>
      simp only [canonicalizeValue] at h ⊢
      split at h
      · cases h
      · exact h
    | nan => exact h
    | infinite _ => exact h
  | str t =>
    intro path s h
    exact ⟨h, fun q => by simp [assertNoUndefined, pure, Except.pure]⟩
  | other t =>
    intro path s h
    cases h
  | date iso =>
    intro path s h
    refine ⟨?_, fun q => by simp [assertNoUndefined, pure, Except.pure]⟩
    cases iso with
    | none => exact h
    | some text => exact h
  | arr items ih =>
    intro path s h
    rw [canonicalizeValue] at h ⊢
    obtain ⟨parts, hparts, hs⟩ := bind_eq_ok.mp h
    obtain ⟨hread, hall⟩ := items_agree ih path 0 parts hparts
    refine ⟨bind_eq_ok.mpr ⟨parts, hread, hs⟩, ?_⟩
    intro q
    rw [assertNoUndefined]
    exact assertItems_ok hall q 0
  | obj members ih =>
    intro path s h
    rw [canonicalizeValue, canonicalizeMembers_eq_map, sortByName_map] at h ⊢
    obtain ⟨pairs, hpairs, hs⟩ := bind_eq_ok.mp h
    have hsorted : ∀ m ∈ sortByName members, m ∈ members :=
      fun m hm => (sortByName_perm members).mem_iff.mp hm
    obtain ⟨hread, hall⟩ := writePairs_agree hpairs
      (fun m hm s hm' => (ih m (hsorted m hm) _ s hm').1)
    refine ⟨bind_eq_ok.mpr ⟨pairs, hread, hs⟩, ?_⟩
    intro q
    rw [assertNoUndefined]
    refine assertMembers_ok ?_ q
    intro m hm
    obtain ⟨t, ht⟩ := hall m ((sortByName_perm members).mem_iff.mpr hm)
    exact (ih m hm _ t ht).2

theorem canonicalizeJCS_of_write {v : JsValue} {s : Str} (h : canonicalizeJCSForWrite numText v = .ok s) :
    canonicalizeJCS numText v = .ok s := by
  obtain ⟨hread, hdefined⟩ := agrees v _ s h
  rw [canonicalizeJCS, hdefined]
  exact hread

end AgentPassport.CanonicalWrite
