import AgentPassport.CanonicalBytes

/-! What the canonicalizer reads of a value that is no JSON value: a date is the string of its ISO
text. Two values of one canonical text are one JSON value up to that. -/
namespace AgentPassport.CanonicalRead
open JsText Js SeparatedText CanonicalJcs CanonicalInjective CanonicalWrite Outcome

mutual
/-- Member names are distinct, and the ISO text of a date is text. -/
def wellMade : JsValue → Bool
  | .date (some iso) => decide (WellFormed iso)
  | .arr items => wellMadeItems items
  | .obj members => decide (members.map Prod.fst).Nodup && wellMadeMembers members
  | _ => true

def wellMadeItems : List JsValue → Bool
  | [] => true
  | v :: rest => wellMade v && wellMadeItems rest

def wellMadeMembers : List (Str × JsValue) → Bool
  | [] => true
  | (_, v) :: rest => wellMade v && wellMadeMembers rest
end

mutual
/-- The value with its dates written out. -/
def datesRead : JsValue → JsValue
  | .date (some iso) => .str iso
  | .date none => .null
  | .arr items => .arr (datesReadItems items)
  | .obj members => .obj (datesReadMembers members)
  | v => v

def datesReadItems : List JsValue → List JsValue
  | [] => []
  | v :: rest => datesRead v :: datesReadItems rest

def datesReadMembers : List (Str × JsValue) → List (Str × JsValue)
  | [] => []
  | (name, v) :: rest => (name, datesRead v) :: datesReadMembers rest
end

theorem wellMadeItems_iff {items : List JsValue} : wellMadeItems items = true ↔ ∀ v ∈ items, wellMade v = true := by
  induction items with
  | nil => simp [wellMadeItems]
  | cons v rest ih => simp [wellMadeItems, ih]

variable {members : List (Str × JsValue)}

theorem wellMadeMembers_iff : wellMadeMembers members = true ↔ ∀ m ∈ members, wellMade m.2 = true := by
  induction members with
  | nil => simp [wellMadeMembers]
  | cons m rest ih => simp [wellMadeMembers, ih]

theorem datesReadItems_eq_map (items : List JsValue) : datesReadItems items = items.map datesRead := by
  induction items with
  | nil => simp [datesReadItems]
  | cons v rest ih => simp [datesReadItems, ih]

theorem datesReadMembers_eq_map (members : List (Str × JsValue)) :
    datesReadMembers members = members.map (fun m => (m.1, datesRead m.2)) := by
  induction members with
  | nil => simp [datesReadMembers]
  | cons m rest ih => simp [datesReadMembers, ih]

section
variable {numText : Double → Str}

theorem lone_ok {s : Str} (h : assertNoLoneSurrogate s = .ok ()) : WellFormed s := by
  cases hs : loneSurrogate s with
  | none => exact hs
  | some kind => simp [assertNoLoneSurrogate, hs, throw, throwThe, MonadExceptOf.throw] at h

theorem writePairs_ok_iff {f : Str × JsValue → Except JcsError Str} :
    (∃ out, writePairs (members.map (fun m => (m.1, f m))) = .ok out) ↔
      ∀ m ∈ members, WellFormed m.1 ∧ ∃ s, f m = .ok s := by
  induction members with
  | nil => simp [writePairs, pure, Except.pure]
  | cons m rest ih =>
    rw [List.forall_mem_cons, ← ih]
    constructor
    · intro h
      obtain ⟨out, hout⟩ := h
      obtain ⟨hname, s, pairs, hs, hpairs, -⟩ := writePairs_cons_ok.mp hout
      exact ⟨⟨lone_ok hname, s, hs⟩, pairs, hpairs⟩
    · intro h
      obtain ⟨⟨hname, s, hs⟩, pairs, hpairs⟩ := h
      exact ⟨_, writePairs_cons_ok.mpr ⟨assertNoLoneSurrogate_ok hname, s, pairs, hs, hpairs, rfl⟩⟩

theorem obj_ok_iff : (∃ t, canonicalizeValue numText none (.obj members) = .ok t) ↔
      ∀ m ∈ members, WellFormed m.1 ∧ ∃ s, canonicalizeValue numText none m.2 = .ok s := by
  have hsorted : sortByName (canonicalizeMembers numText none members) =
      (sortByName members).map (fun m => (m.1, canonicalizeValue numText none m.2)) := by
    rw [canonicalizeMembers_eq_map]
    exact sortByName_map (fun m => canonicalizeValue numText none m.2) members
  have hperm : ∀ m, m ∈ sortByName members ↔ m ∈ members := fun m => (sortByName_perm members).mem_iff
  constructor
  · intro h m hm
    obtain ⟨t, ht⟩ := h
    rw [canonicalizeValue, hsorted] at ht
    obtain ⟨pairs, hpairs, -⟩ := bind_eq_ok.mp ht
    exact writePairs_ok_iff.mp ⟨pairs, hpairs⟩ m ((hperm m).mpr hm)
  · intro h
    obtain ⟨pairs, hpairs⟩ := writePairs_ok_iff.mpr fun m hm => h m ((hperm m).mp hm)
    exact ⟨_, by rw [canonicalizeValue, hsorted]; exact bind_eq_ok.mpr ⟨pairs, hpairs, rfl⟩⟩

/-- What has a text is, with its dates read, a JSON value of that text. -/
def ReadAs (numText : Double → Str) (v : JsValue) : Prop :=
  ∀ t, wellMade v = true → canonicalizeValue numText none v = .ok t →
    IsJson (datesRead v) ∧ emit numText (datesRead v) = t

theorem items_read {items : List JsValue} (ih : ∀ v ∈ items, ReadAs numText v) :
    ∀ (i : Nat) (parts : List Str), (∀ v ∈ items, wellMade v = true) →
    canonicalizeItems numText none i items = .ok parts →
      (∀ v ∈ items, IsJson (datesRead v)) ∧ items.map (fun v => emit numText (datesRead v)) = parts := by
  induction items with
  | nil =>
    intro i parts _ h
    rw [canonicalizeItems] at h
    cases h
    exact ⟨by simp, rfl⟩
  | cons v rest ihr =>
    intro i parts hmade h
    rw [canonicalizeItems] at h
    obtain ⟨part, hpart, h⟩ := bind_eq_ok.mp h
    obtain ⟨tail, htail, hparts⟩ := bind_eq_ok.mp h
    obtain ⟨hmadev, hmade⟩ := List.forall_mem_cons.mp hmade
    obtain ⟨hjson, htext⟩ := ih v List.mem_cons_self part hmadev hpart
    obtain ⟨hjsons, htexts⟩ := ihr (fun w hw => ih w (List.mem_cons_of_mem v hw)) (i + 1) tail hmade htail
    cases hparts
    exact ⟨List.forall_mem_cons.mpr ⟨hjson, hjsons⟩, by rw [List.map_cons, htext, htexts]⟩

/-- By induction over the value. -/
theorem read_as (v : JsValue) : ReadAs numText v := by
  induction v using JsValue.members_induction with
  | undefined =>
    intro t _ h
    cases h
  | null =>
    intro t _ h
    cases h
    exact ⟨.null, rfl⟩
  | bool b =>
    intro t _ h
    cases h
    exact ⟨.bool b, rfl⟩
  | num n =>
    intro t _ h
    cases n with
    | finite d =>
      cases h
      exact ⟨.num d, rfl⟩
    | nan => cases h
    | infinite s => cases h
  | str s =>
    intro t _ h
    rw [canonicalizeValue] at h
    obtain ⟨_, hs, h⟩ := bind_eq_ok.mp h
    cases h
    exact ⟨.str (lone_ok hs), rfl⟩
  | other type =>
    intro t _ h
    cases h
  | date iso =>
    intro t hmade h
    cases iso with
    | none =>
      cases h
      exact ⟨.null, rfl⟩
    | some iso =>
      cases h
      rw [wellMade, decide_eq_true_eq] at hmade
      exact ⟨.str hmade, rfl⟩
  | arr items ih =>
    intro t hmade h
    rw [canonicalizeValue] at h
    obtain ⟨parts, hparts, h⟩ := bind_eq_ok.mp h
    cases h
    obtain ⟨hjson, htexts⟩ := items_read ih 0 parts (wellMadeItems_iff.mp hmade) hparts
    rw [datesRead, datesReadItems_eq_map, emit_arr, List.map_map]
    refine ⟨.arr ?_, by rw [← htexts]; rfl⟩
    intro x hx
    obtain ⟨v, hv, rfl⟩ := List.mem_map.mp hx
    exact hjson v hv
  | obj members ih =>
    intro t hmade h
    rw [wellMade, Bool.and_eq_true, decide_eq_true_eq, wellMadeMembers_iff] at hmade
    obtain ⟨hnames, hmade⟩ := hmade
    have hok := obj_ok_iff.mp ⟨t, h⟩
    have hread : ∀ m ∈ members, IsJson (datesRead m.2) ∧
        canonicalizeValue numText none m.2 = .ok (emit numText (datesRead m.2)) := by
      intro m hm
      obtain ⟨-, s, hs⟩ := hok m hm
      obtain ⟨hjson, htext⟩ := ih m hm s (hmade m hm) hs
      exact ⟨hjson, htext ▸ hs⟩
    have hsorted : sortByName (canonicalizeMembers numText none members) =
        (sortByName members).map (fun m => (m.1, .ok (emit numText (datesRead m.2)))) := by
      rw [canonicalizeMembers_eq_map, ← sortByName_map (fun m => Except.ok (emit numText (datesRead m.2)))]
      congr 1
      exact List.map_congr_left fun m hm => by rw [Option.map_none, (hread m hm).2]
    have hwell : ∀ m ∈ sortByName members, WellFormed m.1 :=
      fun m hm => (hok m ((sortByName_perm members).mem_iff.mp hm)).1
    rw [canonicalizeValue, hsorted, writePairs_ok (f := fun v => emit numText (datesRead v)) hwell] at h
    cases h
    rw [datesRead, datesReadMembers_eq_map, emit_obj, sortByName_map (fun m => datesRead m.2), List.map_map]
    refine ⟨.obj ?_ ?_ ?_, rfl⟩
    · rw [List.map_map]
      exact hnames
    · intro x hx
      obtain ⟨m, hm, rfl⟩ := List.mem_map.mp hx
      exact (hok m hm).1
    · intro x hx
      obtain ⟨m, hm, rfl⟩ := List.mem_map.mp hx
      exact (hread m hm).1

theorem mem_of_get {name s : Str} (h : (JsValue.obj members).get name = .str s) : (name, .str s) ∈ members := by
  have hmember : member? name members = some (.str s) := by
    cases hm : member? name members with
    | none => simp [JsValue.get, hm] at h
    | some v => simpa [JsValue.get, hm] using h
  rw [member?, Option.map_eq_some_iff] at hmember
  obtain ⟨m, hfind, hm⟩ := hmember
  have hname : m.1 = name := by simpa using List.find?_some hfind
  rw [← hname, ← hm]
  exact List.mem_of_find?_eq_some hfind

variable {ms ns : List (Str × JsValue)}

theorem same_of_text (hnum : NumberRendering numText) {t : Str} (hms : wellMade (.obj ms) = true)
    (hns : wellMade (.obj ns) = true) (htm : canonicalizeJCSForWrite numText (.obj ms) = .ok t)
    (htn : canonicalizeJCSForWrite numText (.obj ns) = .ok t) :
    Same (.obj (ms.map (fun m => (m.1, datesRead m.2)))) (.obj (ns.map (fun m => (m.1, datesRead m.2)))) := by
  obtain ⟨hjsonm, htextm⟩ := read_as _ t hms (agrees _ _ t htm).1
  obtain ⟨hjsonn, htextn⟩ := read_as _ t hns (agrees _ _ t htn).1
  have hsame := (emit_eq_iff hnum hjsonm hjsonn).mp (htextm.trans htextn.symm)
  rwa [datesRead, datesRead, datesReadMembers_eq_map, datesReadMembers_eq_map] at hsame

theorem same_string
    (h : Same (.obj (ms.map (fun m => (m.1, datesRead m.2)))) (.obj (ns.map (fun m => (m.1, datesRead m.2)))))
    {name s s' : Str} (hs : (JsValue.obj ms).get name = .str s) (hs' : (JsValue.obj ns).get name = .str s') :
    s = s' := by
  cases h with
  | obj _ hmembers =>
    have hm : (name, JsValue.str s) ∈ ms.map (fun m => (m.1, datesRead m.2)) :=
      List.mem_map.mpr ⟨_, mem_of_get hs, rfl⟩
    have hn : (name, JsValue.str s') ∈ ns.map (fun m => (m.1, datesRead m.2)) :=
      List.mem_map.mpr ⟨_, mem_of_get hs', rfl⟩
    cases hmembers _ hm _ hn rfl with
    | str => rfl

theorem isSome_member {name : Str} : (member? name members).isSome = true ↔ name ∈ members.map Prod.fst := by
  rw [member?, Option.isSome_map, List.find?_isSome, List.mem_map]
  simp

theorem same_member
    (h : Same (.obj (ms.map (fun m => (m.1, datesRead m.2)))) (.obj (ns.map (fun m => (m.1, datesRead m.2)))))
    (name : Str) : (member? name ms).isSome = true ↔ (member? name ns).isSome = true := by
  cases h with
  | obj hnames _ =>
    rw [List.map_map, List.map_map] at hnames
    rw [isSome_member, isSome_member]
    exact hnames.mem_iff

end

end AgentPassport.CanonicalRead
