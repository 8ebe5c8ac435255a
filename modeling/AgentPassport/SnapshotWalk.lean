import AgentPassport.ObjectGraph
import AgentPassport.CanonicalInjective

/-! What the snapshot of an object graph is: the invariant of the walk, that it ends, where the marker
is in the result, and that the result of a plain graph without cycles is a copy of it. -/
namespace AgentPassport.SnapshotWalk
open JsText Js PlainData StepLoop ObjectGraph
variable {A : Type}

/-- The cursor is over the container's members. -/
def Fits : Node A → Cursor → Prop
  | .arr _ slots, .array length => length = slots.length
  | .obj _ members _, .object keys => keys = members.map Prod.fst
  | _, _ => False

variable {node : Node A} {cursor : Cursor}

theorem Fits.length (h : Fits node cursor) : cursor.length = node.fields.length := by
  cases node with
  | arr header slots =>
    cases cursor with
    | array length =>
      have hlength : length = slots.length := h
      simp [Cursor.length, Node.fields, hlength]
    | object keys => exact h.elim
  | obj header members listed =>
    cases cursor with
    | array length => exact h.elim
    | object keys =>
      have hkeys : keys = members.map Prod.fst := h
      simp [Cursor.length, Node.fields, hkeys]

variable {i : Nat}

theorem find_listed {members : List (Str × Descriptor A)} (hlisted : Listed (members.map Prod.fst))
    (hi : i < members.length) : members.find? (fun m => m.1 = (members[i]).1) = some members[i] := by
  have hpair := List.pairwise_map.mp hlisted
  induction members generalizing i with
  | nil => exact absurd hi (Nat.not_lt_zero i)
  | cons m members ih =>
    cases i with
    | zero => simp
    | succ i =>
      obtain ⟨hm, hpair⟩ := List.pairwise_cons.mp hpair
      have hi : i < members.length := by simpa using hi
      have hne : m.1 ≠ (members[i]).1 := (hm _ (List.getElem_mem hi)).1
      rw [List.find?_cons_of_neg (by simpa using hne)]
      exact ih (List.pairwise_map.mpr hpair) hi hpair

theorem Fits.read (h : Fits node cursor) (i : Nat) :
    enumerableValue (descriptorAt node cursor i) = node.fields[i]?.bind (·.2) := by
  cases node with
  | arr header slots =>
    cases cursor with
    | array length =>
      rw [descriptorAt, Node.fields, List.getElem?_map]
      cases slots[i]? with
      | none => rfl
      | some d => rfl
    | object keys => exact h.elim
  | obj header members listed =>
    cases cursor with
    | array length => exact h.elim
    | object keys =>
      have hkeys : keys = members.map Prod.fst := h
      rw [descriptorAt, Node.fields, hkeys, List.getElem?_map, List.getElem?_map]
      by_cases hi : i < members.length
      · have hfind := find_listed listed hi
        rw [List.getElem?_eq_getElem hi]
        simp only [Option.map_some, Option.bind_some, hfind]
      · rw [List.getElem?_eq_none (Nat.le_of_not_lt hi)]
        rfl

def Matches (img : Value A → Out → Prop) (field : Option Str × Option (Value A)) (copied : Option Str × Out) : Prop :=
  field.1 = copied.1 ∧ ∃ v, field.2 = some v ∧ img v copied.2

/-- The copy holds its container's first members, and perhaps something for the next one. -/
def Holds (img : Value A → Out → Prop) (node : Node A) (k : Nat) (last : Option Out) (c : Copy) : Prop :=
  node.isArray = c.isArray ∧ ∃ copied, List.Forall₂ (Matches img) (node.fields.take k) copied ∧
    match last with
    | none => c.fields = copied
    | some out => ∃ field, node.fields[k]? = some field ∧ c.fields = copied ++ [(field.1, out)]

theorem Matches.mono {img img' : Value A → Out → Prop} (h : ∀ v out, img v out → img' v out)
    {field : Option Str × Option (Value A)} {copied : Option Str × Out} (hm : Matches img field copied) :
    Matches img' field copied := by
  obtain ⟨hname, v, hv, himg⟩ := hm
  exact ⟨hname, v, hv, h v _ himg⟩

variable {last : Option Out} {k : Nat}

variable {c : Copy}

theorem Holds.mono {img img' : Value A → Out → Prop} (h : ∀ v out, img v out → img' v out)
    (hc : Holds img node k last c) : Holds img' node k last c := by
  obtain ⟨hkind, copied, hcopied, hlast⟩ := hc
  exact ⟨hkind, copied, hcopied.imp (fun _ _ hm => hm.mono h), hlast⟩

variable {v : Value A} {img : Value A → Out → Prop} {out : Out}

theorem Holds.next (hc : Holds img node k (some out) c) {name : Option Str}
    (hfield : node.fields[k]? = some (name, some v)) (himg : img v out) : Holds img node (k + 1) none c := by
  obtain ⟨hkind, copied, hcopied, field, hat, heq⟩ := hc
  obtain rfl := Option.some.inj (hfield.symm.trans hat)
  refine ⟨hkind, copied ++ [(name, out)], ?_, heq⟩
  rw [List.take_add_one, hfield, Option.toList_some]
  exact List.rel_append hcopied (.cons ⟨rfl, v, rfl, himg⟩ .nil)

theorem Holds.whole (hc : Holds img node k none c) (hk : node.fields.length ≤ k) :
    Holds img node node.fields.length none c := by
  obtain ⟨hkind, copied, hcopied, heq⟩ := hc
  rw [List.take_of_length_le hk] at hcopied
  exact ⟨hkind, copied, by rw [List.take_length]; exact hcopied, heq⟩

theorem setItem_eq {items : List Out} (h : items.length = k ∨ items.length = k + 1) (out : Out) :
    setItem k out items = items.take k ++ [out] := by
  obtain h | h := h
  · rw [setItem, if_neg (by omega), List.take_of_length_le (by omega)]
  · rw [setItem, if_pos (by omega), List.set_eq_take_append_cons_drop, if_pos (by omega), List.drop_of_length_le (by omega)]

theorem listed_before {names : List Str} (h : Listed names) (hk : k < names.length) {name : Str}
    (hname : name ∈ names.take k) : name ≠ names[k] ∧ listedBefore names[k] name = false := by
  have hsplit : names.take k ++ names.drop k = names := List.take_append_drop k names
  rw [Listed, ← hsplit, List.pairwise_append] at h
  refine h.2.2 name hname _ ?_
  rw [List.drop_eq_getElem_cons hk]
  exact List.mem_cons_self

theorem defineMember_eq {names : List Str} (hlisted : Listed names) (hk : k < names.length) {members : List (Str × Out)}
    (hnames : members.map Prod.fst = names.take members.length) (h : members.length = k ∨ members.length = k + 1)
    (out : Out) : defineMember names[k] out members = members.take k ++ [(names[k], out)] := by
  have hbefore : ∀ m ∈ members.take k, m.1 ≠ names[k] ∧ listedBefore names[k] m.1 = false := by
    intro m hm
    have hmem : m.1 ∈ (members.map Prod.fst).take k := by
      rw [← List.map_take]
      exact List.mem_map_of_mem hm
    rw [hnames, List.take_take, Nat.min_eq_left (by omega)] at hmem
    exact listed_before hlisted hk hmem
  obtain h | h := h
  · have hall : members.take k = members := List.take_of_length_le (by omega)
    rw [hall] at hbefore ⊢
    have hany : ¬ members.any (fun m => m.1 = names[k]) = true := by
      rw [List.any_eq_true]
      intro hfound
      obtain ⟨m, hm, heq⟩ := hfound
      exact (hbefore m hm).1 (of_decide_eq_true heq)
    have hwhile : ∀ m ∈ members, (!listedBefore names[k] m.1) = true := fun m hm => by rw [(hbefore m hm).2]; rfl
    rw [defineMember, if_neg hany, List.takeWhile_eq_self_iff.mpr hwhile, List.dropWhile_eq_nil_iff.mpr hwhile]
  · have hlast : members = members.take k ++ [members[k]] := by
      rw [List.take_append_getElem, List.take_of_length_le (by omega)]
    have hname : (members[k]).1 = names[k] := by
      have hat : (members.map Prod.fst)[k]? = (names.take members.length)[k]? := by rw [hnames]
      rw [List.getElem?_map, List.getElem?_take_of_lt (by omega), List.getElem?_eq_getElem (by omega),
        List.getElem?_eq_getElem hk] at hat
      exact Option.some.inj hat
    have hany : members.any (fun m => m.1 = names[k]) = true :=
      List.any_eq_true.mpr ⟨members[k], List.getElem_mem _, decide_eq_true hname⟩
    have hkeep : ∀ m ∈ members.take k, (if m.1 = names[k] then (names[k], out) else m) = id m :=
      fun m hm => if_neg (hbefore m hm).1
    rw [defineMember, if_pos hany]
    conv_lhs => rw [hlast]
    rw [List.map_append, List.map_congr_left hkeep, List.map_id, List.map_singleton, if_pos hname]

theorem matches_names {fields : List (Option Str × Option (Value A))} {copied : List (Option Str × Out)}
    (h : List.Forall₂ (Matches img) fields copied) : copied.map Prod.fst = fields.map Prod.fst := by
  induction h with
  | nil => rfl
  | cons hm _ ih => rw [List.map_cons, List.map_cons, hm.1, ih]

theorem Holds.fields (hc : Holds img node k last c) (hk : k < node.fields.length) :
    c.fields.map Prod.fst = (node.fields.map Prod.fst).take c.fields.length ∧
      (c.fields.length = k ∨ c.fields.length = k + 1) ∧
      List.Forall₂ (Matches img) (node.fields.take k) (c.fields.take k) := by
  obtain ⟨-, copied, hcopied, hlast⟩ := hc
  have hlen : copied.length = k := by
    rw [← hcopied.length_eq, List.length_take]
    omega
  have hnames := matches_names hcopied
  cases last with
  | none =>
    have heq : c.fields = copied := hlast
    rw [heq, hlen, ← List.map_take]
    exact ⟨hnames, .inl rfl, by rw [← hlen, List.take_length, hlen]; exact hcopied⟩
  | some out =>
    obtain ⟨field, hat, heq⟩ := hlast
    rw [heq, List.length_append, hlen, List.length_singleton, ← List.map_take, List.take_add_one, hat]
    refine ⟨?_, .inr rfl, ?_⟩
    · rw [List.map_append, List.map_append, hnames]
      rfl
    · rw [← hlen, List.take_left, hlen]
      exact hcopied

theorem Holds.put (hc : Holds img node k last c) (hfits : Fits node cursor) (hk : k < node.fields.length) (out : Out) :
    Holds img node k (some out) (c.put cursor k out) := by
  obtain ⟨hnames, hlen, hmatches⟩ := hc.fields hk
  have hkind := hc.1
  refine ⟨?_, c.fields.take k, hmatches, node.fields[k], List.getElem?_eq_getElem hk, ?_⟩
  · cases c with
    | arr items => exact hkind
    | obj members => cases cursor <;> exact hkind
  · cases node with
    | arr header slots =>
      cases c with
      | obj members => cases hkind
      | arr items =>
        rw [Copy.fields, List.length_map] at hlen
        rw [Copy.put, Copy.fields, Copy.fields, setItem_eq hlen, List.map_append, List.map_take]
        simp [Node.fields]
    | obj header members listed =>
      cases c with
      | arr items => cases hkind
      | obj copied =>
        cases cursor with
        | array length => exact hfits.elim
        | object keys =>
          have hkeys : keys = members.map Prod.fst := hfits
          have hk' : k < (members.map Prod.fst).length := by simpa [Node.fields] using hk
          have hfst : copied.map Prod.fst = (members.map Prod.fst).take copied.length := by
            simp only [Copy.fields, Node.fields, List.map_map, List.length_map, Function.comp_def] at hnames
            have hsome : (copied.map Prod.fst).map some = ((members.map Prod.fst).take copied.length).map some := by
              rw [List.map_map, List.map_take, List.map_map]
              exact hnames
            exact List.map_injective_iff.mpr (Option.some_injective Str) hsome
          rw [Copy.fields, List.length_map] at hlen
          rw [Copy.put, Copy.fields, Copy.fields, hkeys, List.getElem?_eq_getElem hk', Option.getD_some,
            defineMember_eq listed hk' hfst hlen, List.map_append, List.map_take]
          simp [Node.fields]

section Walk
variable (heap : A → Node A) (root : Value A)

/-- What stands for a value, given the containers that are copied and left. -/
def Image (order : List (A × Nat)) (v : Value A) (out : Out) : Prop :=
  (out = .marker ∧ Tainted heap v) ∨ plainScalar v = some out ∨
    ∃ b i, v = .ref b ∧ out = .copy i ∧ (b, i) ∈ order

/-- The containers that are left, the last first: each is copied, and leads only to earlier ones. -/
inductive Ordered (copies : List Copy) : List (A × Nat) → Prop
  | nil : Ordered copies []
  | cons {a : A} {i : Nat} {c : Copy} {order : List (A × Nat)} (opens : (heap a).opens = true)
      (copy : copies[i]? = some c) (holds : Holds (Image heap order) (heap a) (heap a).fields.length none c)
      (earlier : Ordered copies order) : Ordered copies ((a, i) :: order)

/-- A frame's container has been entered, and so much of it is copied. -/
def Entered (copies : List Copy) (order : List (A × Nat)) (f : Frame A) (k : Nat) (last : Option Out) : Prop :=
  (heap f.source).opens = true ∧ Fits (heap f.source) f.cursor ∧
    ∃ c, copies[f.copy]? = some c ∧ Holds (Image heap order) (heap f.source) k last c

/-- The open containers, each at the value that leads on to the next; `last` is what has been put for
the innermost value. -/
def Stack (w : Walk A) (order : List (A × Nat)) : Option Out → List (Frame A) → Value A → Prop
  | last, [], v => v = root ∧ ∀ out, last = some out → w.output = some out
  | last, f :: below, v =>
    1 ≤ f.next ∧ (∃ name, (heap f.source).fields[f.next - 1]? = some (name, some v)) ∧
      Entered heap w.copies order f (f.next - 1) last ∧ Stack w order (some (.copy f.copy)) below (.ref f.source)

/-- All that has been read is copied. -/
def Placed (w : Walk A) (order : List (A × Nat)) : List (Frame A) → Prop
  | [] => ∃ out, w.output = some out ∧ Image heap order root out
  | f :: below =>
    Entered heap w.copies order f f.next none ∧ Stack heap root w order (some (.copy f.copy)) below (.ref f.source)

def live (frames : List (Frame A)) (order : List (A × Nat)) : List (A × Nat) :=
  frames.map (fun f => (f.source, f.copy)) ++ order

structure Sound (w : Walk A) (frames : List (Frame A)) (order : List (A × Nat)) : Prop where
  ordered : Ordered heap w.copies order
  onPath : w.onPath = frames.map Frame.source
  memo : ∀ a out, w.done a = some out →
    (out = .marker ∧ Tainted heap (.ref a)) ∨ ∃ i, out = .copy i ∧ (a, i) ∈ live frames order
  remembered : ∀ p ∈ live frames order, w.done p.1 = some (.copy p.2)
  distinct : ((live frames order).map Prod.snd).Nodup
  bound : ∀ p ∈ live frames order, p.2 < w.copies.length

end Walk

section
variable {heap : A → Node A} {root : Value A} {w w' : Walk A} {order order' : List (A × Nat)}
  {frames below : List (Frame A)}

theorem Image.mono (h : ∀ p ∈ order, p ∈ order') (himg : Image heap order v out) : Image heap order' v out :=
  himg.imp_right (Or.imp_right (fun ⟨b, i, hv, hout, hmem⟩ => ⟨b, i, hv, hout, h _ hmem⟩))

theorem Ordered.congr {copies copies' : List Copy} (h : Ordered heap copies order)
    (hcopies : ∀ p ∈ order, copies'[p.2]? = copies[p.2]?) : Ordered heap copies' order := by
  induction h with
  | nil => exact .nil
  | cons opens copy holds _ ih =>
    obtain ⟨hhead, htail⟩ := List.forall_mem_cons.mp hcopies
    exact .cons opens (hhead.trans copy) holds (ih htail)

variable {f : Frame A}

theorem Entered.congr {copies copies' : List Copy} (h : Entered heap copies order f k last)
    (hcopies : copies'[f.copy]? = copies[f.copy]?) (horder : ∀ p ∈ order, p ∈ order') :
    Entered heap copies' order' f k last := by
  obtain ⟨hopens, hfits, c, hc, hholds⟩ := h
  exact ⟨hopens, hfits, c, hcopies.trans hc, hholds.mono (fun _ _ himg => himg.mono horder)⟩

theorem Stack.congr (hcopies : ∀ f ∈ frames, w'.copies[f.copy]? = w.copies[f.copy]?) (houtput : w'.output = w.output)
    (horder : ∀ p ∈ order, p ∈ order') (h : Stack heap root w order last frames v) :
    Stack heap root w' order' last frames v := by
  induction frames generalizing last v with
  | nil => exact ⟨h.1, fun out hlast => houtput.trans (h.2 out hlast)⟩
  | cons f below ih =>
    obtain ⟨hnext, hat, hentered, hbelow⟩ := h
    obtain ⟨hf, hcopies⟩ := List.forall_mem_cons.mp hcopies
    exact ⟨hnext, hat, hentered.congr hf horder, ih hcopies hbelow⟩

theorem place_done (out : Out) (frames : List (Frame A)) (w : Walk A) : (place out frames w).done = w.done := by
  cases frames <;> rfl

theorem place_onPath (out : Out) (frames : List (Frame A)) (w : Walk A) : (place out frames w).onPath = w.onPath := by
  cases frames <;> rfl

theorem place_length (out : Out) (frames : List (Frame A)) (w : Walk A) :
    (place out frames w).copies.length = w.copies.length := by
  cases frames with
  | nil => rfl
  | cons f below => exact List.length_modify ..

theorem place_other (below : List (Frame A)) (h : i ≠ f.copy) (w : Walk A) :
    (place out (f :: below) w).copies[i]? = w.copies[i]? := by
  rw [place, List.getElem?_modify_ne _ _ (Ne.symm h)]

theorem Stack.place (h : Stack heap root w order last frames v) (hdistinct : (frames.map ObjectGraph.Frame.copy).Nodup)
    (out : Out) : Stack heap root (place out frames w) order (some out) frames v := by
  cases frames with
  | nil => exact ⟨h.1, fun out' hout => hout⟩
  | cons f below =>
    obtain ⟨hnext, ⟨name, hat⟩, ⟨hopens, hfits, c, hc, hholds⟩, hbelow⟩ := h
    obtain ⟨hf, hdistinct⟩ := List.nodup_cons.mp hdistinct
    have hk : f.next - 1 < (heap f.source).fields.length := (List.getElem?_eq_some_iff.mp hat).1
    refine ⟨hnext, ⟨name, hat⟩, ⟨hopens, hfits, _, ?_, hholds.put hfits hk out⟩, ?_⟩
    · rw [ObjectGraph.place, List.getElem?_modify_eq, hc]
      rfl
    · refine hbelow.congr ?_ ?_ (fun p hp => hp)
      · intro g hg
        exact place_other below (fun heq => hf (heq ▸ List.mem_map_of_mem hg)) w
      · rfl

theorem Stack.placed (h : Stack heap root w order (some out) frames v) (himg : Image heap order v out) :
    Placed heap root w order frames := by
  cases frames with
  | nil => exact ⟨out, h.2 out rfl, h.1 ▸ himg⟩
  | cons f below =>
    obtain ⟨hnext, ⟨name, hat⟩, ⟨hopens, hfits, c, hc, hholds⟩, hbelow⟩ := h
    have hholds := hholds.next hat himg
    rw [Nat.sub_add_cancel hnext] at hholds
    exact ⟨⟨hopens, hfits, c, hc, hholds⟩, hbelow⟩

theorem reaches_trans {u v t : Value A} (h : Reaches heap u v) (ht : Reaches heap v t) : Reaches heap u t := by
  induction h with
  | refl => exact ht
  | step mem _ ih => exact .step mem (ih ht)

theorem Stack.reaches (h : Stack heap root w order last frames v) (hf : f ∈ frames) :
    ∃ u, Member heap f.source u ∧ Reaches heap u v := by
  induction frames generalizing last v with
  | nil => cases hf
  | cons g below ih =>
    obtain ⟨-, ⟨name, hat⟩, -, hbelow⟩ := h
    have hmem : Member heap g.source v := ⟨_, List.mem_of_getElem? hat, rfl⟩
    obtain rfl | hf := List.mem_cons.mp hf
    · exact ⟨v, hmem, .refl v⟩
    · obtain ⟨u, hu, hreach⟩ := ih hbelow hf
      exact ⟨u, hu, reaches_trans hreach (.step hmem (.refl v))⟩

theorem tainted_here (h : ¬ PlainHere heap v ∨ OnCycle heap v) : Tainted heap v := ⟨v, .refl v, h⟩

variable {a : A}

theorem Tainted.of_member (hmem : Member heap a v) (h : Tainted heap v) : Tainted heap (.ref a) := by
  obtain ⟨t, hreach, ht⟩ := h
  exact ⟨t, .step hmem hreach, ht⟩

theorem arrayLength_eq {header : ArrayHeader} {slots : List (Option (Descriptor A))} {length : Nat}
    (h : arrayLength header slots = some length) : length = slots.length := by
  simp only [arrayLength, Option.ite_none_left_eq_some] at h
  exact (Option.some.inj h.2.2.2).symm

theorem objectKeys_eq {header : ObjectHeader} {members : List (Str × Descriptor A)} {keys : List Str}
    (h : objectKeys header members = .ok (some keys)) : keys = members.map Prod.fst := by
  rw [objectKeys] at h
  by_cases hboxed : (header.boxedPrimitive || header.rawJSON) = true
  · rw [if_pos hboxed] at h
    cases h
  rw [if_neg hboxed] at h
  by_cases hprototype : (!header.plainPrototype) = true
  · rw [if_pos hprototype] at h
    cases h
  rw [if_neg hprototype] at h
  by_cases hsymbols : header.ownSymbols = true
  · rw [if_pos hsymbols] at h
    cases h
  rw [if_neg hsymbols] at h
  by_cases hmany : 2 ^ 23 < members.length
  · rw [if_pos hmany] at h
    cases h
  rw [if_neg hmany] at h
  exact (Option.some.inj (Except.ok.inj h)).symm

theorem live_frame (h : f ∈ frames) : (f.source, f.copy) ∈ live frames order :=
  List.mem_append_left _ (List.mem_map_of_mem h)

theorem live_left {p : A × Nat} (h : p ∈ order) : p ∈ live frames order := List.mem_append_right _ h

theorem Sound.copies_nodup (h : Sound heap w frames order) : (frames.map ObjectGraph.Frame.copy).Nodup := by
  have hdistinct := h.distinct
  rw [live, List.map_append, List.map_map] at hdistinct
  exact (List.nodup_append.mp hdistinct).1

theorem Sound.apart (h : Sound heap w frames order) (hf : f ∈ frames) {p : A × Nat} (hp : p ∈ order) :
    p.2 ≠ f.copy := by
  have hdistinct := h.distinct
  rw [live, List.map_append, List.map_map] at hdistinct
  intro heq
  exact (List.nodup_append.mp hdistinct).2.2 f.copy (List.mem_map_of_mem hf) p.2 (List.mem_map_of_mem hp) heq.symm

theorem Sound.place (h : Sound heap w frames order) (out : Out) : Sound heap (place out frames w) frames order where
  ordered := by
    refine h.ordered.congr ?_
    intro p hp
    cases frames with
    | nil => rfl
    | cons f below => exact place_other below (h.apart List.mem_cons_self hp) w
  onPath := (place_onPath out frames w).trans h.onPath
  memo := by
    rw [place_done]
    exact h.memo
  remembered := by
    rw [place_done]
    exact h.remembered
  distinct := h.distinct
  bound := by
    rw [place_length]
    exact h.bound

theorem Sound.put (h : Sound heap w frames order) (hstack : Stack heap root w order last frames v)
    (himg : Image heap order v out) : Sound heap (ObjectGraph.place out frames w) frames order ∧
      Placed heap root (ObjectGraph.place out frames w) order frames :=
  ⟨h.place out, (hstack.place h.copies_nodup out).placed himg⟩

variable [DecidableEq A]

theorem remember_done (w : Walk A) (a : A) (out : Out) (b : A) :
    (w.remember a out).done b = if b = a then some out else w.done b := rfl

theorem Sound.refuse (h : Sound heap w frames order) (ha : ∀ i, (a, i) ∉ live frames order)
    (htainted : Tainted heap (.ref a)) : Sound heap (w.remember a .marker) frames order where
  ordered := h.ordered
  onPath := h.onPath
  memo := by
    intro b out hb
    by_cases hba : b = a
    · rw [remember_done, if_pos hba] at hb
      exact .inl ⟨(Option.some.inj hb).symm, hba ▸ htainted⟩
    · rw [remember_done, if_neg hba] at hb
      exact h.memo b out hb
  remembered := by
    intro p hp
    have hne : p.1 ≠ a := fun heq => ha p.2 (heq ▸ hp)
    rw [remember_done, if_neg hne]
    exact h.remembered p hp
  distinct := h.distinct
  bound := h.bound

theorem Sound.enter (h : Sound heap w frames order) (hdone : w.done a = none)
    (hstack : Stack heap root w order none frames (.ref a)) (hopens : (heap a).opens = true)
    (hfits : Fits (heap a) cursor) {empty : Copy} (hkind : (heap a).isArray = empty.isArray)
    (hempty : empty.fields = []) :
    Sound heap (enter a empty cursor frames w).1 (enter a empty cursor frames w).2 order ∧
      Placed heap root (enter a empty cursor frames w).1 order (enter a empty cursor frames w).2 := by
  -- the walk with the copy in the memo and not yet in its place
  let started : Walk A := { w with copies := w.copies ++ [empty] }.remember a (.copy w.copies.length)
  have hold : ∀ p ∈ live frames order, started.copies[p.2]? = w.copies[p.2]? :=
    fun p hp => List.getElem?_append_left (h.bound p hp)
  have hnew : started.copies[w.copies.length]? = some empty := List.getElem?_concat_length
  have hplaced : Stack heap root (ObjectGraph.place (.copy w.copies.length) frames started) order
      (some (.copy w.copies.length)) frames (.ref a) := by
    have hstarted : Stack heap root started order none frames (.ref a) :=
      hstack.congr (fun f hf => hold _ (live_frame hf)) rfl (fun p hp => hp)
    exact hstarted.place h.copies_nodup _
  have hat : (ObjectGraph.place (.copy w.copies.length) frames started).copies[w.copies.length]? = some empty := by
    cases frames with
    | nil => exact hnew
    | cons f below =>
      have hne : w.copies.length ≠ f.copy := (Nat.ne_of_lt (h.bound _ (live_frame List.mem_cons_self))).symm
      exact (place_other below hne started).trans hnew
  have hmemo : ∀ b, (ObjectGraph.place (.copy w.copies.length) frames started).done b =
      if b = a then some (.copy w.copies.length) else w.done b := by
    intro b
    rw [place_done]
    rfl
  have hfree : ∀ p ∈ live frames order, p.1 ≠ a := by
    intro p hp heq
    have hsome := h.remembered p hp
    rw [heq, hdone] at hsome
    cases hsome
  refine ⟨⟨?_, ?_, ?_, ?_, ?_, ?_⟩, ⟨hopens, hfits, empty, hat, hkind, [], .nil, hempty⟩, ?_⟩
  · refine h.ordered.congr ?_
    intro p hp
    refine Eq.trans ?_ (hold p (live_left hp))
    cases frames with
    | nil => rfl
    | cons f below => exact place_other below (h.apart List.mem_cons_self hp) started
  · have hpath : (ObjectGraph.place (.copy w.copies.length) frames started).onPath = w.onPath := place_onPath _ _ _
    exact congrArg (a :: ·) (hpath.trans h.onPath)
  · intro b out hb
    replace hb := (hmemo b).symm.trans hb
    by_cases hba : b = a
    · rw [if_pos hba] at hb
      exact .inr ⟨_, (Option.some.inj hb).symm, hba ▸ List.mem_cons_self⟩
    · rw [if_neg hba] at hb
      exact (h.memo b out hb).imp_right (fun ⟨i, hout, hmem⟩ => ⟨i, hout, List.mem_cons_of_mem _ hmem⟩)
  · intro p hp
    obtain rfl | hp := List.mem_cons.mp hp
    · exact (hmemo a).trans (if_pos rfl)
    · exact (hmemo p.1).trans ((if_neg (hfree p hp)).trans (h.remembered p hp))
  · refine List.nodup_cons.mpr ⟨?_, h.distinct⟩
    intro hmem
    obtain ⟨p, hp, heq⟩ := List.mem_map.mp hmem
    exact absurd (h.bound p hp) (by rw [heq]; exact Nat.lt_irrefl _)
  · intro p hp
    have hlen : (ObjectGraph.place (.copy w.copies.length) frames started).copies.length = w.copies.length + 1 := by
      rw [place_length]
      exact List.length_append
    refine hlen ▸ ?_
    obtain rfl | hp := List.mem_cons.mp hp
    · exact Nat.lt_succ_self _
    · exact Nat.lt_succ_of_lt (h.bound p hp)
  · refine hplaced.congr ?_ ?_ (fun p hp => hp)
    · exact fun f hf => rfl
    · rfl

section
variable [Fintype A]

/-- The members that are still to be read: those of the containers not met yet, and those before the cursors. -/
def remaining (heap : A → Node A) (w : Walk A) (frames : List (Frame A)) : Nat :=
  (∑ a, if w.done a = none then (heap a).fields.length else 0) +
    (frames.map (fun f => (heap f.source).fields.length - f.next)).sum

omit [DecidableEq A] in
theorem remaining_place (out : Out) (top frames : List (Frame A)) (w : Walk A) :
    remaining heap (ObjectGraph.place out top w) frames = remaining heap w frames := by
  simp only [remaining, place_done]

theorem remaining_remember {a : A} (h : w.done a = none) (out : Out) (frames : List (Frame A)) :
    remaining heap (w.remember a out) frames + (heap a).fields.length = remaining heap w frames := by
  have hsum : (∑ b, if (w.remember a out).done b = none then (heap b).fields.length else 0) + (heap a).fields.length =
      ∑ b, if w.done b = none then (heap b).fields.length else 0 := by
    rw [← Finset.add_sum_erase _ _ (Finset.mem_univ a), ← Finset.add_sum_erase _ _ (Finset.mem_univ a), if_pos h,
      remember_done, if_pos rfl, if_neg (fun hsome => nomatch hsome), Nat.zero_add, Nat.add_comm]
    congr 1
    refine Finset.sum_congr rfl ?_
    intro b hb
    rw [remember_done, if_neg (Finset.ne_of_mem_erase hb)]
  rw [remaining, remaining, ← hsum]
  omega

theorem remaining_enter (h : w.done a = none) (empty : Copy) (cursor : Cursor) (frames : List (Frame A)) :
    remaining heap (enter a empty cursor frames w).1 (enter a empty cursor frames w).2 = remaining heap w frames := by
  have hremember : remaining heap ({ w with copies := w.copies ++ [empty] }.remember a (.copy w.copies.length)) frames +
      (heap a).fields.length = remaining heap w frames :=
    remaining_remember (w := { w with copies := w.copies ++ [empty] }) h (.copy w.copies.length) frames
  rw [← remaining_place (.copy w.copies.length) frames frames] at hremember
  have hcomm : ∀ x l s : Nat, x + (l + s) = x + s + l := by
    intro x l s
    omega
  refine Eq.trans ?_ hremember
  simp only [remaining, enter, List.map_cons, List.sum_cons, Nat.sub_zero]
  exact hcomm _ _ _

/-- The state after a value was looked at: nothing is left to put, and no member was read. -/
def Looked (heap : A → Node A) (root : Value A) (order : List (A × Nat)) (before : Nat)
    (s : Walk A × List (Frame A)) : Prop :=
  Sound heap s.1 s.2 order ∧ Placed heap root s.1 order s.2 ∧ remaining heap s.1 s.2 ≤ before

omit [DecidableEq A] in
theorem looked_put (h : Sound heap w frames order) (hstack : Stack heap root w order none frames v)
    (himg : Image heap order v out) :
    Looked heap root order (remaining heap w frames) (ObjectGraph.place out frames w, frames) := by
  obtain ⟨hsound, hplaced⟩ := h.put hstack himg
  exact ⟨hsound, hplaced, (remaining_place out frames frames w).le⟩

theorem looked_refused (h : Sound heap w frames order) (hdone : w.done a = none)
    (hstack : Stack heap root w order none frames (.ref a)) (htainted : Tainted heap (.ref a)) :
    Looked heap root order (remaining heap w frames)
      (ObjectGraph.place .marker frames (w.remember a .marker), frames) := by
  have hfree : ∀ i, (a, i) ∉ live frames order := by
    intro i hmem
    have hsome := h.remembered _ hmem
    rw [hdone] at hsome
    cases hsome
  have hstack' : Stack heap root (w.remember a .marker) order none frames (.ref a) := by
    refine hstack.congr ?_ ?_ (fun p hp => hp)
    · exact fun f hf => rfl
    · rfl
  have hlooked := looked_put (h.refuse hfree htainted) hstack' (.inl ⟨rfl, htainted⟩)
  have hremaining : remaining heap (w.remember a .marker) frames + (heap a).fields.length = remaining heap w frames :=
    remaining_remember hdone .marker frames
  exact ⟨hlooked.1, hlooked.2.1, hlooked.2.2.trans (by omega)⟩

theorem looked_entered (h : Sound heap w frames order) (hdone : w.done a = none)
    (hstack : Stack heap root w order none frames (.ref a)) (hopens : (heap a).opens = true)
    (hfits : Fits (heap a) cursor) {empty : Copy} (hkind : (heap a).isArray = empty.isArray)
    (hempty : empty.fields = []) :
    Looked heap root order (remaining heap w frames) (enter a empty cursor frames w) := by
  obtain ⟨hsound, hplaced⟩ := h.enter hdone hstack hopens hfits hkind hempty
  exact ⟨hsound, hplaced, (remaining_enter hdone empty cursor frames).le⟩

theorem inspect_ref (h : Sound heap w frames order) (hstack : Stack heap root w order none frames (.ref a)) :
    Looked heap root order (remaining heap w frames) (inspect heap (.ref a) frames w) := by
  simp only [inspect, plainScalar]
  by_cases hpath : a ∈ w.onPath
  · -- the container is open, and the walk has come back to it
    rw [if_pos hpath]
    rw [h.onPath] at hpath
    obtain ⟨f, hf, rfl⟩ := List.mem_map.mp hpath
    exact looked_put h hstack (.inl ⟨rfl, tainted_here (.inr (hstack.reaches hf))⟩)
  rw [if_neg hpath]
  cases hdone : w.done a with
  | some result =>
    refine looked_put h hstack ?_
    obtain hmarker | ⟨i, hout, hlive⟩ := h.memo a result hdone
    · exact .inl hmarker
    · obtain hframe | horder := List.mem_append.mp hlive
      · obtain ⟨f, hf, heq⟩ := List.mem_map.mp hframe
        have hsource : f.source = a := congrArg Prod.fst heq
        refine absurd ?_ hpath
        rw [h.onPath, ← hsource]
        exact List.mem_map_of_mem hf
      · exact .inr (.inr ⟨a, i, rfl, hout, horder⟩)
  | none =>
    have hnot : (heap a).opens = false → Tainted heap (.ref a) := by
      intro hopens
      refine tainted_here (.inl ?_)
      intro hplain
      exact Bool.false_ne_true (hopens.symm.trans hplain.1)
    cases hnode : heap a with
    | arr header slots =>
      cases hlength : arrayLength header slots with
      | none =>
        have hopens : (heap a).opens = false := by rw [hnode, Node.opens, hlength]; rfl
        simp only [hlength]
        exact looked_refused h hdone hstack (hnot hopens)
      | some length =>
        have hopens : (heap a).opens = true := by rw [hnode, Node.opens, hlength]; rfl
        have hfits : Fits (heap a) (.array length) := by
          rw [hnode]
          exact arrayLength_eq hlength
        simp only [hlength]
        exact looked_entered h hdone hstack hopens hfits (by rw [hnode]; rfl) rfl
    | obj header members listed =>
      cases hkeys : objectKeys header members with
      | error _ =>
        have hopens : (heap a).opens = false := by rw [hnode, Node.opens, hkeys]
        simp only [hkeys]
        exact looked_put h hstack (.inl ⟨rfl, hnot hopens⟩)
      | ok keys =>
        cases keys with
        | none =>
          have hopens : (heap a).opens = false := by rw [hnode, Node.opens, hkeys]
          simp only [hkeys]
          exact looked_refused h hdone hstack (hnot hopens)
        | some keys =>
          have hopens : (heap a).opens = true := by rw [hnode, Node.opens, hkeys]
          have hfits : Fits (heap a) (.object keys) := by
            rw [hnode]
            exact objectKeys_eq hkeys
          simp only [hkeys]
          exact looked_entered h hdone hstack hopens hfits (by rw [hnode]; rfl) rfl

theorem inspect_looked (h : Sound heap w frames order) (hstack : Stack heap root w order none frames v) :
    Looked heap root order (remaining heap w frames) (inspect heap v frames w) := by
  cases hscalar : plainScalar v with
  | some scalar =>
    have heq : inspect heap v frames w = (ObjectGraph.place scalar frames w, frames) := by
      unfold inspect
      simp only [hscalar]
    rw [heq]
    exact looked_put h hstack (.inr (.inl hscalar))
  | none =>
    have hmarker : ¬ PlainHere heap v → inspect heap v frames w = (ObjectGraph.place .marker frames w, frames) →
        Looked heap root order (remaining heap w frames) (inspect heap v frames w) := by
      intro hplain heq
      rw [heq]
      exact looked_put h hstack (.inl ⟨rfl, tainted_here (.inl hplain)⟩)
    cases v with
    | ref a => exact inspect_ref h hstack
    | undefined => exact hmarker (not_not.mpr hscalar) rfl
    | proxy => exact hmarker (not_not.mpr hscalar) rfl
    | other type => exact hmarker (not_not.mpr hscalar) rfl
    | num n =>
      cases n with
      | finite d => cases hscalar
      | nan => exact hmarker (not_not.mpr hscalar) rfl
      | infinite neg => exact hmarker (not_not.mpr hscalar) rfl
    | null => cases hscalar
    | bool b => cases hscalar
    | str s => cases hscalar

omit [DecidableEq A] [Fintype A] in
theorem Sound.once (h : Sound heap w (f :: below) order) (i : Nat) : (f.source, i) ∉ live below order := by
  intro hmem
  have hfirst := h.remembered _ (live_frame List.mem_cons_self)
  have hsecond := h.remembered _ (List.mem_cons_of_mem (f.source, f.copy) hmem)
  have hsame : f.copy = i := by
    have heq := Option.some.inj (hfirst.symm.trans hsecond)
    exact Out.copy.inj heq
  have hdistinct : (f.copy :: (live below order).map Prod.snd).Nodup := h.distinct
  exact (List.nodup_cons.mp hdistinct).1 (hsame ▸ List.mem_map_of_mem hmem)

omit [Fintype A] in
theorem Sound.path_left (h : Sound heap w (f :: below) order) : (w.leave f.source).onPath = below.map Frame.source := by
  have hkeep : ∀ b ∈ below.map Frame.source, decide (b ≠ f.source) = true := by
    intro b hb
    obtain ⟨g, hg, rfl⟩ := List.mem_map.mp hb
    refine decide_eq_true ?_
    intro heq
    exact h.once g.copy (heq ▸ live_frame hg)
  rw [Walk.leave, h.onPath, List.map_cons, List.filter_cons_of_neg (by simp)]
  exact List.filter_eq_self.mpr hkeep

omit [Fintype A] in
theorem Sound.finish (h : Sound heap w (f :: below) order)
    (hentered : Entered heap w.copies order f (heap f.source).fields.length none) :
    Sound heap (w.leave f.source) below ((f.source, f.copy) :: order) := by
  obtain ⟨hopens, -, c, hc, hholds⟩ := hentered
  have hperm : (live (f :: below) order).Perm (live below ((f.source, f.copy) :: order)) := List.perm_middle.symm
  exact {
    ordered := .cons hopens hc hholds h.ordered
    onPath := h.path_left
    memo := fun a out ha => (h.memo a out ha).imp_right (fun ⟨i, hout, hmem⟩ => ⟨i, hout, hperm.mem_iff.mp hmem⟩)
    remembered := fun p hp => h.remembered p (hperm.mem_iff.mpr hp)
    distinct := (hperm.map Prod.snd).nodup_iff.mp h.distinct
    bound := fun p hp => h.bound p (hperm.mem_iff.mpr hp) }

omit [Fintype A] in
theorem Sound.reject (h : Sound heap w (f :: below) order) (htainted : Tainted heap (.ref f.source)) :
    Sound heap ((w.leave f.source).remember f.source .marker) below order where
  ordered := h.ordered
  onPath := h.path_left
  memo := by
    intro b out hb
    rw [remember_done] at hb
    by_cases hbf : b = f.source
    · rw [if_pos hbf] at hb
      exact .inl ⟨(Option.some.inj hb).symm, hbf ▸ htainted⟩
    · rw [if_neg hbf] at hb
      refine (h.memo b out hb).imp_right ?_
      intro ⟨i, hout, hmem⟩
      obtain heq | hmem := List.mem_cons.mp hmem
      · exact absurd (congrArg Prod.fst heq) hbf
      · exact ⟨i, hout, hmem⟩
  remembered := by
    intro p hp
    have hne : p.1 ≠ f.source := fun heq => h.once p.2 (heq ▸ hp)
    rw [remember_done, if_neg hne]
    exact h.remembered p (List.mem_cons_of_mem _ hp)
  distinct := (List.nodup_cons.mp h.distinct).2
  bound := fun p hp => h.bound p (List.mem_cons_of_mem _ hp)

/-- A member was read, or no container is left open. -/
def Advanced (heap : A → Node A) (root : Value A) (before : Nat)
    (s : Walk A × Option (Value A × List (Frame A))) : Prop :=
  match s with
  | (w, none) => ∃ order, Sound heap w [] order ∧ Placed heap root w order []
  | (w, some (member, frames)) =>
    ∃ order, Sound heap w frames order ∧ Stack heap root w order none frames member ∧ remaining heap w frames < before

omit [DecidableEq A] in
theorem Advanced.mono {m n : Nat} (hmn : m ≤ n) {s : Walk A × Option (Value A × List (Frame A))}
    (h : Advanced heap root m s) : Advanced heap root n s := by
  obtain ⟨w, next⟩ := s
  cases next with
  | none => exact h
  | some next =>
    obtain ⟨order, hsound, hstack, hlt⟩ := h
    exact ⟨order, hsound, hstack, hlt.trans_le hmn⟩

omit [DecidableEq A] in
theorem remaining_pop (f : Frame A) (below : List (Frame A)) (w : Walk A) :
    remaining heap w below ≤ remaining heap w (f :: below) := by
  simp only [remaining, List.map_cons, List.sum_cons]
  omega

theorem remaining_remember_le (a : A) (out : Out) (frames : List (Frame A)) :
    remaining heap ((w.leave a).remember a out) frames ≤ remaining heap w frames := by
  refine Nat.add_le_add_right (Finset.sum_le_sum ?_) _
  intro b _
  rw [remember_done]
  by_cases hba : b = a
  · rw [if_pos hba, if_neg (fun hsome => nomatch hsome)]
    exact Nat.zero_le _
  · rw [if_neg hba]
    exact Nat.le_refl _

theorem advance_advanced (h : Sound heap w frames order) (hplaced : Placed heap root w order frames) :
    Advanced heap root (remaining heap w frames) (advance heap frames w) := by
  induction frames generalizing w order with
  | nil => exact ⟨order, h, hplaced⟩
  | cons f below ih =>
    obtain ⟨⟨hopens, hfits, c, hc, hholds⟩, hbelow⟩ := hplaced
    rw [advance, hfits.length]
    by_cases hend : (heap f.source).fields.length ≤ f.next
    · -- the innermost container is done
      rw [if_pos hend]
      have hsound := h.finish ⟨hopens, hfits, c, hc, hholds.whole hend⟩
      have hstack : Stack heap root (w.leave f.source) ((f.source, f.copy) :: order) (some (.copy f.copy)) below
          (.ref f.source) := by
        refine hbelow.congr ?_ ?_ (fun p hp => List.mem_cons_of_mem _ hp)
        · exact fun g hg => rfl
        · rfl
      have hdone := hstack.placed (.inr (.inr ⟨f.source, f.copy, rfl, rfl, List.mem_cons_self⟩))
      exact (ih hsound hdone).mono (remaining_pop f below w)
    rw [if_neg hend, hfits.read]
    have hlt : f.next < (heap f.source).fields.length := Nat.lt_of_not_le hend
    rw [List.getElem?_eq_getElem hlt, Option.bind_some]
    cases hvalue : ((heap f.source).fields[f.next]).2 with
    | some value =>
      refine ⟨order, ⟨h.ordered, h.onPath, h.memo, h.remembered, h.distinct, h.bound⟩, ⟨?_, ?_, ?_, hbelow⟩, ?_⟩
      · exact Nat.le_add_left 1 f.next
      · exact ⟨((heap f.source).fields[f.next]).1,
          (List.getElem?_eq_getElem hlt).trans (congrArg some (Prod.ext rfl hvalue))⟩
      · exact ⟨hopens, hfits, c, hc, hholds⟩
      · simp only [remaining, List.map_cons, List.sum_cons]
        omega
    | none =>
      -- a hole, an accessor or a member that is not enumerable
      have htainted : Tainted heap (.ref f.source) := by
        refine tainted_here (.inl ?_)
        intro hplain
        exact hplain.2 _ (List.getElem_mem hlt) hvalue
      have hsound := h.reject htainted
      have hstack : Stack heap root ((w.leave f.source).remember f.source .marker) order (some (.copy f.copy)) below
          (.ref f.source) := by
        refine hbelow.congr ?_ ?_ (fun p hp => hp)
        · exact fun g hg => rfl
        · rfl
      obtain ⟨hput, hdone⟩ := hsound.put hstack (.inl ⟨rfl, htainted⟩)
      refine (ih hput hdone).mono ?_
      rw [remaining_place]
      exact (remaining_remember_le f.source .marker below).trans (remaining_pop f below w)

/-- What the walk leaves when it returns. -/
def Finished (heap : A → Node A) (root : Value A) (result : Option Out × List Copy) : Prop :=
  ∃ out order, result.1 = some out ∧ Ordered heap result.2 order ∧ Image heap order root out ∧
    (order.map Prod.snd).Nodup ∧ ∃ done : A → Option Out, ∀ p ∈ order, done p.1 = some (.copy p.2)

theorem snapshot_finishes (heap : A → Node A) (root : Value A) :
    ∃ result, Finished heap root result ∧
      ∀ fuel, ∑ a, (heap a).fields.length < fuel →
        ObjectGraph.snapshotPlainData heap fuel root = some (.ok result) := by
  have hstart : ∑ a, (heap a).fields.length = remaining heap (⟨none, [], fun _ => none, []⟩ : Walk A) [] := by
    simp [remaining]
  rw [hstart]
  simp only [ObjectGraph.snapshotPlainData]
  refine loop_returns (fun s : Walk A × List (Frame A) × Value A => ∃ order, Sound heap s.1 s.2.1 order ∧
    Stack heap root s.1 order none s.2.1 s.2.2) (Finished heap root) (fun s => remaining heap s.1 s.2.1)
    (s := (⟨none, [], fun _ => none, []⟩, [], root)) ?_ ?_
  · intro s hs
    obtain ⟨order, hsound, hstack⟩ := hs
    obtain ⟨hlooked, hplaced, hle⟩ := inspect_looked hsound hstack
    have hadvanced := (advance_advanced hlooked hplaced).mono hle
    cases hnext : advance heap (inspect heap s.2.2 s.2.1 s.1).2 (inspect heap s.2.2 s.2.1 s.1).1 with
    | mk w next =>
      rw [hnext] at hadvanced
      cases next with
      | none =>
        obtain ⟨order, hsound, out, hout, himage⟩ := hadvanced
        refine .inr ⟨(w.output, w.copies), ?_, out, order, hout, hsound.ordered, himage, hsound.distinct, w.done,
          hsound.remembered⟩
        simp only [turn, hnext]
        rfl
      | some next =>
        obtain ⟨member, frames⟩ := next
        obtain ⟨order, hsound, hstack, hlt⟩ := hadvanced
        refine .inl ⟨(w, frames, member), ?_, ⟨order, hsound, hstack⟩, hlt⟩
        simp only [turn, hnext]
        rfl
  · refine ⟨[], ⟨.nil, rfl, ?_, ?_, List.nodup_nil, ?_⟩, rfl, ?_⟩
    · intro a out ha
      cases ha
    · intro p hp
      cases hp
    · intro p hp
      cases hp
    · intro out hout
      cases hout

end

end

section
variable {heap : A → Node A} {root : Value A} {copies : List Copy} {order : List (A × Nat)}

theorem Ordered.copied (h : Ordered heap copies order) {a : A} (hmem : (a, i) ∈ order) :
    (heap a).opens = true ∧ ∃ c, copies[i]? = some c ∧ (heap a).isArray = c.isArray ∧
      List.Forall₂ (Matches (Image heap order)) (heap a).fields c.fields := by
  induction h with
  | nil => cases hmem
  | @cons b j c order opens copy holds _ ih =>
    obtain heq | hmem := List.mem_cons.mp hmem
    · obtain ⟨rfl, rfl⟩ := Prod.mk.inj heq
      obtain ⟨hkind, copied, hcopied, hfields⟩ := holds.mono
        (fun v out himg => himg.mono (fun p hp => List.mem_cons_of_mem (a, i) hp))
      rw [List.take_length] at hcopied
      exact ⟨opens, c, copy, hkind, hfields ▸ hcopied⟩
    · obtain ⟨hopens, c, hc, hkind, hfields⟩ := ih hmem
      refine ⟨hopens, c, hc, hkind, hfields.imp ?_⟩
      exact fun _ _ hm => hm.mono (fun v out himg => himg.mono (fun p hp => List.mem_cons_of_mem _ hp))

theorem image_marker (h : Image heap order v .marker) : Tainted heap v := by
  obtain ⟨-, htainted⟩ | hscalar | ⟨b, i, -, hout, -⟩ := h
  · exact htainted
  · exfalso
    cases v with
    | num n => cases n <;> cases hscalar
    | _ => cases hscalar
  · cases hout

theorem image_copy (h : Image heap order v (.copy i)) : ∃ a, v = .ref a ∧ (a, i) ∈ order := by
  obtain ⟨hout, -⟩ | hscalar | ⟨b, j, hv, hout, hmem⟩ := h
  · cases hout
  · exfalso
    cases v with
    | num n => cases n <;> cases hscalar
    | _ => cases hscalar
  · obtain rfl := Out.copy.inj hout
    exact ⟨b, hv, hmem⟩

theorem tainted_of_marker (h : Ordered heap copies order) (hmarker : HasMarker copies out) :
    ∀ v, Image heap order v out → Tainted heap v := by
  induction hmarker with
  | here => exact fun v himg => image_marker himg
  | @inside i c field copy mem _ ih =>
    intro v himg
    obtain ⟨a, rfl, hmem⟩ := image_copy himg
    obtain ⟨-, c', hc', -, hfields⟩ := h.copied hmem
    obtain rfl := Option.some.inj (copy.symm.trans hc')
    obtain ⟨member, hmember, -, u, hu, himg⟩ := CanonicalInjective.forall₂_mem hfields.flip mem
    exact Tainted.of_member ⟨member, hmember, hu⟩ (ih u himg)

/-- Plain data all the way down, and so without cycles. -/
inductive Clean (heap : A → Node A) : Value A → Prop
  | scalar {v : Value A} (h : plainScalar v ≠ none) : Clean heap v
  | container {a : A} (plain : PlainHere heap (.ref a)) (members : ∀ v, Member heap a v → Clean heap v) :
      Clean heap (.ref a)

theorem Clean.member {a : A} (h : Clean heap (.ref a)) (hv : Member heap a v) : Clean heap v := by
  cases h with
  | scalar h => exact absurd rfl h
  | container _ members => exact members v hv

theorem Clean.reaches {v u : Value A} (h : Clean heap v) (hreach : Reaches heap v u) : Clean heap u := by
  induction hreach with
  | refl => exact h
  | step mem _ ih => exact ih (h.member mem)

theorem Clean.plain (h : Clean heap v) : PlainHere heap v := by
  cases h with
  | scalar h =>
    cases v with
    | ref a => exact absurd rfl h
    | _ => exact h
  | container plain _ => exact plain

theorem cycle_member {a : A} (hmem : Member heap a v) (hreach : Reaches heap v (.ref a)) : OnCycle heap v := by
  cases hreach with
  | refl => exact ⟨_, hmem, .refl _⟩
  | step hnext hrest => exact ⟨_, hnext, reaches_trans hrest (.step hmem (.refl _))⟩

theorem Clean.acyclic (h : Clean heap v) : ¬ OnCycle heap v := by
  induction h with
  | @scalar v h =>
    intro hcycle
    cases v with
    | ref a => exact h rfl
    | _ => exact hcycle
  | container _ _ ih =>
    intro hcycle
    obtain ⟨v, hmem, hreach⟩ := hcycle
    exact ih v hmem (cycle_member hmem hreach)

theorem Clean.not_tainted (h : Clean heap v) : ¬ Tainted heap v := by
  intro htainted
  obtain ⟨u, hreach, hbad⟩ := htainted
  have hu := h.reaches hreach
  exact hbad.elim (fun hplain => hplain hu.plain) hu.acyclic

/-- Where the marker is not, all is clean: the containers that are left are taken in the order in
which they were left, each after those it leads to. -/
theorem clean_of_unmarked (h : Ordered heap copies order) :
    ∀ v out, Image heap order v out → ¬ HasMarker copies out → Clean heap v := by
  induction h with
  | nil =>
    intro v out himg hmarker
    obtain ⟨rfl, -⟩ | hscalar | ⟨b, i, -, -, hmem⟩ := himg
    · exact absurd .here hmarker
    · exact .scalar (by rw [hscalar]; exact fun hnone => nomatch hnone)
    · cases hmem
  | @cons a j c order opens copy holds _ ih =>
    intro v out himg hmarker
    obtain hbad | hscalar | ⟨b, i, rfl, rfl, hmem⟩ := himg
    · exact ih v out (.inl hbad) hmarker
    · exact ih v out (.inr (.inl hscalar)) hmarker
    obtain heq | hmem := List.mem_cons.mp hmem
    · obtain ⟨rfl, rfl⟩ := Prod.mk.inj heq
      obtain ⟨-, copied, hcopied, hfields⟩ := holds
      rw [List.take_length, ← show c.fields = copied from hfields] at hcopied
      have hmember : ∀ field ∈ (heap b).fields, ∃ v, field.2 = some v ∧ Clean heap v := by
        intro field hfield
        obtain ⟨g, hg, -, v, hv, himg⟩ := CanonicalInjective.forall₂_mem hcopied hfield
        exact ⟨v, hv, ih v g.2 himg (fun hinside => hmarker (.inside copy hg hinside))⟩
      refine .container ⟨opens, ?_⟩ ?_
      · intro field hfield hnone
        obtain ⟨v, hv, -⟩ := hmember field hfield
        exact nomatch hv.symm.trans hnone
      · intro v hv
        obtain ⟨field, hfield, hvalue⟩ := hv
        obtain ⟨u, hu, hclean⟩ := hmember field hfield
        exact Option.some.inj (hu.symm.trans hvalue) ▸ hclean
    · exact ih _ _ (.inr (.inr ⟨b, i, rfl, rfl, hmem⟩)) hmarker

/-- The value in the snapshot, by the place of its container. -/
def image (placeOf : A → Nat) : Value A → Out
  | .ref a => .copy (placeOf a)
  | v => (plainScalar v).getD .marker

/-- The same members in the same order, each with its image. -/
def deepCopy (placeOf : A → Nat) : Node A → Copy
  | .arr _ slots => .arr (slots.map (fun d => ((enumerableValue d).map (image placeOf)).getD .marker))
  | .obj _ members _ =>
    .obj (members.map (fun m => (m.1, ((enumerableValue (some m.2)).map (image placeOf)).getD .marker)))

theorem deepCopy_fields (placeOf : A → Nat) (node : Node A) :
    (deepCopy placeOf node).fields = node.fields.map (fun f => (f.1, (f.2.map (image placeOf)).getD .marker)) := by
  cases node with
  | arr header slots => simp [deepCopy, Copy.fields, Node.fields, Function.comp_def]
  | obj header members listed => simp [deepCopy, Copy.fields, Node.fields, Function.comp_def]

theorem copy_eq_of_fields {c d : Copy} (hkind : c.isArray = d.isArray) (hfields : c.fields = d.fields) : c = d := by
  cases c with
  | arr items =>
    cases d with
    | obj members => cases hkind
    | arr items' =>
      have hinj : Function.Injective (fun v : Out => ((none : Option Str), v)) := fun a b h => (Prod.mk.inj h).2
      rw [List.map_injective_iff.mpr hinj hfields]
  | obj members =>
    cases d with
    | arr items => cases hkind
    | obj members' =>
      have hinj : Function.Injective (fun m : Str × Out => (some m.1, m.2)) := by
        intro a b h
        obtain ⟨hname, hvalue⟩ := Prod.mk.inj h
        exact Prod.ext (Option.some.inj hname) hvalue
      rw [List.map_injective_iff.mpr hinj hfields]

theorem image_unmarked {done : A → Option Out} (hdone : ∀ p ∈ order, done p.1 = some (.copy p.2))
    (himg : Image heap order v out) (hmarker : ¬ HasMarker copies out) :
    out = image (fun a => match done a with | some (.copy i) => i | _ => 0) v := by
  obtain ⟨rfl, -⟩ | hscalar | ⟨b, i, rfl, rfl, hmem⟩ := himg
  · exact absurd .here hmarker
  · cases v with
    | ref a => cases hscalar
    | _ => exact (congrArg (fun o => Option.getD o Out.marker) hscalar).symm
  · rw [image, hdone _ hmem]

theorem unmarked_reaches (h : Ordered heap copies order) {v u : Value A} (hreach : Reaches heap v u) :
    ∀ out, Image heap order v out → ¬ HasMarker copies out →
      ∃ out', Image heap order u out' ∧ ¬ HasMarker copies out' := by
  induction hreach with
  | refl => exact fun out himg hmarker => ⟨out, himg, hmarker⟩
  | @step a v u mem _ ih =>
    intro out himg hmarker
    obtain ⟨rfl, -⟩ | hscalar | ⟨b, i, hb, rfl, hmem⟩ := himg
    · exact absurd .here hmarker
    · cases hscalar
    · obtain rfl := Value.ref.inj hb
      obtain ⟨-, c, hc, -, hfields⟩ := h.copied hmem
      obtain ⟨field, hfield, hvalue⟩ := mem
      obtain ⟨g, hg, -, x, hx, himg⟩ := CanonicalInjective.forall₂_mem hfields hfield
      obtain rfl := Option.some.inj (hx.symm.trans hvalue)
      exact ih g.2 himg (fun hinside => hmarker (.inside hc hg hinside))

theorem deepCopy_of_unmarked (h : Ordered heap copies order) {done : A → Option Out}
    (hdone : ∀ p ∈ order, done p.1 = some (.copy p.2)) {a : A} (hmem : (a, i) ∈ order)
    (hmarker : ¬ HasMarker copies (.copy i)) :
    copies[i]? = some (deepCopy (fun b => match done b with | some (.copy j) => j | _ => 0) (heap a)) := by
  obtain ⟨-, c, hc, hkind, hfields⟩ := h.copied hmem
  rw [hc]
  refine congrArg some (copy_eq_of_fields ?_ ?_)
  · rw [← hkind]
    cases heap a <;> rfl
  · rw [deepCopy_fields]
    symm
    rw [← List.forall₂_eq_eq_eq, List.forall₂_map_left_iff]
    have hunmarked : ∀ g ∈ c.fields, ¬ HasMarker copies g.2 :=
      fun g hg hinside => hmarker (.inside hc hg hinside)
    clear hc hkind hmem
    generalize c.fields = copied at hfields hunmarked ⊢
    generalize (heap a).fields = fields at hfields ⊢
    induction hfields with
    | nil => exact .nil
    | @cons field g fields copied hmatch _ ih =>
      obtain ⟨hg, hunmarked⟩ := List.forall_mem_cons.mp hunmarked
      obtain ⟨hname, v, hv, himg⟩ := hmatch
      refine .cons ?_ (ih hunmarked)
      exact Prod.ext hname (by rw [hv, image_unmarked hdone himg hg]; rfl)

end

/-- The snapshot of every finite graph: the walk returns; the marker is in the result exactly when
something reached is not plain data or lies on a cycle; otherwise every container reached is copied
once, with its members in order, and the result is made of these copies. -/
theorem snapshot_correct [DecidableEq A] [Fintype A] (heap : A → Node A) (root : Value A) :
    ∃ out copies,
      (∀ fuel, ∑ a, (heap a).fields.length < fuel →
        ObjectGraph.snapshotPlainData heap fuel root = some (.ok (some out, copies))) ∧
      (HasMarker copies out ↔ Tainted heap root) ∧
      (¬ Tainted heap root → ∃ placeOf : A → Nat, out = image placeOf root ∧
        (∀ a, Reaches heap root (.ref a) → copies[placeOf a]? = some (deepCopy placeOf (heap a))) ∧
        ∀ a b, Reaches heap root (.ref a) → Reaches heap root (.ref b) → placeOf a = placeOf b → a = b) := by
  obtain ⟨⟨output, copies⟩, ⟨out, order, hout, hordered, himg, hdistinct, done, hdone⟩, hreturns⟩ :=
    snapshot_finishes heap root
  obtain rfl : output = some out := hout
  have hmarker : HasMarker copies out → Tainted heap root := fun h => tainted_of_marker hordered h root himg
  refine ⟨out, copies, hreturns, ⟨hmarker, ?_⟩, ?_⟩
  · intro htainted
    by_contra hunmarked
    exact (clean_of_unmarked hordered root out himg hunmarked).not_tainted htainted
  · intro hclean
    have hunmarked : ¬ HasMarker copies out := fun h => hclean (hmarker h)
    have hplaced : ∀ a, Reaches heap root (.ref a) →
        ∃ i, (a, i) ∈ order ∧ done a = some (.copy i) ∧ ¬ HasMarker copies (.copy i) := by
      intro a hreach
      obtain ⟨out', himg', hunmarked'⟩ := unmarked_reaches hordered hreach out himg hunmarked
      obtain ⟨rfl, -⟩ | hscalar | ⟨b, i, hb, rfl, hmem⟩ := himg'
      · exact absurd .here hunmarked'
      · cases hscalar
      · obtain rfl := Value.ref.inj hb
        exact ⟨i, hmem, hdone _ hmem, hunmarked'⟩
    refine ⟨fun a => match done a with | some (.copy i) => i | _ => 0, image_unmarked hdone himg hunmarked, ?_, ?_⟩
    · intro a hreach
      obtain ⟨i, hmem, hat, hunmarked'⟩ := hplaced a hreach
      simp only [hat]
      exact deepCopy_of_unmarked hordered hdone hmem hunmarked'
    · intro a b ha hb heq
      obtain ⟨i, hi, hai, -⟩ := hplaced a ha
      obtain ⟨j, hj, hbj, -⟩ := hplaced b hb
      simp only [hai, hbj] at heq
      exact (Prod.mk.inj (List.inj_on_of_nodup_map hdistinct hi hj heq)).1

/-- An array that holds one array twice, and itself. -/
example :
    ObjectGraph.snapshotPlainData
        (fun a : Fin 2 => .arr ⟨true, false, false⟩ (if a = 0 then
          [some (.data (.ref 1) true), some (.data (.ref 1) true), some (.data (.ref 0) true)] else []))
        4 (.ref 0) =
      some (.ok (some (.copy 0), [.arr [.copy 1, .copy 1, .marker], .arr []])) := rfl

end AgentPassport.SnapshotWalk
