import AgentPassport.OrderedMap

/-! Loops that fill a map: counting keys, collecting the items of each key, and giving every key
what its value is mapped to. -/
namespace AgentPassport.OrderedMap
variable {κ α β : Type*}

def keys (m : OrderedMap κ α) : List κ := m.entries.map Prod.fst

def values (m : OrderedMap κ α) : List α := m.entries.map Prod.snd

theorem keys_nodup (m : OrderedMap κ α) : m.keys.Nodup := m.distinct

variable [DecidableEq κ]

theorem lookup_of_mem {k : κ} {v : α} {entries : List (κ × α)} (hnodup : (entries.map Prod.fst).Nodup)
    (h : (k, v) ∈ entries) : lookup k entries = some v := by
  induction entries with
  | nil => cases h
  | cons e rest ih =>
    obtain ⟨he, hrest⟩ := List.nodup_cons.mp hnodup
    rw [lookup]
    cases h with
    | head => rw [if_pos rfl]
    | tail _ h =>
      have hne : e.1 ≠ k := by
        intro heq
        rw [heq] at he
        exact he (List.mem_map_of_mem h)
      rw [if_neg hne, ih hrest h]

theorem mem_entries {m : OrderedMap κ α} {k : κ} {v : α} : (k, v) ∈ m.entries ↔ m.get k = some v :=
  ⟨lookup_of_mem m.distinct, mem_of_lookup⟩

theorem mem_keys {m : OrderedMap κ α} {k : κ} : k ∈ m.keys ↔ (m.get k).isSome := by
  constructor
  · intro h
    obtain ⟨e, he, rfl⟩ := List.mem_map.mp h
    rw [mem_entries.mp he]
    rfl
  · intro h
    obtain ⟨v, hv⟩ := Option.isSome_iff_exists.mp h
    exact List.mem_map_of_mem (mem_entries.mpr hv)

theorem mem_values {m : OrderedMap κ α} {v : α} : v ∈ m.values ↔ ∃ k, m.get k = some v := by
  constructor
  · intro h
    obtain ⟨⟨k, v⟩, he, rfl⟩ := List.mem_map.mp h
    exact ⟨k, mem_entries.mp he⟩
  · rintro ⟨k, hk⟩
    exact List.mem_map_of_mem (mem_entries.mpr hk)

theorem assign_absent {k : κ} (v : α) {entries : List (κ × α)} (h : lookup k entries = none) :
    assign k v entries = entries ++ [(k, v)] := by
  induction entries with
  | nil => rfl
  | cons e rest ih =>
    rw [lookup] at h
    rw [assign]
    split at h
    · cases h
    · rename_i hne
      rw [if_neg hne, ih h, List.cons_append]

theorem values_set_absent {m : OrderedMap κ α} {k : κ} (v : α) (h : m.get k = none) :
    (m.set k v).values = m.values ++ [v] := by
  show (assign k v m.entries).map Prod.snd = _
  rw [assign_absent v h, List.map_append]
  rfl

def tally (ks : List κ) : OrderedMap κ Nat :=
  ks.foldl (fun m k => m.set k ((m.get k).getD 0 + 1)) empty

def repeats (ks : List κ) : Bool := (tally ks).values.any (fun count => 1 < count)

theorem get_tally_from (ks : List κ) (k : κ) : ∀ m : OrderedMap κ Nat,
    (ks.foldl (fun m k => m.set k ((m.get k).getD 0 + 1)) m).get k =
      if ks.count k = 0 then m.get k else some ((m.get k).getD 0 + ks.count k) := by
  induction ks with
  | nil =>
    intro m
    rfl
  | cons k' rest ih =>
    intro m
    rw [List.foldl_cons, ih, get_set, List.count_cons]
    by_cases heq : k' = k
    · subst heq
      simp only [if_true, Option.getD_some, beq_self_eq_true, Nat.add_one_ne_zero, if_false]
      split
      · rename_i hzero
        rw [hzero]
      · rw [Nat.add_assoc, Nat.add_comm 1]
    · simp [heq]

theorem get_tally (ks : List κ) (k : κ) :
    (tally ks).get k = if ks.count k = 0 then none else some (ks.count k) := by
  rw [tally, get_tally_from]
  simp

theorem repeats_false_iff {ks : List κ} : repeats ks = false ↔ ks.Nodup := by
  rw [repeats, List.any_eq_false, List.nodup_iff_count_le_one]
  constructor
  · intro h k
    by_cases hzero : ks.count k = 0
    · omega
    · have hget := get_tally ks k
      rw [if_neg hzero] at hget
      have hle := h _ (mem_values.mpr ⟨k, hget⟩)
      simp only [decide_eq_true_eq] at hle
      omega
  · intro h count hcount
    obtain ⟨k, hk⟩ := mem_values.mp hcount
    rw [get_tally] at hk
    split at hk
    · cases hk
    · cases hk
      have hle := h k
      simp only [decide_eq_true_eq]
      omega

theorem repeats_perm {ks ks' : List κ} (h : ks.Perm ks') : repeats ks = repeats ks' := by
  have hiff : repeats ks = false ↔ repeats ks' = false := by
    rw [repeats_false_iff, repeats_false_iff, h.nodup_iff]
  cases hks : repeats ks with
  | false => exact (hiff.mp hks).symm
  | true =>
    cases hks' : repeats ks' with
    | false =>
      rw [hiff.mpr hks'] at hks
      cases hks
    | true => rfl

def groupBy (key : α → κ) (items : List α) : OrderedMap κ (List α) :=
  items.foldl (fun m item => m.set (key item) ((m.get (key item)).getD [] ++ [item])) empty

theorem get_group_from (key : α → κ) (items : List α) (k : κ) : ∀ m : OrderedMap κ (List α),
    (items.foldl (fun m item => m.set (key item) ((m.get (key item)).getD [] ++ [item])) m).get k =
      if items.filter (fun item => key item = k) = [] then m.get k
      else some ((m.get k).getD [] ++ items.filter (fun item => key item = k)) := by
  induction items with
  | nil =>
    intro m
    rfl
  | cons item rest ih =>
    intro m
    rw [List.foldl_cons, ih, get_set, List.filter_cons]
    by_cases heq : key item = k
    · simp only [heq, if_true, decide_true, Option.getD_some]
      split
      · rename_i hnil
        simp [hnil]
      · simp [List.append_assoc]
    · simp [heq]

theorem get_groupBy (key : α → κ) (items : List α) (k : κ) :
    (groupBy key items).get k =
      if items.filter (fun item => key item = k) = [] then none
      else some (items.filter (fun item => key item = k)) := by
  rw [groupBy, get_group_from]
  simp

theorem getD_groupBy (key : α → κ) (items : List α) (k : κ) :
    ((groupBy key items).get k).getD [] = items.filter (fun item => key item = k) := by
  rw [get_groupBy]
  split
  · rename_i hnil
    rw [hnil]
    rfl
  · rfl

theorem mem_keys_groupBy {key : α → κ} {items : List α} {k : κ} :
    k ∈ (groupBy key items).keys ↔ ∃ item ∈ items, key item = k := by
  rw [mem_keys, get_groupBy]
  split
  · rename_i hnil
    simp only [Option.isSome_none, Bool.false_eq_true, false_iff]
    rintro ⟨item, hitem, hkey⟩
    have hmem : item ∈ items.filter (fun item => key item = k) := List.mem_filter.mpr ⟨hitem, by simpa using hkey⟩
    rw [hnil] at hmem
    cases hmem
  · rename_i hne
    simp only [Option.isSome_some, true_iff]
    obtain ⟨item, hitem⟩ := List.exists_mem_of_ne_nil _ hne
    obtain ⟨hmem, hkey⟩ := List.mem_filter.mp hitem
    exact ⟨item, hmem, by simpa using hkey⟩

/-- The items that pass a test, by their key. -/
def indexWhere (p : α → Prop) [DecidablePred p] (key : α → κ) (items : List α) (m : OrderedMap κ α) :
    OrderedMap κ α :=
  items.foldl (fun m item => if p item then m.set (key item) item else m) m

theorem get_indexWhere {p : α → Prop} [DecidablePred p] {key : α → κ} {items : List α}
    (hnodup : (items.map key).Nodup) {k : κ} {item : α} : ∀ {m : OrderedMap κ α},
    (∀ other ∈ items, m.get (key other) = none) →
    ((indexWhere p key items m).get k = some item ↔
      (item ∈ items ∧ p item ∧ key item = k) ∨ m.get k = some item) := by
  induction items with
  | nil =>
    intro m _
    simp [indexWhere]
  | cons first rest ih =>
    intro m hfresh
    obtain ⟨hfirst, hrest⟩ := List.forall_mem_cons.mp hfresh
    obtain ⟨hnew, hnodup⟩ := List.nodup_cons.mp hnodup
    by_cases hp : p first
    · have hfresh' : ∀ other ∈ rest, (m.set (key first) first).get (key other) = none := by
        intro other hother
        have hne : key first ≠ key other := fun heq => hnew (heq ▸ List.mem_map_of_mem hother)
        rw [get_set_ne m first hne]
        exact hrest other hother
      have hstep : indexWhere p key (first :: rest) m = indexWhere p key rest (m.set (key first) first) := by
        rw [indexWhere, List.foldl_cons, if_pos hp]
        rfl
      rw [hstep, ih hnodup hfresh', get_set]
      by_cases hk : key first = k
      · subst hk
        rw [if_pos rfl, hfirst]
        constructor
        · intro h
          obtain ⟨hmem, hpass, hkey⟩ | h := h
          · exact absurd (hkey ▸ List.mem_map_of_mem hmem) hnew
          · cases h
            exact .inl ⟨List.mem_cons_self, hp, rfl⟩
        · intro h
          obtain ⟨hmem, hpass, hkey⟩ | h := h
          · obtain rfl | hmem := List.mem_cons.mp hmem
            · exact .inr rfl
            · exact absurd (hkey ▸ List.mem_map_of_mem hmem) hnew
          · cases h
      · rw [if_neg hk, List.mem_cons]
        constructor
        · intro h
          obtain ⟨hmem, hpass, hkey⟩ | h := h
          · exact .inl ⟨.inr hmem, hpass, hkey⟩
          · exact .inr h
        · intro h
          obtain ⟨rfl | hmem, hpass, hkey⟩ | h := h
          · exact absurd hkey hk
          · exact .inl ⟨hmem, hpass, hkey⟩
          · exact .inr h
    · have hstep : indexWhere p key (first :: rest) m = indexWhere p key rest m := by
        rw [indexWhere, List.foldl_cons, if_neg hp]
        rfl
      rw [hstep, ih hnodup hrest, List.mem_cons]
      constructor
      · intro h
        obtain ⟨hmem, hpass, hkey⟩ | h := h
        · exact .inl ⟨.inr hmem, hpass, hkey⟩
        · exact .inr h
      · intro h
        obtain ⟨rfl | hmem, hpass, hkey⟩ | h := h
        · exact absurd hpass hp
        · exact .inl ⟨hmem, hpass, hkey⟩
        · exact .inr h

def mapEach (f : α → β) (m : OrderedMap κ α) : OrderedMap κ β :=
  m.entries.foldl (fun out e => out.set e.1 (f e.2)) empty

theorem get_map_from (f : α → β) (k : κ) : ∀ {entries : List (κ × α)} (out : OrderedMap κ β),
    (entries.map Prod.fst).Nodup →
    (entries.foldl (fun out e => out.set e.1 (f e.2)) out).get k =
      ((lookup k entries).map f).or (out.get k) := by
  intro entries
  induction entries with
  | nil =>
    intro out _
    rfl
  | cons e rest ih =>
    intro out hnodup
    obtain ⟨he, hrest⟩ := List.nodup_cons.mp hnodup
    rw [List.foldl_cons, ih _ hrest, get_set, lookup]
    by_cases heq : e.1 = k
    · have hnone : lookup k rest = none := by
        cases hlook : lookup k rest with
        | none => rfl
        | some v =>
          rw [heq] at he
          exact absurd (List.mem_map_of_mem (mem_of_lookup hlook)) he
      rw [hnone, if_pos heq, if_pos heq]
      rfl
    · rw [if_neg heq, if_neg heq]

theorem get_mapEach (f : α → β) (m : OrderedMap κ α) (k : κ) : (mapEach f m).get k = (m.get k).map f := by
  rw [mapEach, get_map_from f k empty m.distinct, get_empty, Option.or_none]
  rfl

end AgentPassport.OrderedMap
