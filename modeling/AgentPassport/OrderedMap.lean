import Mathlib.Algebra.Order.BigOperators.Group.List
import Mathlib.Algebra.Order.Group.Nat
import Mathlib.Data.List.Nodup

/-! Finite maps that keep their keys in the order of first insertion, and sums over their
values: one assignment changes a sum by the new value against the old. -/
namespace AgentPassport

/-- A map: entries whose keys are distinct. -/
structure OrderedMap (κ α : Type*) where
  entries : List (κ × α)
  distinct : (entries.map Prod.fst).Nodup

namespace OrderedMap
variable {κ α M : Type*} [DecidableEq κ]

def lookup (k : κ) : List (κ × α) → Option α
  | [] => none
  | e :: rest => if e.1 = k then some e.2 else lookup k rest

/-- Replace the value at a key in its place, or add the key at the end. -/
def assign (k : κ) (v : α) : List (κ × α) → List (κ × α)
  | [] => [(k, v)]
  | e :: rest => if e.1 = k then (k, v) :: rest else e :: assign k v rest

theorem assign_keys (k : κ) (v : α) (entries : List (κ × α)) {key : κ}
    (h : key ∈ (assign k v entries).map Prod.fst) : key = k ∨ key ∈ entries.map Prod.fst := by
  induction entries with
  | nil => exact .inl (List.mem_singleton.mp h)
  | cons e rest ih =>
    rw [assign] at h
    split at h
    · rename_i hk
      rw [List.map_cons, List.mem_cons] at h
      obtain rfl | h := h
      · exact .inl rfl
      · exact .inr (List.mem_cons_of_mem _ h)
    · rw [List.map_cons, List.mem_cons] at h
      obtain rfl | h := h
      · exact .inr List.mem_cons_self
      · obtain hk | hmem := ih h
        · exact .inl hk
        · exact .inr (List.mem_cons_of_mem _ hmem)

theorem assign_distinct (k : κ) (v : α) {entries : List (κ × α)} (h : (entries.map Prod.fst).Nodup) :
    ((assign k v entries).map Prod.fst).Nodup := by
  induction entries with
  | nil => exact List.nodup_singleton k
  | cons e rest ih =>
    obtain ⟨he, hrest⟩ := List.nodup_cons.mp h
    rw [assign]
    split
    · rename_i hk
      exact List.nodup_cons.mpr ⟨hk ▸ he, hrest⟩
    · rename_i hk
      refine List.nodup_cons.mpr ⟨?_, ih hrest⟩
      intro hmem
      obtain heq | hmem := assign_keys k v rest hmem
      · exact hk heq
      · exact he hmem

def empty : OrderedMap κ α := ⟨[], List.nodup_nil⟩

def get (m : OrderedMap κ α) (k : κ) : Option α := lookup k m.entries

def set (m : OrderedMap κ α) (k : κ) (v : α) : OrderedMap κ α :=
  ⟨assign k v m.entries, assign_distinct k v m.distinct⟩

@[simp] theorem get_empty (k : κ) : (empty : OrderedMap κ α).get k = none := rfl

theorem get_set (m : OrderedMap κ α) (k k' : κ) (v : α) :
    (m.set k v).get k' = if k = k' then some v else m.get k' := by
  obtain ⟨entries, _⟩ := m
  show lookup k' (assign k v entries) = if k = k' then some v else lookup k' entries
  induction entries with
  | nil => rfl
  | cons e rest ih =>
    have ih := ih (List.nodup_cons.mp ‹_›).2
    rw [assign]
    split
    · rename_i hk
      rw [lookup, lookup, hk]
      split
      · rfl
      · rfl
    · rename_i hk
      rw [lookup, lookup, ih]
      split
      · rename_i hk'
        rw [if_neg (fun h => hk (hk'.trans h.symm))]
      · rfl

@[simp] theorem get_set_self (m : OrderedMap κ α) (k : κ) (v : α) : (m.set k v).get k = some v := by
  rw [get_set, if_pos rfl]

theorem get_set_ne (m : OrderedMap κ α) {k k' : κ} (v : α) (h : k ≠ k') : (m.set k v).get k' = m.get k' := by
  rw [get_set, if_neg h]

theorem forall_set {p : α → Prop} {m : OrderedMap κ α} (h : ∀ k v, m.get k = some v → p v) {k : κ} {v : α}
    (hv : p v) : ∀ k' w, (m.set k v).get k' = some w → p w := by
  intro k' w hw
  rw [get_set] at hw
  split at hw
  · cases hw
    exact hv
  · exact h k' w hw

section Total
variable [AddCommMonoid M]

def total (f : α → M) (m : OrderedMap κ α) : M := (m.entries.map (fun e => f e.2)).sum

omit [DecidableEq κ] in
@[simp] theorem total_empty (f : α → M) : (empty : OrderedMap κ α).total f = 0 := rfl

/-- The quantity at a key, nothing if the key is absent. -/
def quantityAt (f : α → M) (m : OrderedMap κ α) (k : κ) : M := (m.get k).elim 0 f

theorem total_set (f : α → M) (m : OrderedMap κ α) (k : κ) (v : α) :
    (m.set k v).total f + quantityAt f m k = m.total f + f v := by
  obtain ⟨entries, _⟩ := m
  show ((assign k v entries).map (fun e => f e.2)).sum + (lookup k entries).elim 0 f =
    (entries.map (fun e => f e.2)).sum + f v
  induction entries with
  | nil => simp [assign, lookup]
  | cons e rest ih =>
    have ih := ih (List.nodup_cons.mp ‹_›).2
    rw [assign, lookup]
    split
    · rename_i hk
      simp only [List.map_cons, List.sum_cons, Option.elim_some]
      rw [add_comm (f v), add_assoc, add_comm (f v), ← add_assoc, add_comm (f e.2)]
    · simp only [List.map_cons, List.sum_cons]
      rw [add_assoc, ih, add_assoc]

end Total

theorem mem_of_lookup {k : κ} {v : α} {entries : List (κ × α)} (h : lookup k entries = some v) :
    (k, v) ∈ entries := by
  induction entries with
  | nil => cases h
  | cons e rest ih =>
    rw [lookup] at h
    split at h
    · rename_i hk
      cases h
      exact hk ▸ List.mem_cons_self
    · exact List.mem_cons_of_mem e (ih h)

theorem le_total (f : α → Nat) {m : OrderedMap κ α} {k : κ} {v : α} (h : m.get k = some v) :
    f v ≤ m.total f := by
  have hmem : f v ∈ m.entries.map (fun e => f e.2) := List.mem_map_of_mem (mem_of_lookup h)
  exact List.single_le_sum (fun _ _ => Nat.zero_le _) _ hmem

/-- Assign a new value at each of some keys, each computed from the value that is there. -/
def updateEach (g : Option α → α) (ks : List κ) (m : OrderedMap κ α) : OrderedMap κ α :=
  ks.foldl (fun m k => m.set k (g (m.get k))) m

theorem get_updateEach (g : Option α → α) {ks : List κ} (hks : ks.Nodup) (k : κ) : ∀ m : OrderedMap κ α,
    (updateEach g ks m).get k = if k ∈ ks then some (g (m.get k)) else m.get k := by
  induction ks with
  | nil =>
    intro m
    rfl
  | cons k' rest ih =>
    intro m
    obtain ⟨hk', hrest⟩ := List.nodup_cons.mp hks
    show (updateEach g rest (m.set k' (g (m.get k')))).get k = _
    rw [ih hrest, get_set]
    by_cases heq : k' = k
    · subst heq
      rw [if_neg hk', if_pos rfl, if_pos List.mem_cons_self]
    · simp only [if_neg heq, List.mem_cons, Ne.symm heq, false_or]

end OrderedMap

end AgentPassport
