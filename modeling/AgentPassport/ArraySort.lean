import Mathlib.Data.List.Sort

/-! `Array.prototype.sort` with a comparator: any order where the comparator contradicts itself, else ascending with
ties as they stood. -/
namespace AgentPassport.ArraySort
variable {α : Type} (cmp : α → α → Ordering)

/-- The comparator orders the elements of a list. -/
structure Consistent (l : List α) : Prop where
  refl : ∀ a ∈ l, cmp a a = .eq
  swap : ∀ a ∈ l, ∀ b ∈ l, cmp b a = (cmp a b).swap
  lt_trans : ∀ a ∈ l, ∀ b ∈ l, ∀ c ∈ l, cmp a b = .lt → cmp b c = .lt → cmp a c = .lt
  eq_trans : ∀ a ∈ l, ∀ b ∈ l, ∀ c ∈ l, cmp a b = .eq → cmp b c = .eq → cmp a c = .eq

/-- What sorting a list may leave. -/
structure Sorts (l sorted : List α) : Prop where
  perm : sorted.Perm l
  ordered : Consistent cmp l → sorted.Pairwise (fun a b => cmp a b ≠ .gt)
  stable : Consistent cmp l → ∀ a ∈ l, sorted.filter (cmp a · = .eq) = l.filter (cmp a · = .eq)

variable {cmp} {l sorted : List α}

theorem Consistent.of_perm {l' : List α} (h : Consistent cmp l) (hperm : l.Perm l') : Consistent cmp l' where
  refl a ha := h.refl a (hperm.mem_iff.mpr ha)
  swap a ha b hb := h.swap a (hperm.mem_iff.mpr ha) b (hperm.mem_iff.mpr hb)
  lt_trans a ha b hb c hc := h.lt_trans a (hperm.mem_iff.mpr ha) b (hperm.mem_iff.mpr hb) c (hperm.mem_iff.mpr hc)
  eq_trans a ha b hb c hc := h.eq_trans a (hperm.mem_iff.mpr ha) b (hperm.mem_iff.mpr hb) c (hperm.mem_iff.mpr hc)

section
variable (h : Consistent cmp l) {a b c : α} (ha : a ∈ l) (hb : b ∈ l) (hc : c ∈ l)
include h ha hb

theorem Consistent.eq_symm (hab : cmp a b = .eq) : cmp b a = .eq := by
  rw [h.swap a ha b hb, hab]
  rfl

theorem Consistent.gt_of_lt (hab : cmp a b = .lt) : cmp b a = .gt := by
  rw [h.swap a ha b hb, hab]
  rfl

theorem Consistent.lt_of_gt (hab : cmp a b = .gt) : cmp b a = .lt := by
  rw [h.swap a ha b hb, hab]
  rfl

include hc

theorem Consistent.lt_of_lt_of_eq (hab : cmp a b = .lt) (hbc : cmp b c = .eq) : cmp a c = .lt := by
  cases hac : cmp a c with
  | lt => rfl
  | eq =>
    have htie := h.eq_trans a ha c hc b hb hac (h.eq_symm hb hc hbc)
    rw [hab] at htie
    exact absurd htie (by decide)
  | gt =>
    have hless := h.lt_trans c hc a ha b hb (h.lt_of_gt ha hc hac) hab
    rw [h.eq_symm hb hc hbc] at hless
    exact absurd hless (by decide)

theorem Consistent.lt_of_eq_of_lt (hab : cmp a b = .eq) (hbc : cmp b c = .lt) : cmp a c = .lt := by
  have hless := h.swap c hc a ha
  have hgt : cmp c b = .gt := h.gt_of_lt hb hc hbc
  cases hac : cmp a c with
  | lt => rfl
  | eq =>
    have htie := h.eq_trans b hb a ha c hc (h.eq_symm ha hb hab) hac
    rw [hbc] at htie
    exact absurd htie (by decide)
  | gt =>
    have hback := h.lt_of_lt_of_eq hc ha hb (h.lt_of_gt ha hc hac) hab
    rw [hgt] at hback
    exact absurd hback (by decide)

theorem Consistent.not_gt_trans (hab : cmp a b ≠ .gt) (hbc : cmp b c ≠ .gt) : cmp a c ≠ .gt := by
  cases hx : cmp a b with
  | gt => exact absurd hx hab
  | lt =>
    cases hy : cmp b c with
    | gt => exact absurd hy hbc
    | lt => rw [h.lt_trans a ha b hb c hc hx hy]; decide
    | eq => rw [h.lt_of_lt_of_eq ha hb hc hx hy]; decide
  | eq =>
    cases hy : cmp b c with
    | gt => exact absurd hy hbc
    | lt => rw [h.lt_of_eq_of_lt ha hb hc hx hy]; decide
    | eq => rw [h.eq_trans a ha b hb c hc hx hy]; decide

end

theorem pairwise_insertionSort (h : Consistent cmp l) :
    (l.insertionSort (fun a b => cmp a b ≠ .gt)).Pairwise (fun a b => cmp a b ≠ .gt) := by
  let r (a b : {x // x ∈ l}) : Prop := cmp a.1 b.1 ≠ .gt
  have htotal : Std.Total r := by
    refine ⟨fun a b => ?_⟩
    by_cases hab : cmp a.1 b.1 = .gt
    · refine .inr (fun hba => ?_)
      rw [h.lt_of_gt a.2 b.2 hab] at hba
      exact absurd hba (by decide)
    · exact .inl hab
  have htrans : IsTrans _ r := ⟨fun a b c => h.not_gt_trans a.2 b.2 c.2⟩
  have hmap : (l.attach.insertionSort r).map Subtype.val = l.insertionSort (fun a b => cmp a b ≠ .gt) := by
    rw [List.map_insertionSort r (fun a b => cmp a b ≠ .gt) Subtype.val _ (fun _ _ _ _ => Iff.rfl),
      List.attach_map_subtype_val]
  rw [← hmap, List.pairwise_map]
  exact List.pairwise_insertionSort r l.attach

theorem exists_sorts (cmp : α → α → Ordering) (l : List α) : ∃ sorted, Sorts cmp l sorted := by
  refine ⟨l.insertionSort (fun a b => cmp a b ≠ .gt), List.perm_insertionSort _ l, pairwise_insertionSort,
    fun h a ha => ?_⟩
  have hperm := List.perm_insertionSort (fun a b => cmp a b ≠ .gt) l
  have hties : (l.filter (cmp a · = .eq)).Pairwise (fun a b => cmp a b ≠ .gt) := by
    refine List.pairwise_of_forall_mem_list (fun b hb c hc => ?_)
    obtain ⟨hbl, hab⟩ := List.mem_filter.mp hb
    obtain ⟨hcl, hac⟩ := List.mem_filter.mp hc
    rw [h.eq_trans b hbl a ha c hcl (h.eq_symm ha hbl (of_decide_eq_true hab)) (of_decide_eq_true hac)]
    decide
  have hkept := List.sublist_insertionSort (r := fun a b => cmp a b ≠ .gt) hties List.filter_sublist
  have hsub := hkept.filter (cmp a · = .eq)
  rw [List.filter_filter] at hsub
  simp only [Bool.and_self] at hsub
  exact (hsub.eq_of_length (hperm.filter _).length_eq.symm).symm

end AgentPassport.ArraySort
