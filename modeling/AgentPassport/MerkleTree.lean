import Mathlib.Data.List.Nodup
import Mathlib.Logic.Function.Iterate

/-! Trees built level by level, where at an odd level the last node is paired with itself. Over
distinct leaves the root determines the leaves, if pairs that are formed can be told apart by
their nodes. -/
namespace AgentPassport.MerkleTree
variable {N : Type*}

/-- The pairs formed at a level. -/
def pairs : List N → List (N × N)
  | [] => []
  | [a] => [(a, a)]
  | a :: b :: rest => (a, b) :: pairs rest

variable {level : List N}

theorem fst_mem_of_pairs {p : N × N} (h : p ∈ pairs level) : p.1 ∈ level := by
  fun_induction pairs level with
  | case1 => cases h
  | case2 a =>
    rw [List.mem_singleton.mp h]
    exact List.mem_singleton_self a
  | case3 a b rest ih =>
    cases h with
    | head => exact List.mem_cons_self
    | tail _ h => exact List.mem_cons_of_mem _ (List.mem_cons_of_mem _ (ih h))

theorem pairs_nodup (h : level.Nodup) : (pairs level).Nodup := by
  fun_induction pairs level with
  | case1 => exact List.nodup_nil
  | case2 a => exact List.nodup_singleton _
  | case3 a b rest ih =>
    obtain ⟨ha, hrest⟩ := List.nodup_cons.mp h
    refine List.nodup_cons.mpr ⟨?_, ih (List.nodup_cons.mp hrest).2⟩
    intro hmem
    exact ha (List.mem_cons_of_mem b (fst_mem_of_pairs hmem))

theorem pairs_inj {level level' : List N} (hlevel : level.Nodup) (hlevel' : level'.Nodup)
    (h : pairs level = pairs level') : level = level' := by
  fun_induction pairs level generalizing level' with
  | case1 =>
    match level' with
    | [] => rfl
    | [_] => cases h
    | _ :: _ :: _ => cases h
  | case2 a =>
    match level' with
    | [] => cases h
    | [c] =>
      cases h
      rfl
    | c :: d :: rest =>
      have hfirst := (List.cons.inj h).1
      cases hfirst
      exact absurd List.mem_cons_self (List.nodup_cons.mp hlevel').1
  | case3 a b rest ih =>
    match level' with
    | [] => cases h
    | [c] =>
      have hfirst := (List.cons.inj h).1
      cases hfirst
      exact absurd List.mem_cons_self (List.nodup_cons.mp hlevel).1
    | c :: d :: rest' =>
      obtain ⟨hfirst, hrest⟩ := List.cons.inj h
      cases hfirst
      have hnodup := (List.nodup_cons.mp (List.nodup_cons.mp hlevel).2).2
      have hnodup' := (List.nodup_cons.mp (List.nodup_cons.mp hlevel').2).2
      rw [ih hnodup hnodup' hrest]

section
variable (join : N × N → N)

def up (level : List N) : List N := (pairs level).map join

/-- A level has a root so many levels above it. -/
inductive Ascends : Nat → List N → N → Prop
  | root (r : N) : Ascends 0 [r] r
  | step {n : Nat} {a b : N} {rest : List N} {r : N} (above : Ascends n (up join (a :: b :: rest)) r) :
      Ascends (n + 1) (a :: b :: rest) r

/-- The pairs formed on the way up. -/
def formed : Nat → List N → List (N × N)
  | 0, _ => []
  | n + 1, level => pairs level ++ formed n (up join level)

theorem Ascends.iterate {n : Nat} {r : N} (h : Ascends join n level r) : (up join)^[n] level = [r] := by
  induction h with
  | root r => rfl
  | step _ ih => exact ih

theorem Ascends.succ {n : Nat} {r : N} (h : Ascends join (n + 1) level r) : Ascends join n (up join level) r := by
  cases h with
  | step above => exact above

theorem pairs_formed {n k : Nat} (hk : k < n) : ∀ p ∈ pairs ((up join)^[k] level), p ∈ formed join n level := by
  induction n generalizing k level with
  | zero => cases hk
  | succ n ih =>
    intro p hp
    rw [formed, List.mem_append]
    cases k with
    | zero => exact .inl hp
    | succ k => exact .inr (ih (Nat.lt_of_succ_lt_succ hk) p hp)

/-- Pairs are told apart by the nodes they are joined to. -/
def Separates (S : N × N → Prop) : Prop := ∀ p q, S p → S q → join p = join q → p = q

variable {join} {S : N × N → Prop}

theorem Separates.up_nodup (hS : Separates join S) (h : level.Nodup) (hpairs : ∀ p ∈ pairs level, S p) :
    (up join level).Nodup := by
  apply List.Nodup.map_on _ (pairs_nodup h)
  intro p hp q hq heq
  exact hS p q (hpairs p hp) (hpairs q hq) heq

theorem Separates.map_inj (hS : Separates join S) {ps qs : List (N × N)} (hps : ∀ p ∈ ps, S p)
    (hqs : ∀ q ∈ qs, S q) (h : ps.map join = qs.map join) : ps = qs := by
  induction ps generalizing qs with
  | nil =>
    cases qs with
    | nil => rfl
    | cons q qs => cases h
  | cons p ps ih =>
    cases qs with
    | nil => cases h
    | cons q qs =>
      obtain ⟨hfirst, hrest⟩ := List.cons.inj h
      rw [hS p q (hps p List.mem_cons_self) (hqs q List.mem_cons_self) hfirst,
        ih (fun p hp => hps p (List.mem_cons_of_mem _ hp)) (fun q hq => hqs q (List.mem_cons_of_mem _ hq)) hrest]

theorem Separates.up_inj (hS : Separates join S) {level level' : List N} (hlevel : level.Nodup)
    (hlevel' : level'.Nodup) (hpairs : ∀ p ∈ pairs level, S p) (hpairs' : ∀ p ∈ pairs level', S p)
    (h : up join level = up join level') : level = level' :=
  pairs_inj hlevel hlevel' (hS.map_inj hpairs hpairs' h)

theorem Separates.iterate_nodup (hS : Separates join S) {n k : Nat} (h : level.Nodup)
    (hformed : ∀ p ∈ formed join n level, S p) (hk : k ≤ n) : ((up join)^[k] level).Nodup := by
  induction k with
  | zero => exact h
  | succ k ih =>
    rw [Function.iterate_succ_apply']
    apply hS.up_nodup (ih (Nat.le_of_succ_le hk))
    intro p hp
    exact hformed p (pairs_formed join hk p hp)

/-- Two levels of distinct nodes with one root: the one nearer to the root is a level above the
other. The induction goes down from the root, one level on both sides at a time. -/
theorem Separates.level_eq (hS : Separates join S) {n m : Nat} {level level' : List N} {r : N}
    (h : Ascends join n level r) (h' : Ascends join m level' r) (hnm : n ≤ m) (hnodup : level.Nodup)
    (hnodup' : level'.Nodup) (hformed : ∀ p ∈ formed join n level, S p)
    (hformed' : ∀ p ∈ formed join m level', S p) : level = (up join)^[m - n] level' := by
  induction n generalizing m level level' with
  | zero =>
    cases h
    exact (h'.iterate).symm
  | succ n ih =>
    obtain ⟨m, rfl⟩ : ∃ k, m = k + 1 := ⟨m - 1, by omega⟩
    have hpairs : ∀ p ∈ pairs level, S p := fun p hp => hformed p (pairs_formed join (Nat.succ_pos n) p hp)
    have hpairs' : ∀ p ∈ pairs level', S p := fun p hp => hformed' p (pairs_formed join (Nat.succ_pos m) p hp)
    have habove := ih h.succ h'.succ (Nat.le_of_succ_le_succ hnm) (hS.up_nodup hnodup hpairs)
      (hS.up_nodup hnodup' hpairs') (fun p hp => hformed p (List.mem_append_right _ hp))
      (fun p hp => hformed' p (List.mem_append_right _ hp))
    rw [← Function.iterate_succ_apply, Function.iterate_succ_apply'] at habove
    rw [Nat.add_sub_add_right]
    apply hS.up_inj hnodup (hS.iterate_nodup hnodup' hformed' (by omega)) hpairs _ habove
    intro p hp
    exact hformed' p (pairs_formed join (by omega) p hp)

end

end AgentPassport.MerkleTree
