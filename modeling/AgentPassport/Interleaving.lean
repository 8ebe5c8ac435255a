import Mathlib.Algebra.Order.BigOperators.Group.Finset
import Mathlib.Data.Fintype.BigOperators

/-! Finitely many processes over one shared memory, each a program counter that moves by
atomic steps. Nothing here depends on what the memory or the counters are. -/
namespace AgentPassport.Interleaving

variable {ι S P : Type*} [DecidableEq ι]

structure World (ι S P : Type*) where
  shared : S
  pc : ι → P

/-- Process `i` moves to `p` and leaves the memory as `s`. -/
def World.move (w : World ι S P) (i : ι) (p : P) (s : S) : World ι S P :=
  ⟨s, Function.update w.pc i p⟩

@[simp] theorem World.move_shared (w : World ι S P) (i : ι) (p : P) (s : S) :
    (w.move i p s).shared = s := rfl

@[simp] theorem World.move_pc_self (w : World ι S P) (i : ι) (p : P) (s : S) :
    (w.move i p s).pc i = p := by
  unfold World.move
  exact Function.update_self ..

theorem World.move_pc_ne (w : World ι S P) {i j : ι} (h : j ≠ i) (p : P) (s : S) :
    (w.move i p s).pc j = w.pc j := by
  unfold World.move
  exact Function.update_of_ne h ..

/-- `next i s p` is the one atomic step process `i` can take at `p`, if it has one. -/
inductive Step (next : ι → S → P → Option (P × S)) : World ι S P → World ι S P → Prop
  | move (w : World ι S P) (i : ι) (p : P) (s : S)
      (h : next i w.shared (w.pc i) = some (p, s)) : Step next w (w.move i p s)

/-- Any number of steps, in any order of the processes. -/
def Reachable (next : ι → S → P → Option (P × S)) : World ι S P → World ι S P → Prop :=
  Relation.ReflTransGen (Step next)

theorem Reachable.invariant {next : ι → S → P → Option (P × S)} {w₀ w : World ι S P}
    (h : Reachable next w₀ w) (Inv : World ι S P → Prop) (h₀ : Inv w₀)
    (hstep : ∀ w i p s, Inv w → next i w.shared (w.pc i) = some (p, s) → Inv (w.move i p s)) :
    Inv w := by
  induction h with
  | refl => exact h₀
  | tail _ hs ih =>
    cases hs with
    | move i p s hnext => exact hstep _ i p s ih hnext

/-- The sum over all processes of what each holds at its own counter. -/
def total [Fintype ι] (f : ι → P → Nat) (w : World ι S P) : Nat := ∑ i, f i (w.pc i)

theorem total_move [Fintype ι] (f : ι → P → Nat) (w : World ι S P) (i : ι) (p : P) (s : S) :
    total f (w.move i p s) + f i (w.pc i) = total f w + f i p := by
  unfold total
  rw [← Finset.add_sum_erase _ _ (Finset.mem_univ i),
    ← Finset.add_sum_erase _ (fun j => f j (w.pc j)) (Finset.mem_univ i)]
  have hrest : ∑ j ∈ Finset.univ.erase i, f j ((w.move i p s).pc j) =
      ∑ j ∈ Finset.univ.erase i, f j (w.pc j) := by
    refine Finset.sum_congr rfl ?_
    intro j hj
    rw [w.move_pc_ne (Finset.ne_of_mem_erase hj)]
  rw [hrest, w.move_pc_self]
  omega

omit [DecidableEq ι] in
theorem le_total [Fintype ι] (f : ι → P → Nat) (w : World ι S P) (i : ι) :
    f i (w.pc i) ≤ total f w :=
  Finset.single_le_sum (f := fun j => f j (w.pc j)) (fun _ _ => Nat.zero_le _) (Finset.mem_univ i)

/-- The world after the processes have moved in the given order; a process that has no step
left is passed over. -/
def runSchedule (next : ι → S → P → Option (P × S)) : List ι → World ι S P → World ι S P
  | [], w => w
  | i :: rest, w =>
    match next i w.shared (w.pc i) with
    | none => runSchedule next rest w
    | some (p, s) => runSchedule next rest (w.move i p s)

theorem reachable_runSchedule (next : ι → S → P → Option (P × S)) (order : List ι)
    (w : World ι S P) : Reachable next w (runSchedule next order w) := by
  induction order generalizing w with
  | nil => exact .refl
  | cons i rest ih =>
    rw [runSchedule]
    split
    · exact ih w
    · rename_i p s h
      exact .head (.move w i p s h) (ih _)

/-- A process that runs by itself for at most `fuel` steps, until it has no step left. -/
def runAlone (next : S → P → Option (P × S)) : Nat → P → S → P × S
  | 0, p, s => (p, s)
  | fuel+1, p, s =>
    match next s p with
    | none => (p, s)
    | some (p', s') => runAlone next fuel p' s'

theorem runAlone_step {next : S → P → Option (P × S)} {p p' : P} {s s' : S}
    (h : next s p = some (p', s')) (n : Nat) :
    runAlone next (n + 1) p s = runAlone next n p' s' := by
  rw [runAlone, h]

theorem runAlone_stop {next : S → P → Option (P × S)} {p : P} {s : S}
    (h : next s p = none) (n : Nat) : runAlone next n p s = (p, s) := by
  cases n with
  | zero => rfl
  | succ n => rw [runAlone, h]

end AgentPassport.Interleaving
