import Mathlib.Logic.Relation

/-! Relations in which every element has at most one predecessor and at most one successor: a
connected component is a single chain, so it has at most one end. -/
namespace AgentPassport.LinkedVersions
open Relation
variable {α : Type*} {r : α → α → Prop}

/-- At most one successor and at most one predecessor. -/
structure Linear (r : α → α → Prop) : Prop where
  next : ∀ a b c, r a b → r a c → b = c
  prev : ∀ a b c, r a c → r b c → a = b

/-- On one chain: one of the two reaches the other. -/
def Comparable (r : α → α → Prop) (a b : α) : Prop := ReflTransGen r a b ∨ ReflTransGen r b a

theorem Comparable.symm {a b : α} (h : Comparable r a b) : Comparable r b a := Or.symm h

theorem Comparable.trans (hr : Linear r) {a b c : α} (hab : Comparable r a b) (hbc : Comparable r b c) :
    Comparable r a c := by
  have hnext : Relator.RightUnique r := fun a b c => hr.next a b c
  have hprev : Relator.RightUnique (Function.swap r) := fun a b c => hr.prev b c a
  obtain hab | hba := hab
  · obtain hbc | hcb := hbc
    · exact .inl (hab.trans hbc)
    · obtain h | h := ReflTransGen.total_of_right_unique hprev (reflTransGen_swap.mpr hab) (reflTransGen_swap.mpr hcb)
      · exact .inr (reflTransGen_swap.mp h)
      · exact .inl (reflTransGen_swap.mp h)
  · obtain hbc | hcb := hbc
    · exact ReflTransGen.total_of_right_unique hnext hba hbc
    · exact .inr (hcb.trans hba)

theorem comparable_of_connected (hr : Linear r) {a b : α} (h : EqvGen r a b) : Comparable r a b := by
  induction h with
  | rel a b h => exact .inl (.single h)
  | refl a => exact .inl .refl
  | symm a b _ ih => exact ih.symm
  | trans a b c _ _ hab hbc => exact hab.trans hr hbc

theorem reaches_of_last (hr : Linear r) {a b : α} (ha : ∀ c, ¬ r c a) (h : EqvGen r a b) :
    ReflTransGen r a b := by
  obtain h | h := comparable_of_connected hr h
  · exact h
  · obtain rfl | ⟨c, -, hc⟩ := ReflTransGen.cases_tail_iff r b a |>.mp h
    · exact .refl
    · exact absurd hc (ha c)

theorem last_unique (hr : Linear r) {a b : α} (ha : ∀ c, ¬ r c a) (hb : ∀ c, ¬ r c b) (h : EqvGen r a b) :
    a = b := by
  obtain rfl | ⟨c, -, hc⟩ := ReflTransGen.cases_tail_iff r a b |>.mp (reaches_of_last hr ha h)
  · rfl
  · exact absurd hc (hb c)

end AgentPassport.LinkedVersions
