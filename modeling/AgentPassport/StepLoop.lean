import Mathlib.Data.Nat.Init

/-! A loop that turns a state until it returns or throws. The turns are counted down; what is
said of enough turns is said of the loop. -/
namespace AgentPassport.StepLoop
variable {σ ε ρ : Type*} (turn : σ → Except ε (σ ⊕ ρ))

/-- `none` when the turns run out. -/
def loop : Nat → σ → Option (Except ε ρ)
  | 0, _ => none
  | fuel + 1, s =>
    match turn s with
    | .error e => some (.error e)
    | .ok (.inr result) => some (.ok result)
    | .ok (.inl s) => loop fuel s

/-- Going on from what a turn came to. -/
def resume (fuel : Nat) : Except ε σ → Option (Except ε ρ)
  | .error e => some (.error e)
  | .ok s => loop turn fuel s

/-- The loop goes from here to the state. -/
def Arrives (r : Except ε σ) (s : σ) : Prop := ∃ turns, ∀ fuel, resume turn (turns + fuel) r = loop turn fuel s

def Throws (r : Except ε σ) (e : ε) : Prop := ∃ turns, ∀ fuel, resume turn (turns + fuel) r = some (.error e)

/-- The loop throws from here if the condition holds, and goes to the state if it does not. -/
def Settles (r : Except ε σ) (bad : Prop) (e : ε) (s : σ) : Prop :=
  (bad → Throws turn r e) ∧ (¬ bad → Arrives turn r s)

section
variable {turn} {r : Except ε σ} {s s' : σ} {e : ε} {bad bad' : Prop}

theorem Settles.here (h : ¬ bad) : Settles turn (.ok s) bad e s :=
  ⟨fun hbad => absurd hbad h, fun _ => ⟨0, fun fuel => by rw [Nat.zero_add]; rfl⟩⟩

theorem Settles.thrown (h : bad) : Settles turn (.error e) bad e s :=
  ⟨fun _ => ⟨0, fun _ => rfl⟩, fun hnot => absurd h hnot⟩

theorem Settles.of_iff (h : Settles turn r bad e s) (hiff : bad ↔ bad') : Settles turn r bad' e s :=
  ⟨fun hbad => h.1 (hiff.mpr hbad), fun hnot => h.2 (fun hbad => hnot (hiff.mp hbad))⟩

theorem Arrives.throws (h : Arrives turn r s) (hs : Throws turn (.ok s) e) : Throws turn r e := by
  obtain ⟨m, hm⟩ := h
  obtain ⟨n, hn⟩ := hs
  refine ⟨m + n, ?_⟩
  intro fuel
  rw [Nat.add_assoc, hm]
  exact hn fuel

theorem Arrives.trans (h : Arrives turn r s) (hs : Arrives turn (.ok s) s') : Arrives turn r s' := by
  obtain ⟨m, hm⟩ := h
  obtain ⟨n, hn⟩ := hs
  refine ⟨m + n, ?_⟩
  intro fuel
  rw [Nat.add_assoc, hm]
  exact hn fuel

theorem Settles.trans (h : Settles turn r bad e s) (hs : Settles turn (.ok s) bad' e s') :
    Settles turn r (bad ∨ bad') e s' := by
  constructor
  · intro hbad
    by_cases hfirst : bad
    · exact h.1 hfirst
    · exact (h.2 hfirst).throws (hs.1 (hbad.resolve_left hfirst))
  · intro hnot
    rw [not_or] at hnot
    exact (h.2 hnot.1).trans (hs.2 hnot.2)

theorem Settles.turned (hturn : turn s = r.map .inl) (h : Settles turn r bad e s') :
    Settles turn (.ok s) bad e s' := by
  have hstep : ∀ turns fuel, resume turn (turns + 1 + fuel) (.ok s) = resume turn (turns + fuel) r := by
    intro turns fuel
    rw [show turns + 1 + fuel = turns + fuel + 1 by omega]
    cases r with
    | error e => simp [resume, loop, hturn, Except.map]
    | ok s => simp [resume, loop, hturn, Except.map]
  constructor
  · intro hbad
    obtain ⟨turns, h⟩ := h.1 hbad
    exact ⟨turns + 1, fun fuel => (hstep turns fuel).trans (h fuel)⟩
  · intro hnot
    obtain ⟨turns, h⟩ := h.2 hnot
    exact ⟨turns + 1, fun fuel => (hstep turns fuel).trans (h fuel)⟩

theorem Settles.moved {next : σ} (hturn : turn s = .ok (.inl next)) (h : Settles turn (.ok next) bad e s') :
    Settles turn (.ok s) bad e s' :=
  .turned (r := .ok next) hturn h

theorem Settles.ends (h : Settles turn (.ok s) bad e s') {result : ρ} (hend : turn s' = .ok (.inr result)) :
    ∃ turns, ∀ fuel, turns ≤ fuel →
      (bad → loop turn fuel s = some (.error e)) ∧ (¬ bad → loop turn fuel s = some (.ok result)) := by
  by_cases hbad : bad
  · obtain ⟨turns, h⟩ := h.1 hbad
    refine ⟨turns, ?_⟩
    intro fuel hfuel
    refine ⟨fun _ => ?_, fun hnot => absurd hbad hnot⟩
    rw [← Nat.add_sub_cancel' hfuel]
    exact h _
  · obtain ⟨turns, h⟩ := h.2 hbad
    refine ⟨turns + 1, ?_⟩
    intro fuel hfuel
    refine ⟨fun hbad' => absurd hbad' hbad, fun _ => ?_⟩
    have harrive : loop turn (turns + (fuel - turns - 1 + 1)) s = loop turn (fuel - turns - 1 + 1) s' :=
      h (fuel - turns - 1 + 1)
    rw [show fuel = turns + (fuel - turns - 1 + 1) by omega, harrive, loop, hend]

end

/-- A loop whose turns keep an invariant and lower a measure returns. -/
theorem loop_returns {turn : σ → Except ε (σ ⊕ ρ)} (Inv : σ → Prop) (Post : ρ → Prop) (measure : σ → Nat)
    (hturn : ∀ s, Inv s → (∃ next, turn s = .ok (.inl next) ∧ Inv next ∧ measure next < measure s) ∨
      ∃ result, turn s = .ok (.inr result) ∧ Post result) {s : σ} (hs : Inv s) :
    ∃ result, Post result ∧ ∀ fuel, measure s < fuel → loop turn fuel s = some (.ok result) := by
  induction hm : measure s using Nat.strong_induction_on generalizing s with
  | h m ih =>
    obtain ⟨next, hnext, hinv, hlt⟩ | ⟨result, hresult, hpost⟩ := hturn s hs
    · obtain ⟨result, hpost, hloop⟩ := ih (measure next) (hm ▸ hlt) hinv rfl
      refine ⟨result, hpost, ?_⟩
      intro fuel hfuel
      obtain ⟨n, rfl⟩ : ∃ n, fuel = n + 1 := ⟨fuel - 1, by omega⟩
      rw [loop, hnext]
      exact hloop n (by omega)
    · refine ⟨result, hpost, ?_⟩
      intro fuel hfuel
      obtain ⟨n, rfl⟩ : ∃ n, fuel = n + 1 := ⟨fuel - 1, by omega⟩
      rw [loop, hresult]

end AgentPassport.StepLoop
