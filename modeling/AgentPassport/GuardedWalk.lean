import Mathlib.Data.List.Nodup
import Mathlib.Data.List.Perm.Subperm

/-! Walks along a partial successor function, and the walk that stops where a label comes again: it always ends, and it
stops for a label exactly where the walk meets one twice. -/
namespace AgentPassport.GuardedWalk
variable {α κ ρ : Type} (next : α → Option α) (label : α → κ) (exit : α → Option ρ)

/-- The place after so many steps, when the walk gets that far. -/
def walkAt (start : α) : Nat → Option α
  | 0 => some start
  | n + 1 => (walkAt start n).bind next

inductive Verdict (ρ : Type) where
  | ok (r : ρ)
  | circular
  | unresolved
  deriving DecidableEq

/-- The walk until an exit, a label met before, or a place with no successor; `none` is out of fuel. -/
def walk [DecidableEq κ] : Nat → List κ → α → Option (Verdict ρ)
  | 0, _, _ => none
  | fuel + 1, visited, current =>
    match exit current with
    | some r => some (.ok r)
    | none =>
      if label current ∈ visited then some .circular
      else
        match next current with
        | none => some .unresolved
        | some following => walk fuel (label current :: visited) following

/-- The walk meets a place without an exit whose label it has met before. -/
def Revisits (start : α) : Prop :=
  ∃ i j a b, i < j ∧ walkAt next start i = some a ∧ walkAt next start j = some b ∧ exit b = none ∧ label a = label b

/-- The labels met in the first `n` places are different. -/
def Fresh (start : α) (n : Nat) : Prop :=
  ∀ i j a b, i < j → j < n → walkAt next start i = some a → walkAt next start j = some b → label a ≠ label b

/-- How a walk ends. -/
inductive Ends (start : α) : Verdict ρ → Prop
  | ok (n : Nat) (a : α) (r : ρ) (hat : walkAt next start n = some a) (hexit : exit a = some r)
      (hfresh : Fresh next label start n) : Ends start (.ok r)
  | circular (h : Revisits next label exit start) : Ends start .circular
  | unresolved (n : Nat) (a : α) (hat : walkAt next start n = some a) (hexit : exit a = none)
      (hstop : next a = none) (hfresh : Fresh next label start (n + 1)) : Ends start .unresolved

variable {next label exit} {start : α}

theorem walkAt_succ {n : Nat} {a : α} (h : walkAt next start n = some a) : walkAt next start (n + 1) = next a := by
  rw [walkAt, h, Option.bind_some]

theorem walkAt_isSome_of_le {m n : Nat} (hle : m ≤ n) (h : (walkAt next start n).isSome = true) :
    (walkAt next start m).isSome = true := by
  induction n with
  | zero => rwa [Nat.le_zero.mp hle]
  | succ n ih =>
    obtain hlt | rfl := Nat.lt_or_eq_of_le hle
    · refine ih (Nat.lt_succ_iff.mp hlt) ?_
      cases hn : walkAt next start n with
      | none =>
        rw [walkAt, hn] at h
        cases h
      | some a => rfl
    · exact h

theorem walkAt_add {m n : Nat} (h : walkAt next start m = walkAt next start n) (k : Nat) :
    walkAt next start (m + k) = walkAt next start (n + k) := by
  induction k with
  | zero => exact h
  | succ k ih => exact congrArg (Option.bind · next) ih

theorem walkAt_isSome_of_loop {i j : Nat} (hlt : i < j) (hloop : walkAt next start i = walkAt next start j)
    (hj : (walkAt next start j).isSome = true) (n : Nat) : (walkAt next start n).isSome = true := by
  induction n using Nat.strongRecOn with
  | ind n ih =>
    by_cases hle : n ≤ j
    · exact walkAt_isSome_of_le hle hj
    · have hback := walkAt_add hloop (n - j)
      rw [Nat.add_sub_cancel' (by omega : j ≤ n)] at hback
      rw [← hback]
      exact ih _ (by omega)

theorem Fresh.extend {n : Nat} (h : Fresh next label start n) {a : α} (ha : walkAt next start n = some a)
    (hnew : ∀ i < n, ∀ b, walkAt next start i = some b → label b ≠ label a) : Fresh next label start (n + 1) := by
  intro i j b c hij hj hb hc
  obtain hlt | rfl := Nat.lt_succ_iff_lt_or_eq.mp hj
  · exact h i j b c hij hlt hb hc
  · obtain rfl : c = a := Option.some.inj (hc.symm.trans ha)
    exact hnew i hij b hb

/-- The labels visited are those of the places before the current one. -/
def Visits (next : α → Option α) (label : α → κ) (start : α) (n : Nat) (visited : List κ) : Prop :=
  ∀ k, k ∈ visited ↔ ∃ i < n, ∃ a, walkAt next start i = some a ∧ label a = k

theorem Visits.extend {n : Nat} {visited : List κ} (h : Visits next label start n visited) {a : α}
    (ha : walkAt next start n = some a) : Visits next label start (n + 1) (label a :: visited) := by
  intro k
  rw [List.mem_cons, h k]
  constructor
  · rintro (rfl | ⟨i, hi, b, hb, hk⟩)
    · exact ⟨n, Nat.lt_succ_self n, a, ha, rfl⟩
    · exact ⟨i, Nat.lt_succ_of_lt hi, b, hb, hk⟩
  · rintro ⟨i, hi, b, hb, hk⟩
    obtain hlt | rfl := Nat.lt_succ_iff_lt_or_eq.mp hi
    · exact .inr ⟨i, hlt, b, hb, hk⟩
    · obtain rfl : b = a := Option.some.inj (hb.symm.trans ha)
      exact .inl hk.symm

section
variable [DecidableEq κ]

theorem walk_ends_from {fuel n : Nat} {visited : List κ} {current : α} {v : Verdict ρ}
    (hat : walkAt next start n = some current) (hvisits : Visits next label start n visited)
    (hfresh : Fresh next label start n) (h : walk next label exit fuel visited current = some v) :
    Ends next label exit start v := by
  induction fuel generalizing n visited current with
  | zero => cases h
  | succ fuel ih =>
    rw [walk] at h
    split at h
    · rename_i r hexit
      cases Option.some.inj h
      exact .ok n current r hat hexit hfresh
    rename_i hexit
    by_cases hmem : label current ∈ visited
    · rw [if_pos hmem] at h
      cases Option.some.inj h
      obtain ⟨i, hi, a, ha, hlabel⟩ := (hvisits _).mp hmem
      exact .circular ⟨i, n, a, current, hi, ha, hat, hexit, hlabel⟩
    · have hfresh' := hfresh.extend hat
        (fun i hi b hb hlabel => hmem ((hvisits _).mpr ⟨i, hi, b, hb, hlabel⟩))
      rw [if_neg hmem] at h
      split at h
      · rename_i hstop
        cases Option.some.inj h
        exact .unresolved n current hat hexit hstop hfresh'
      · rename_i following hnext
        exact ih ((walkAt_succ hat).trans hnext) (hvisits.extend hat) hfresh' h

theorem walk_ends {fuel : Nat} {v : Verdict ρ} (h : walk next label exit fuel [] start = some v) :
    Ends next label exit start v :=
  walk_ends_from (n := 0) rfl
    (fun _ => ⟨fun hk => absurd hk List.not_mem_nil, fun ⟨_, hi, _⟩ => absurd hi (Nat.not_lt_zero _)⟩)
    (fun _ _ _ _ _ hj => absurd hj (Nat.not_lt_zero _)) h

theorem walk_returns {pool : List α} (hpool : ∀ a ∈ pool, ∀ b, next a = some b → b ∈ pool) {visited : List κ}
    {current : α} (hcurrent : current ∈ pool) (hnodup : visited.Nodup) (hvisited : visited ⊆ pool.map label) :
    ∃ v : Verdict ρ, ∀ fuel, pool.length < fuel + visited.length →
      walk next label exit fuel visited current = some v := by
  have hlength : ∀ {seen : List κ}, seen.Nodup → seen ⊆ pool.map label → seen.length ≤ pool.length :=
    fun hn hs => List.length_map label ▸ (List.subperm_of_subset hn hs).length_le
  obtain ⟨left, hleft⟩ : ∃ left, pool.length < left + visited.length := ⟨pool.length + 1, by omega⟩
  induction left generalizing visited current with
  | zero =>
    have hle := hlength hnodup hvisited
    omega
  | succ left ih =>
    have hreturns : ∀ v : Verdict ρ, (∀ fuel, pool.length < fuel + 1 + visited.length →
        walk next label exit (fuel + 1) visited current = some v) →
        ∃ v : Verdict ρ, ∀ fuel, pool.length < fuel + visited.length →
          walk next label exit fuel visited current = some v := by
      refine fun v h => ⟨v, fun fuel hfuel => ?_⟩
      have hle := hlength hnodup hvisited
      obtain ⟨m, rfl⟩ : ∃ m, fuel = m + 1 := ⟨fuel - 1, by omega⟩
      exact h m hfuel
    cases hexit : exit current with
    | some r =>
      refine hreturns (.ok r) (fun fuel _ => ?_)
      rw [walk, hexit]
    | none =>
      by_cases hmem : label current ∈ visited
      · refine hreturns .circular (fun fuel _ => ?_)
        rw [walk, hexit]
        exact if_pos hmem
      cases hnext : next current with
      | none =>
        refine hreturns .unresolved (fun fuel _ => ?_)
        rw [walk, hexit, hnext]
        exact if_neg hmem
      | some following =>
        obtain ⟨v, hv⟩ := @ih (label current :: visited) following (hpool current hcurrent following hnext)
          (List.nodup_cons.mpr ⟨hmem, hnodup⟩)
          (List.cons_subset.mpr ⟨List.mem_map_of_mem hcurrent, hvisited⟩) (by rw [List.length_cons]; omega)
        refine hreturns v (fun fuel hfuel => ?_)
        rw [walk, hexit, hnext]
        exact (if_neg hmem).trans (hv fuel (by rw [List.length_cons]; omega))

end

theorem lt_of_stop {n j : Nat} {b : α} (hstop : walkAt next start (n + 1) = none)
    (hb : walkAt next start j = some b) : j < n + 1 := by
  by_contra hle
  have hsome := walkAt_isSome_of_le (Nat.le_of_not_lt hle) (Option.isSome_iff_exists.mpr ⟨b, hb⟩)
  rw [hstop] at hsome
  cases hsome

theorem Ends.circular_iff {v : Verdict ρ} (hstop : ∀ a r, exit a = some r → next a = none)
    (h : Ends next label exit start v) : v = .circular ↔ Revisits next label exit start := by
  cases h with
  | ok n a r hat hexit hfresh =>
    refine ⟨nofun, fun ⟨i, j, b, c, hlt, hb, hc, hnone, hlabel⟩ => ?_⟩
    have hj := lt_of_stop ((walkAt_succ hat).trans (hstop a r hexit)) hc
    obtain hj | rfl := Nat.lt_succ_iff_lt_or_eq.mp hj
    · exact absurd hlabel (hfresh i j b c hlt hj hb hc)
    · obtain rfl : c = a := Option.some.inj (hc.symm.trans hat)
      rw [hnone] at hexit
      cases hexit
  | circular h => exact ⟨fun _ => h, fun _ => rfl⟩
  | unresolved n a hat hexit hnone hfresh =>
    refine ⟨nofun, fun ⟨i, j, b, c, hlt, hb, hc, _, hlabel⟩ => ?_⟩
    exact absurd hlabel (hfresh i j b c hlt (lt_of_stop ((walkAt_succ hat).trans hnone) hc) hb hc)

theorem Ends.finite {v : Verdict ρ} (hstop : ∀ a r, exit a = some r → next a = none)
    (h : Ends next label exit start v) (hne : v ≠ .circular) : ∃ n, walkAt next start n = none := by
  cases h with
  | ok n a r hat hexit _ => exact ⟨n + 1, (walkAt_succ hat).trans (hstop a r hexit)⟩
  | circular _ => exact absurd rfl hne
  | unresolved n a hat _ hnone _ => exact ⟨n + 1, (walkAt_succ hat).trans hnone⟩

theorem revisits_iff_infinite {v : Verdict ρ} (hstop : ∀ a r, exit a = some r → next a = none)
    (h : Ends next label exit start v)
    (hlabel : ∀ i j a b, walkAt next start i = some a → walkAt next start j = some b → label a = label b → a = b) :
    Revisits next label exit start ↔ ∀ n, (walkAt next start n).isSome = true := by
  constructor
  · rintro ⟨i, j, a, b, hlt, ha, hb, _, heq⟩
    obtain rfl := hlabel i j a b ha hb heq
    exact walkAt_isSome_of_loop hlt (ha.trans hb.symm) (hb ▸ rfl)
  · intro hall
    by_contra hno
    obtain ⟨n, hn⟩ := h.finite hstop (fun heq => hno ((h.circular_iff hstop).mp heq))
    exact absurd (hall n) (hn ▸ Bool.false_ne_true)

end AgentPassport.GuardedWalk
