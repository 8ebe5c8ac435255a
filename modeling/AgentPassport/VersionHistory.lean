import AgentPassport.VersionLineage

/-! The history of a version (`traceV2DelegationHistory`): all of its lineage up to it, oldest first. -/
namespace AgentPassport.VersionHistory
open JsText Js LinkedVersions DelegationVersions VersionLineage
open Relation (ReflTransGen)

/-- `current.supersedes ? store.get(current.supersedes) : undefined`. -/
def previous (s : DelegationStore) (current : V2Delegation) : Option V2Delegation :=
  match current.supersedes with
  | some (c :: rest) => s.get (c :: rest)
  | _ => none

/-- The loop, with the versions after `current` in `chain`; none when the fuel runs out. -/
def traceLoop (s : DelegationStore) : Nat → Option V2Delegation → List V2Delegation → Option (List V2Delegation)
  | 0, _, _ => none
  | _ + 1, none, chain => some chain
  | fuel + 1, some current, chain => traceLoop s fuel (previous s current) (current :: chain)

def traceV2DelegationHistory (s : DelegationStore) (fuel : Nat) (delegationId : Str) : Option (List V2Delegation) :=
  traceLoop s fuel (s.get delegationId) []

/-- A version and the one that took its place. -/
def Succeeded (d e : V2Delegation) : Prop :=
  e.supersedes = some d.id ∧ e.version = d.version + 1 ∧ (d.status = .superseded ∨ d.status = .revoked)

/-- Versions one after the other, from one that supersedes nothing on. -/
structure Complete (versions : List V2Delegation) : Prop where
  first : ∀ d ∈ versions.head?, d.supersedes = none
  successive : versions.IsChain Succeeded

variable {s : DelegationStore} {id : Str} {d : V2Delegation}

theorem previous_of_link (h : WellLinked s) (hkeys : s.get [] = none) {k p : Str} (hd : s.get k = some d)
    (hlink : d.supersedes = some p) : ∃ e, previous s d = some e ∧ s.get p = some e ∧ Succeeded e d := by
  obtain ⟨e, he, hversion, hstatus⟩ := h.parent k d p hd hlink
  have hid : e.id = p := h.keyed p e he
  cases p with
  | nil =>
    rw [hkeys] at he
    cases he
  | cons c rest => exact ⟨e, by rw [previous, hlink]; exact he, he, by rw [hlink, hid], hversion, hstatus⟩

theorem traceLoop_complete (h : WellLinked s) (hkeys : s.get [] = none) :
    ∀ (fuel : Nat) (k : Str) (d : V2Delegation) (chain : List V2Delegation), s.get k = some d →
      d.version + 2 ≤ fuel → ∃ front, traceLoop s fuel (some d) chain = some (front ++ d :: chain) ∧
        Complete (front ++ [d]) ∧
        ∀ e, e ∈ front ++ [d] ↔ ∃ k', s.get k' = some e ∧ ReflTransGen (Supersedes s) k k' := by
  intro fuel
  induction fuel with
  | zero => exact fun k d chain _ hfuel => absurd hfuel (by omega)
  | succ fuel ih =>
    intro k d chain hd hfuel
    cases hlink : d.supersedes with
    | none =>
      have hprevious : previous s d = none := by rw [previous, hlink]
      obtain ⟨n, rfl⟩ : ∃ n, fuel = n + 1 := ⟨fuel - 1, by omega⟩
      refine ⟨[], by rw [traceLoop, hprevious]; rfl, ⟨?_, List.isChain_singleton d⟩, ?_⟩
      · rintro _ ⟨⟩
        exact hlink
      · intro e
        rw [List.nil_append, List.mem_singleton]
        constructor
        · rintro rfl
          exact ⟨k, hd, .refl⟩
        · rintro ⟨k', he, hreaches⟩
          obtain rfl | ⟨p, ⟨d', hd', hp⟩, -⟩ := ReflTransGen.cases_head hreaches
          · exact Option.some.inj (he.symm.trans hd)
          · obtain rfl := Option.some.inj (hd.symm.trans hd')
            rw [hlink] at hp
            cases hp
    | some p =>
      obtain ⟨e, hprevious, he, hsucceeded⟩ := previous_of_link h hkeys hd hlink
      obtain ⟨front, hloop, hcomplete, hmem⟩ := ih p e (d :: chain) he (by have := hsucceeded.2.1; omega)
      refine ⟨front ++ [e], ?_, ⟨?_, ?_⟩, ?_⟩
      · rw [traceLoop, hprevious, hloop, List.append_assoc]
        rfl
      · rw [List.head?_append_of_ne_nil _ (by simp)]
        exact hcomplete.first
      · rw [List.isChain_append]
        refine ⟨hcomplete.successive, List.isChain_singleton d, ?_⟩
        intro x hx y hy
        rw [List.getLast?_append, List.getLast?_singleton] at hx
        cases hx
        cases hy
        exact hsucceeded
      · intro x
        rw [List.mem_append, hmem, List.mem_singleton]
        constructor
        · rintro (⟨k', hx, hreaches⟩ | rfl)
          · exact ⟨k', hx, .head ⟨d, hd, hlink⟩ hreaches⟩
          · exact ⟨k, hd, .refl⟩
        · rintro ⟨k', hx, hreaches⟩
          obtain rfl | ⟨q, ⟨d', hd', hq⟩, hrest⟩ := ReflTransGen.cases_head hreaches
          · exact .inr (Option.some.inj (hx.symm.trans hd))
          · obtain rfl := Option.some.inj (hd.symm.trans hd')
            obtain rfl := Option.some.inj (hlink.symm.trans hq)
            exact .inl ⟨k', hx, hrest⟩

variable {R : Runtime}

/-- In every state reached, the history of a stored version is found: versions that follow one another from one that
supersedes nothing up to this one. They are the versions its links reach, and all of its lineage where nothing
supersedes it. -/
theorem history_of_run (calls : List Call) (hids : DistinctIds calls) (hnames : [] ∉ calls.filterMap Call.uuid?)
    (hagain : NeverAgain R calls) (hd : (run R calls).get id = some d) {fuel : Nat} (hfuel : d.version + 2 ≤ fuel) :
    ∃ front, traceV2DelegationHistory (run R calls) fuel id = some (front ++ [d]) ∧ Complete (front ++ [d]) ∧
      (∀ e, e ∈ front ++ [d] ↔ ∃ k, (run R calls).get k = some e ∧ ReflTransGen (Supersedes (run R calls)) id k) ∧
      ((∀ c, ¬ Supersedes (run R calls) c id) → ∀ k e, (run R calls).get k = some e →
        SameLineage (run R calls) id k → e ∈ front ++ [d]) := by
  obtain ⟨hlinked, hkeys⟩ := run_wellLinked calls hids hagain
  have hempty : (run R calls).get [] = none := by
    by_contra hsome
    obtain ⟨e, he⟩ := Option.ne_none_iff_exists'.mp hsome
    exact hnames (hkeys [] e he)
  obtain ⟨front, hloop, hcomplete, hmem⟩ := traceLoop_complete hlinked hempty fuel id d [] hd hfuel
  refine ⟨front, by rw [traceV2DelegationHistory, hd, hloop], hcomplete, hmem, ?_⟩
  intro hlast k e he hsame
  exact (hmem e).mpr ⟨k, he, reaches_of_last hlinked.linear hlast hsame⟩

/-- The second version, revoked: the first one and itself. -/
theorem history_of_run_revoked : ∃ d front, (run sampleRuntime revokedCalls).get secondId = some d ∧
    traceV2DelegationHistory (run sampleRuntime revokedCalls) 4 secondId = some (front ++ [d]) := by
  obtain ⟨d, hd, hversion⟩ : ∃ d, (run sampleRuntime revokedCalls).get secondId = some d ∧ d.version = 2 :=
    Option.map_eq_some_iff.mp (by decide +kernel)
  have hnames : [] ∉ revokedCalls.filterMap Call.uuid? := by decide +kernel
  have hfuel : d.version + 2 ≤ 4 := by omega
  have hids : DistinctIds revokedCalls := by
    unfold DistinctIds
    decide
  have hagain : NeverAgain sampleRuntime revokedCalls := by
    unfold NeverAgain
    decide +kernel
  obtain ⟨front, htrace, -⟩ := history_of_run revokedCalls hids hnames hagain hd hfuel
  exact ⟨d, front, hd, htrace⟩

end AgentPassport.VersionHistory
