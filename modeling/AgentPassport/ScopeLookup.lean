import AgentPassport.DelegationScope

/-! The set lookups of scope grants are the pairwise cover relation: what covers a grant is the
wildcard, the grant itself, or one of the candidates built from its leading segments. -/
namespace AgentPassport.ScopeLookup
open JsText SeparatedText DelegationScope

theorem exists_join_take (sep : UInt16) {s start : Str} (h : s = start ∨ ∃ rest, s = start ++ sep :: rest) :
    ∃ m < (splitOn sep s).length, join sep ((splitOn sep s).take (m + 1)) = start := by
  have hpos : 0 < (splitOn sep start).length := List.length_pos_of_ne_nil (splitOn_ne_nil sep start)
  refine ⟨(splitOn sep start).length - 1, ?_, ?_⟩
  · obtain rfl | ⟨rest, rfl⟩ := h
    · omega
    · rw [splitOn_append, List.length_append]
      omega
  · rw [Nat.sub_add_cancel hpos]
    obtain rfl | ⟨rest, rfl⟩ := h
    · rw [List.take_length, join_splitOn]
    · rw [splitOn_append, List.take_left, join_splitOn]

theorem covers_iff (parent child : Str) :
    scopeGrantCovers parent child = true ↔ parent = lit "*" ∨ parent = child ∨ parent ∈ candidates child := by
  constructor
  · intro h
    by_cases hwild : endsWithWild parent = true
    · rw [covers_wild_iff hwild] at h
      obtain ⟨m, hm, hjoin⟩ := exists_join_take 0x3A h
      exact .inr (.inr (List.mem_map.mpr ⟨m, List.mem_range.mpr hm, by rw [hjoin, ← wild_eq hwild]⟩))
    · by_cases hstar : parent = lit "*"
      · exact .inl hstar
      · rw [scopeGrantCovers, if_neg hstar, if_neg hwild, decide_eq_true_eq] at h
        exact .inr (.inl h)
  · intro h
    obtain rfl | rfl | hcandidate := h
    · exact covers_star child
    · exact covers_refl parent
    · exact candidate_covers hcandidate

theorem ascending_iff (grants : List Str) : ascending grants = true ↔ grants.Pairwise (· < ·) := by
  rw [← List.isChain_iff_pairwise]
  induction grants with
  | nil => exact iff_of_true rfl .nil
  | cons a rest ih =>
    cases rest with
    | nil => exact iff_of_true rfl (.singleton a)
    | cons b rest => rw [ascending, Bool.and_eq_true, decide_eq_true_eq, ih, List.isChain_cons_cons]

theorem lookups_iff (grants : List Str) (grant : Str) :
    (grant = lit "*" || (!grants.contains (lit "*") &&
      (candidates grant).all (fun candidate => candidate = grant || !grants.contains candidate))) = true ↔
      grant = lit "*" ∨ ∀ other ∈ grants, other ≠ grant → ¬ scopeGrantCovers other grant = true := by
  have hcontains : ∀ x, grants.contains x = false ↔ x ∉ grants := by
    intro x
    rw [← Bool.not_eq_true, List.contains_iff_mem]
  simp only [Bool.or_eq_true, Bool.and_eq_true, decide_eq_true_eq, Bool.not_eq_true', List.all_eq_true, hcontains]
  refine or_congr_right' (fun hgrant => ?_)
  constructor
  · intro h other hother hne hcovers
    obtain rfl | rfl | hcandidate := (covers_iff other grant).mp hcovers
    · exact h.1 hother
    · exact hne rfl
    · exact (h.2 other hcandidate).elim hne (fun hnot => hnot hother)
  · intro h
    refine ⟨fun hstar => h _ hstar (Ne.symm hgrant) (covers_star grant), ?_⟩
    intro candidate hcandidate
    by_cases heq : candidate = grant
    · exact .inl heq
    · exact .inr (fun hmem => h candidate hmem heq (candidate_covers hcandidate))

/-- A list of grants is canonical when its grants are valid and strictly ascending and none is
covered by another one of them; narrowing by lookups is narrowing by pairwise cover. -/
theorem lookups_are_pairwise :
    (∀ grants : List Str, grantsAreCanonical grants = true ↔
      (∀ grant ∈ grants, isValidScopeGrant grant = true) ∧ grants.Pairwise (· < ·) ∧
        ∀ grant ∈ grants, ∀ other ∈ grants, other ≠ grant → ¬ scopeGrantCovers other grant = true) ∧
    ∀ parent child : List Str, grantsAreCanonical parent = true → grantsAreCanonical child = true →
      (scopeNarrows parent child = true ↔ ∀ c ∈ child, ∃ p ∈ parent, scopeGrantCovers p c = true) := by
  constructor
  · intro grants
    rw [grantsAreCanonical, Bool.and_eq_true, Bool.and_eq_true, List.all_eq_true, ascending_iff, List.all_eq_true, and_assoc]
    refine and_congr_right (fun hvalid => and_congr_right (fun _ => forall₂_congr (fun grant _ => ?_)))
    rw [lookups_iff]
    refine or_iff_right_of_imp ?_
    -- the wildcard is covered by no other valid grant
    intro hstar other hother hne hcovers
    subst hstar
    exact hne (covers_wildcard (hvalid other hother) hcovers)
  · intro parent child _ _
    refine ⟨covered_of_narrows, ?_⟩
    intro h
    rw [scopeNarrows, Bool.or_eq_true, List.all_eq_true]
    by_cases hstar : lit "*" ∈ parent
    · exact .inl (List.contains_iff_mem.mpr hstar)
    · refine .inr ?_
      intro c hc
      obtain ⟨p, hp, hcovers⟩ := h c hc
      rw [Bool.or_eq_true, List.any_eq_true]
      obtain rfl | rfl | hcandidate := (covers_iff p c).mp hcovers
      · exact absurd hp hstar
      · exact .inl (List.contains_iff_mem.mpr hp)
      · exact .inr ⟨p, hcandidate, List.contains_iff_mem.mpr hp⟩

end AgentPassport.ScopeLookup
