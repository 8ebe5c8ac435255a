import AgentPassport.EffectLineage

/-! A block of effect states is read as a set: the status, the count of duplicates and the latest
states do not depend on the order of the states, and a block is valid exactly when the distinct
states of each effect are one chain from a root. -/
namespace AgentPassport.EffectLineage
open JsText Js CanonicalJcs Outcome

def rank (s : EffectInstantiationElement) : Int :=
  match s.sequence with
  | .finite d => d.scaled
  | _ => 0

theorem isIndex_iff {i : Nat} {n : JsNumber} :
    isIndex i n = true ↔ ∃ d, n = .finite d ∧ d.scaled = i * scaleOne := by
  cases n with
  | finite d => simp [isIndex]
  | nan => simp [isIndex]
  | infinite neg => simp [isIndex]

variable {s : EffectInstantiationElement}

theorem rank_of_index {i : Nat} (h : isIndex i s.sequence = true) : rank s = i * scaleOne := by
  obtain ⟨d, hd, hscaled⟩ := isIndex_iff.mp h
  rw [rank, hd]
  exact hscaled

theorem index_inj {i j : Nat} (hi : isIndex i s.sequence = true) (hj : isIndex j s.sequence = true) : i = j := by
  have h : (i : Int) * scaleOne = j * scaleOne := (rank_of_index hi).symm.trans (rank_of_index hj)
  exact Int.ofNat.inj (Int.eq_of_mul_eq_mul_right (Int.ne_of_gt scaleOne_pos) h)

variable {states : List EffectInstantiationElement}

theorem consecutive_iff : ∀ {i : Nat},
    consecutive i states = true ↔ ∀ j (h : j < states.length), isIndex (i + j) states[j].sequence = true := by
  induction states with
  | nil => simp [consecutive]
  | cons s rest ih =>
    intro i
    rw [consecutive, Bool.and_eq_true, ih]
    constructor
    · intro h j hj
      cases j with
      | zero => exact h.1
      | succ j =>
        have hj' := h.2 j (Nat.lt_of_succ_lt_succ hj)
        rwa [Nat.add_assoc, Nat.add_comm 1] at hj'
    · intro h
      refine ⟨h 0 (Nat.succ_pos _), ?_⟩
      intro j hj
      rw [Nat.add_assoc, Nat.add_comm 1]
      exact h (j + 1) (Nat.succ_lt_succ hj)

/-- States numbered from zero, each at its own index. -/
def Numbered (chain : List EffectInstantiationElement) : Prop :=
  ∀ i (h : i < chain.length), isIndex i chain[i].sequence = true

variable {chain : List EffectInstantiationElement}

theorem numbered_iff : consecutive 0 chain = true ↔ Numbered chain := by
  rw [consecutive_iff]
  simp only [Nat.zero_add]
  rfl

theorem Numbered.pairwise (h : Numbered chain) : chain.Pairwise (fun a b => rank a < rank b) := by
  rw [List.pairwise_iff_getElem]
  intro i j hi hj hij
  rw [rank_of_index (h i hi), rank_of_index (h j hj)]
  exact Int.mul_lt_mul_of_pos_right (Int.ofNat_lt.mpr hij) scaleOne_pos

theorem Numbered.rank_inj (h : Numbered chain) {a b : EffectInstantiationElement} (ha : a ∈ chain) (hb : b ∈ chain)
    (heq : rank a = rank b) : a = b := by
  obtain ⟨i, hi, rfl⟩ := List.getElem_of_mem ha
  obtain ⟨j, hj, rfl⟩ := List.getElem_of_mem hb
  rw [rank_of_index (h i hi), rank_of_index (h j hj)] at heq
  have hij : i = j := Int.ofNat.inj (Int.eq_of_mul_eq_mul_right (Int.ne_of_gt scaleOne_pos) heq)
  subst hij
  rfl

def Finite (s : EffectInstantiationElement) : Prop := ∃ d, s.sequence = .finite d

theorem Numbered.finite (h : Numbered chain) : ∀ s ∈ chain, Finite s := by
  intro s hs
  obtain ⟨i, hi, rfl⟩ := List.getElem_of_mem hs
  obtain ⟨d, hd, -⟩ := isIndex_iff.mp (h i hi)
  exact ⟨d, hd⟩

theorem not_behind_iff {a b : EffectInstantiationElement} (ha : Finite a) (hb : Finite b) :
    (zeroOf false).lt (a.sequence.sub b.sequence) = false ↔ rank a ≤ rank b := by
  obtain ⟨x, hx⟩ := ha
  obtain ⟨y, hy⟩ := hb
  rw [hx, hy, rank, rank, hx, hy, ← Bool.not_eq_true, sub_pos_iff, not_lt]

theorem insertionSort_agree {α : Type*} {r s : α → α → Prop} [DecidableRel r] [DecidableRel s] {l : List α}
    (h : ∀ a ∈ l, ∀ b ∈ l, r a b ↔ s a b) : l.insertionSort r = l.insertionSort s := by
  have hmap := List.map_insertionSort r s id l h
  rwa [List.map_id, List.map_id] at hmap

instance : Std.Total (fun a b : EffectInstantiationElement => rank a ≤ rank b) := ⟨fun a b => le_total (rank a) (rank b)⟩
instance : IsTrans EffectInstantiationElement (fun a b => rank a ≤ rank b) := ⟨fun _ _ _ => le_trans⟩
instance : Std.Total (fun a b : EffectInstantiationElement => rank b ≤ rank a) := ⟨fun a b => le_total (rank b) (rank a)⟩
instance : IsTrans EffectInstantiationElement (fun a b => rank b ≤ rank a) :=
  ⟨fun _ _ _ hab hbc => le_trans hbc hab⟩

theorem sortAscending_pairwise (h : ∀ s ∈ states, Finite s) :
    (sortAscending states).Pairwise (fun a b => rank a ≤ rank b) := by
  have hsame : sortAscending states = states.insertionSort (fun a b => rank a ≤ rank b) :=
    insertionSort_agree (fun a ha b hb => not_behind_iff (h a ha) (h b hb))
  rw [hsame]
  exact List.pairwise_insertionSort _ states

theorem sortDescending_pairwise (h : ∀ s ∈ states, Finite s) :
    (sortDescending states).Pairwise (fun a b => rank b ≤ rank a) := by
  have hsame : sortDescending states = states.insertionSort (fun a b => rank b ≤ rank a) :=
    insertionSort_agree (fun a ha b hb => not_behind_iff (h b hb) (h a ha))
  rw [hsame]
  exact List.pairwise_insertionSort _ states

theorem sortAscending_perm (states : List EffectInstantiationElement) : (sortAscending states).Perm states :=
  List.perm_insertionSort _ states

theorem sortAscending_eq {chain states : List EffectInstantiationElement} (hperm : chain.Perm states)
    (h : Numbered chain) : sortAscending states = chain := by
  have hfinite : ∀ s ∈ states, Finite s := fun s hs => h.finite s (hperm.mem_iff.mpr hs)
  have hsame : (sortAscending states).Perm chain := (sortAscending_perm states).trans hperm.symm
  apply List.Perm.eq_of_pairwise _ (sortAscending_pairwise hfinite) (h.pairwise.imp le_of_lt) hsame
  intro a b ha hb hab hba
  exact h.rank_inj (hsame.mem_iff.mp ha) hb (le_antisymm hab hba)

section
variable (hash : EffectInstantiationElement → Except JcsError Str)

/-- Each state after the first names the hash of the one before it. -/
def Linked (chain : List EffectInstantiationElement) : Prop :=
  ∀ i (h : i + 1 < chain.length),
    ∃ k, hash chain[i] = .ok k ∧ chain[i + 1].predecessor_effect_state_hash = some k

/-- States listed from a root: numbered from zero, the first without a predecessor, the others
linked. -/
structure IsLineage (chain : List EffectInstantiationElement) : Prop where
  nonempty : chain ≠ []
  numbered : Numbered chain
  root : ∀ s, chain.head? = some s → s.predecessor_effect_state_hash = none
  linked : Linked hash chain

def HashInjective (states : List EffectInstantiationElement) : Prop :=
  ∀ a ∈ states, ∀ b ∈ states, ∀ k, hash a = .ok k → hash b = .ok k → a = b

theorem linkStatus_ok_iff (chain : List EffectInstantiationElement) :
    linkStatus hash chain = .ok .ok ↔ Linked hash chain := by
  fun_induction linkStatus hash chain with
  | case1 a b rest ih =>
    rw [bind_eq_ok]
    constructor
    · rintro ⟨k, hk, hrest⟩
      split at hrest
      · cases hrest
      · rename_i hsame
        intro i hi
        cases i with
        | zero => exact ⟨k, hk, not_not.mp hsame⟩
        | succ i => exact ih.mp hrest i (Nat.lt_of_succ_lt_succ hi)
    · intro h
      obtain ⟨k, hk, hpred⟩ := h 0 (by simp)
      refine ⟨k, hk, ?_⟩
      rw [if_neg (not_not.mpr (show b.predecessor_effect_state_hash = some k from hpred))]
      exact ih.mpr (fun i hi => h (i + 1) (Nat.succ_lt_succ hi))
  | case2 states hshort =>
    refine ⟨fun _ i hi => ?_, fun _ => rfl⟩
    match states, hi with
    | a :: b :: rest, _ => exact absurd rfl (hshort a b rest)

theorem IsLineage.roots {rest : List EffectInstantiationElement} (h : IsLineage hash (s :: rest)) :
    (s :: rest).filter (fun s => s.predecessor_effect_state_hash = none) = [s] := by
  rw [List.filter_cons, if_pos (by simpa using h.root s rfl)]
  have hrest : rest.filter (fun s => s.predecessor_effect_state_hash = none) = [] := by
    rw [List.filter_eq_nil_iff]
    intro t ht
    obtain ⟨i, hi, rfl⟩ := List.getElem_of_mem ht
    obtain ⟨k, -, hpred⟩ := h.linked i (Nat.succ_lt_succ hi)
    rw [List.getElem_cons_succ] at hpred
    simp [hpred]
  rw [hrest]

theorem IsLineage.preds_nodup (h : IsLineage hash chain) (hinj : HashInjective hash chain) :
    (chain.filterMap (·.predecessor_effect_state_hash)).Nodup := by
  rw [List.Nodup, List.pairwise_filterMap, List.pairwise_iff_getElem]
  intro i j hi hj hij b hb b' hb'
  -- The predecessor of a state is the state one index below, and indices are told apart.
  obtain ⟨j, rfl⟩ : ∃ n, j = n + 1 := ⟨j - 1, by omega⟩
  obtain ⟨k', hk', hpred'⟩ := h.linked j hj
  cases i with
  | zero =>
    have hnone := h.root chain[0] (by rw [List.head?_eq_getElem?, List.getElem?_eq_getElem])
    rw [hnone] at hb
    cases hb
  | succ i =>
    obtain ⟨k, hk, hpred⟩ := h.linked i hi
    rw [hpred] at hb
    rw [hpred'] at hb'
    intro heq
    rw [← Option.some.inj hb, ← Option.some.inj hb'] at heq
    have hsame := hinj _ (List.getElem_mem (by omega)) _ (List.getElem_mem (by omega)) k hk (heq ▸ hk')
    have hindex := h.numbered i (by omega)
    rw [hsame] at hindex
    have := index_inj hindex (h.numbered j (by omega))
    omega

theorem mapKey_scaled {a b : Double} (h : mapKey (.finite a) = mapKey (.finite b)) : a.scaled = b.scaled := by
  simp only [mapKey, zeroOf] at h
  split at h
  · split at h
    · omega
    · cases h
      exact (zeroOf_scaled false).symm ▸ by assumption
  · split at h
    · cases h
      exact (zeroOf_scaled false).symm ▸ by omega
    · cases h
      rfl

theorem Numbered.keys_nodup (h : Numbered chain) : (chain.map (fun s => mapKey s.sequence)).Nodup := by
  rw [List.Nodup, List.pairwise_map, List.pairwise_iff_getElem]
  intro i j hi hj hij heq
  obtain ⟨d, hd, hscaled⟩ := isIndex_iff.mp (h i hi)
  obtain ⟨d', hd', hscaled'⟩ := isIndex_iff.mp (h j hj)
  rw [hd, hd'] at heq
  have hsame := mapKey_scaled heq
  rw [hscaled, hscaled'] at hsame
  have := Int.ofNat.inj (Int.eq_of_mul_eq_mul_right (Int.ne_of_gt scaleOne_pos) hsame)
  omega

/-- The checks on the distinct states do not see their order: where the states can be numbered
there is one way to sort them, and where they cannot no sorting passes. -/
theorem graphStatus_perm {u u' : List EffectInstantiationElement} (h : u.Perm u') :
    graphStatus hash u = graphStatus hash u' := by
  have hroots : (u.filter (fun s => s.predecessor_effect_state_hash = none)).Perm
      (u'.filter (fun s => s.predecessor_effect_state_hash = none)) := h.filter _
  have hforks := OrderedMap.repeats_perm (h.filterMap (·.predecessor_effect_state_hash))
  have hkeys := OrderedMap.repeats_perm (h.map (fun s => mapKey s.sequence))
  have hsort : ∀ {v v' : List EffectInstantiationElement}, v.Perm v' →
      consecutive 0 (sortAscending v) = true → sortAscending v' = sortAscending v := by
    intro v v' hv hnumbered
    exact sortAscending_eq ((sortAscending_perm v).trans hv) (numbered_iff.mp hnumbered)
  rw [graphStatus, graphStatus]
  cases hu : u.filter (fun s => s.predecessor_effect_state_hash = none) with
  | nil =>
    rw [hu] at hroots
    rw [hroots.nil_eq.symm]
  | cons root rest =>
    rw [hu] at hroots
    cases rest with
    | nil =>
      rw [List.perm_singleton.mp hroots.symm]
      simp only [hforks, hkeys]
      by_cases hnumbered : consecutive 0 (sortAscending u) = true
      · rw [hsort h hnumbered]
      · have hnumbered' : ¬ consecutive 0 (sortAscending u') = true := by
          intro htrue
          rw [hsort h.symm htrue] at hnumbered
          exact hnumbered htrue
        simp only [Bool.not_eq_true] at hnumbered hnumbered'
        simp only [hnumbered, hnumbered', Bool.not_false, if_true]
    | cons second more =>
      have hlength := hroots.length_eq
      match hu' : u'.filter (fun s => s.predecessor_effect_state_hash = none) with
      | [] =>
        rw [hu'] at hlength
        cases hlength
      | [_] =>
        rw [hu'] at hlength
        cases hlength
      | _ :: _ :: _ => rw [hu']

theorem graphStatus_lineage (h : IsLineage hash chain) (hinj : HashInjective hash chain) :
    graphStatus hash chain = .ok .ok := by
  cases chain with
  | nil => exact absurd rfl h.nonempty
  | cons s rest =>
    rw [graphStatus, h.roots]
    simp only
    have hfirst : isIndex 0 s.sequence = true := h.numbered 0 (Nat.succ_pos _)
    rw [hfirst, OrderedMap.repeats_false_iff.mpr (h.preds_nodup hash hinj),
      OrderedMap.repeats_false_iff.mpr h.numbered.keys_nodup, sortAscending_eq (List.Perm.refl _) h.numbered,
      numbered_iff.mpr h.numbered]
    exact (linkStatus_ok_iff hash _).mpr h.linked

theorem lineage_of_graphStatus {u : List EffectInstantiationElement} (h : graphStatus hash u = .ok .ok) :
    IsLineage hash (sortAscending u) := by
  rw [graphStatus] at h
  split at h
  · cases h
  · cases h
  · rename_i root hroots
    split at h
    · cases h
    · rename_i hfirst
      split at h
      · cases h
      · split at h
        · cases h
        · split at h
          · cases h
          · rename_i hnumbered
            simp only [Bool.not_eq_true, Bool.not_eq_false'] at hfirst hnumbered
            have hnumbered := numbered_iff.mp hnumbered
            have hroot : root ∈ u.filter (fun s => s.predecessor_effect_state_hash = none) := by
              rw [hroots]
              exact List.mem_singleton_self root
            obtain ⟨hmem, hpred⟩ := List.mem_filter.mp hroot
            obtain ⟨i, hi, hroot_eq⟩ := List.getElem_of_mem ((sortAscending_perm u).mem_iff.mpr hmem)
            -- The root stands at index zero.
            have hzero : i = 0 := by
              have hindex := hnumbered i hi
              rw [hroot_eq] at hindex
              exact index_inj hindex hfirst
            subst hzero
            refine ⟨?_, hnumbered, ?_, (linkStatus_ok_iff hash _).mp h⟩
            · intro hnil
              rw [hnil] at hi
              cases hi
            · intro s hs
              rw [List.head?_eq_getElem?, List.getElem?_eq_getElem hi, hroot_eq] at hs
              cases hs
              simpa using hpred

def Hashes (states : List EffectInstantiationElement) : Prop := ∀ s ∈ states, ∃ k, hash s = .ok k

/-- The map holds, under its hash, one of the states read so far for each hash they have. -/
structure Collected (done : List EffectInstantiationElement) (seen : OrderedMap Str EffectInstantiationElement × Nat) :
    Prop where
  keyed : ∀ k s, seen.1.get k = some s → hash s = .ok k ∧ s ∈ done
  covers : ∀ s ∈ done, ∃ k, hash s = .ok k ∧ (seen.1.get k).isSome
  count : seen.2 + seen.1.values.length = done.length

theorem collected_empty : Collected hash [] (.empty, 0) where
  keyed := by
    intro k s h
    cases h
  covers := by
    intro s hs
    cases hs
  count := rfl

theorem noteState_collected {done : List EffectInstantiationElement}
    {seen : OrderedMap Str EffectInstantiationElement × Nat} {k : Str} (h : Collected hash done seen)
    (hk : hash s = .ok k) : ∃ seen', noteState hash seen s = .ok seen' ∧ Collected hash (done ++ [s]) seen' := by
  rw [noteState, hk]
  change ∃ seen', (if (seen.1.get k).isSome then Except.ok (seen.1, seen.2 + 1)
    else Except.ok (seen.1.set k s, seen.2)) = Except.ok seen' ∧ _
  by_cases hknown : (seen.1.get k).isSome
  · rw [if_pos hknown]
    refine ⟨_, rfl, ?_, ?_, ?_⟩
    · intro k' t ht
      obtain ⟨hash_t, hmem⟩ := h.keyed k' t ht
      exact ⟨hash_t, List.mem_append_left _ hmem⟩
    · intro t ht
      obtain ht | ht := List.mem_append.mp ht
      · exact h.covers t ht
      · rw [List.mem_singleton.mp ht]
        exact ⟨k, hk, hknown⟩
    · have hcount := h.count
      rw [List.length_append, List.length_singleton]
      change seen.2 + 1 + seen.1.values.length = _
      omega
  · rw [if_neg hknown]
    rw [Option.not_isSome_iff_eq_none] at hknown
    refine ⟨_, rfl, ?_, ?_, ?_⟩
    · intro k' t ht
      rw [OrderedMap.get_set] at ht
      split at ht
      · rename_i heq
        cases ht
        rw [← heq]
        exact ⟨hk, List.mem_append_right _ (List.mem_singleton_self s)⟩
      · obtain ⟨hash_t, hmem⟩ := h.keyed k' t ht
        exact ⟨hash_t, List.mem_append_left _ hmem⟩
    · intro t ht
      obtain ht | ht := List.mem_append.mp ht
      · obtain ⟨k', hk', hsome⟩ := h.covers t ht
        refine ⟨k', hk', ?_⟩
        rw [OrderedMap.get_set]
        split
        · rfl
        · exact hsome
      · rw [List.mem_singleton.mp ht]
        refine ⟨k, hk, ?_⟩
        rw [OrderedMap.get_set_self]
        rfl
    · have hcount := h.count
      rw [OrderedMap.values_set_absent s hknown, List.length_append, List.length_append]
      change seen.2 + (seen.1.values.length + 1) = _ + 1
      omega

theorem noteState_run : ∀ {done : List EffectInstantiationElement}
    {seen : OrderedMap Str EffectInstantiationElement × Nat}, Collected hash done seen → Hashes hash states →
    ∃ seen', states.foldlM (noteState hash) seen = .ok seen' ∧ Collected hash (done ++ states) seen' := by
  induction states with
  | nil =>
    intro done seen h _
    rw [List.append_nil]
    exact ⟨seen, rfl, h⟩
  | cons s rest ih =>
    intro done seen h hall
    obtain ⟨k, hk⟩ := hall s List.mem_cons_self
    obtain ⟨seen', hstep, hseen'⟩ := noteState_collected hash h hk
    obtain ⟨seen'', hrun, hseen''⟩ := ih hseen' (fun t ht => hall t (List.mem_cons_of_mem s ht))
    refine ⟨seen'', ?_, ?_⟩
    · rw [List.foldlM_cons, hstep]
      exact hrun
    · rwa [List.append_assoc] at hseen''

theorem hashes_of_run : ∀ {seen seen' : OrderedMap Str EffectInstantiationElement × Nat},
    states.foldlM (noteState hash) seen = .ok seen' → Hashes hash states := by
  induction states with
  | nil =>
    intro seen seen' _ s hs
    cases hs
  | cons s rest ih =>
    intro seen seen' h t ht
    rw [List.foldlM_cons] at h
    obtain ⟨middle, hstep, hrest⟩ := bind_eq_ok.mp h
    cases ht with
    | head =>
      rw [noteState] at hstep
      obtain ⟨k, hk, -⟩ := bind_eq_ok.mp hstep
      exact ⟨k, hk⟩
    | tail _ ht => exact ih hrest t ht

theorem Collected.distinct {seen : OrderedMap Str EffectInstantiationElement × Nat} (h : Collected hash states seen)
    (hinj : HashInjective hash states) : seen.1.values.Nodup ∧ ∀ s, s ∈ seen.1.values ↔ s ∈ states := by
  constructor
  · apply List.Nodup.map_on _ (List.Nodup.of_map _ seen.1.distinct)
    rintro ⟨k, s⟩ hs ⟨k', s'⟩ hs' heq
    change s = s' at heq
    subst heq
    have hk := (h.keyed k s (OrderedMap.mem_entries.mp hs)).1
    rw [(h.keyed k' s (OrderedMap.mem_entries.mp hs')).1] at hk
    cases hk
    rfl
  · intro s
    constructor
    · intro hs
      obtain ⟨k, hk⟩ := OrderedMap.mem_values.mp hs
      exact (h.keyed k s hk).2
    · intro hs
      obtain ⟨k, hk, hsome⟩ := h.covers s hs
      obtain ⟨t, ht⟩ := Option.isSome_iff_exists.mp hsome
      obtain ⟨hash_t, hmem⟩ := h.keyed k t ht
      rw [hinj s hs t hmem k hk hash_t]
      exact OrderedMap.mem_values.mpr ⟨k, ht⟩

/-- The distinct states, listed from their root. -/
structure Lists (states chain : List EffectInstantiationElement) : Prop where
  distinct : chain.Nodup
  mem_iff : ∀ s, s ∈ chain ↔ s ∈ states
  lineage : IsLineage hash chain

theorem validateOneLineage_eq (hall : Hashes hash states) (hinj : HashInjective hash states) :
    ∃ unique count, unique.Nodup ∧ (∀ s, s ∈ unique ↔ s ∈ states) ∧
      count + unique.length = states.length ∧
      validateOneLineage hash states = (graphStatus hash unique >>= fun status => pure ⟨status, count⟩) := by
  obtain ⟨seen, hrun, hseen⟩ := noteState_run hash (collected_empty hash) hall
  obtain ⟨hnodup, hmem⟩ := hseen.distinct hash hinj
  refine ⟨seen.1.values, seen.2, hnodup, hmem, hseen.count, ?_⟩
  rw [validateOneLineage, hrun]
  rfl

variable {r : LineageResult}

theorem hashes_of_validateOneLineage (h : validateOneLineage hash states = .ok r) : Hashes hash states := by
  rw [validateOneLineage] at h
  obtain ⟨seen, hrun, -⟩ := bind_eq_ok.mp h
  exact hashes_of_run hash hrun

theorem toOption_of_not_hashes (h : ¬ Hashes hash states) : (validateOneLineage hash states).toOption = none := by
  cases hr : validateOneLineage hash states with
  | error e => rfl
  | ok r => exact absurd (hashes_of_validateOneLineage hash hr) h

theorem hashes_perm {states states' : List EffectInstantiationElement} (h : states.Perm states') :
    Hashes hash states ↔ Hashes hash states' := by
  simp only [Hashes, h.mem_iff]

theorem validateOneLineage_perm {states states' : List EffectInstantiationElement} (h : states.Perm states')
    (hinj : HashInjective hash states) :
    (validateOneLineage hash states).toOption = (validateOneLineage hash states').toOption := by
  by_cases hall : Hashes hash states
  · have hinj' : HashInjective hash states' := by
      intro a ha b hb
      exact hinj a (h.mem_iff.mpr ha) b (h.mem_iff.mpr hb)
    obtain ⟨u, count, hnodup, hmem, hcount, heq⟩ := validateOneLineage_eq hash hall hinj
    obtain ⟨u', count', hnodup', hmem', hcount', heq'⟩ :=
      validateOneLineage_eq hash ((hashes_perm hash h).mp hall) hinj'
    have hu : u.Perm u' := by
      rw [List.perm_ext_iff_of_nodup hnodup hnodup']
      intro s
      rw [hmem, hmem', h.mem_iff]
    have hsame : count = count' := by
      have := hu.length_eq
      have := h.length_eq
      omega
    rw [heq, heq', graphStatus_perm hash hu, hsame]
  · rw [toOption_of_not_hashes hash hall, toOption_of_not_hashes hash (fun hall' => hall ((hashes_perm hash h).mpr hall'))]

theorem validateOneLineage_ok_iff (hinj : HashInjective hash states) :
    (∃ count, validateOneLineage hash states = .ok ⟨.ok, count⟩) ↔
      Hashes hash states ∧ ∃ chain, Lists hash states chain := by
  constructor
  · rintro ⟨count, h⟩
    have hall := hashes_of_validateOneLineage hash h
    obtain ⟨u, count', hnodup, hmem, -, heq⟩ := validateOneLineage_eq hash hall hinj
    rw [heq] at h
    obtain ⟨status, hstatus, hresult⟩ := bind_eq_ok.mp h
    cases hresult
    have hperm := sortAscending_perm u
    refine ⟨hall, sortAscending u, hperm.nodup_iff.mpr hnodup, ?_, lineage_of_graphStatus hash hstatus⟩
    intro s
    rw [hperm.mem_iff, hmem]
  · rintro ⟨hall, chain, hchain⟩
    obtain ⟨u, count, hnodup, hmem, -, heq⟩ := validateOneLineage_eq hash hall hinj
    have hperm : chain.Perm u := by
      rw [List.perm_ext_iff_of_nodup hchain.distinct hnodup]
      intro s
      rw [hmem, hchain.mem_iff]
    have hchain_inj : HashInjective hash chain := by
      intro a ha b hb
      exact hinj a ((hchain.mem_iff a).mp ha) b ((hchain.mem_iff b).mp hb)
    refine ⟨count, ?_⟩
    rw [heq, ← graphStatus_perm hash hperm, graphStatus_lineage hash hchain.lineage hchain_inj]
    rfl

theorem head_sortDescending {states chain : List EffectInstantiationElement} (h : Lists hash states chain) :
    (sortDescending states).head? = chain.getLast? := by
  have hne := h.lineage.nonempty
  have hfinite : ∀ s ∈ states, Finite s := fun s hs => h.lineage.numbered.finite s ((h.mem_iff s).mpr hs)
  have hsorted := sortDescending_pairwise hfinite
  have hperm : (sortDescending states).Perm states := List.perm_insertionSort _ states
  have hlast : chain.getLast hne ∈ sortDescending states :=
    hperm.mem_iff.mpr ((h.mem_iff _).mp (List.getLast_mem hne))
  rw [List.getLast?_eq_some_getLast hne]
  cases hsort : sortDescending states with
  | nil =>
    rw [hsort] at hlast
    cases hlast
  | cons first rest =>
    rw [hsort] at hlast hsorted hperm
    have hfirst : first ∈ chain := (h.mem_iff first).mpr (hperm.mem_iff.mp List.mem_cons_self)
    have hle : rank (chain.getLast hne) ≤ rank first := by
      cases hlast with
      | head => exact le_refl _
      | tail _ hlast => exact (List.pairwise_cons.mp hsorted).1 _ hlast
    have hge : rank first ≤ rank (chain.getLast hne) := by
      obtain ⟨i, hi, rfl⟩ := List.getElem_of_mem hfirst
      rw [List.getLast_eq_getElem, rank_of_index (h.lineage.numbered i hi),
        rank_of_index (h.lineage.numbered (chain.length - 1) (by omega))]
      exact Int.mul_le_mul_of_nonneg_right (by omega) (le_of_lt scaleOne_pos)
    rw [List.head?_cons, h.lineage.numbered.rank_inj hfirst (List.getLast_mem hne) (le_antisymm hge hle)]

def statesOf (block : EffectInstantiationBlock) (id : Str) : List EffectInstantiationElement :=
  block.instantiated_effects.filter (fun s => s.effect_id = id)

variable {block block' : EffectInstantiationBlock}

theorem statesOf_perm (h : block.instantiated_effects.Perm block'.instantiated_effects) (id : Str) :
    (statesOf block id).Perm (statesOf block' id) := h.filter _

theorem byEffect_getD (block : EffectInstantiationBlock) (id : Str) :
    ((byEffect block).get id).getD [] = statesOf block id :=
  OrderedMap.getD_groupBy _ _ _

theorem mem_effectIds {block : EffectInstantiationBlock} {id : Str} :
    id ∈ effectIds block ↔ ∃ s ∈ block.instantiated_effects, s.effect_id = id := by
  rw [effectIds, List.mem_insertionSort]
  exact OrderedMap.mem_keys_groupBy

theorem effectIds_perm (h : block.instantiated_effects.Perm block'.instantiated_effects) :
    effectIds block = effectIds block' := by
  have hkeys : (byEffect block).keys.Perm (byEffect block').keys := by
    rw [List.perm_ext_iff_of_nodup (byEffect block).keys_nodup (byEffect block').keys_nodup]
    intro id
    rw [byEffect, byEffect, OrderedMap.mem_keys_groupBy, OrderedMap.mem_keys_groupBy]
    simp only [h.mem_iff]
  have hsorted : ∀ block : EffectInstantiationBlock, (effectIds block).Pairwise (· ≤ ·) :=
    fun block => List.pairwise_insertionSort _ _
  apply List.Perm.eq_of_pairwise' (hsorted block) (hsorted block')
  exact ((List.perm_insertionSort _ _).trans hkeys).trans (List.perm_insertionSort _ _).symm

theorem hashInjective_statesOf {block : EffectInstantiationBlock} (id : Str)
    (h : HashInjective hash block.instantiated_effects) : HashInjective hash (statesOf block id) := by
  intro a ha b hb
  exact h a (List.mem_of_mem_filter ha) b (List.mem_of_mem_filter hb)

theorem validateEffectLineage_perm (h : block.instantiated_effects.Perm block'.instantiated_effects)
    (hinj : HashInjective hash block.instantiated_effects) :
    (validateEffectLineage hash block).toOption = (validateEffectLineage hash block').toOption := by
  have hloop := foldlM_toOption (l := effectIds block)
    (f := fun seen id => do
      let r ← validateOneLineage hash (((byEffect block).get id).getD [])
      return noteLineage seen r)
    (g := fun seen id => do
      let r ← validateOneLineage hash (((byEffect block').get id).getD [])
      return noteLineage seen r)
    (by
      intro seen id _
      have hone := validateOneLineage_perm hash (statesOf_perm h id) (hashInjective_statesOf hash id hinj)
      rw [byEffect_getD, byEffect_getD]
      exact toOption_bind_congr hone)
    (0, none)
  rw [validateEffectLineage, validateEffectLineage, ← effectIds_perm h]
  exact toOption_bind_congr hloop

theorem noteLineage_none {seen : Nat × Option LineageStatus} :
    (noteLineage seen r).2 = none ↔ seen.2 = none ∧ r.status = .ok := by
  rw [noteLineage]
  split
  · rename_i h
    simp [h.1]
  · rename_i h
    constructor
    · intro hnone
      exact ⟨hnone, by_contra (fun hne => h ⟨hne, hnone⟩)⟩
    · exact fun hnone => hnone.1

theorem noteLineage_ne {seen : Nat × Option LineageStatus} (h : seen.2 ≠ some .ok) :
    (noteLineage seen r).2 ≠ some .ok := by
  rw [noteLineage]
  split
  · rename_i hr
    intro heq
    exact hr.1 (Option.some.inj heq)
  · exact h

theorem noteLineage_run (one : Str → Except JcsError LineageResult) (ids : List Str) :
    ∀ {seen : Nat × Option LineageStatus}, seen.2 ≠ some .ok →
    ((∃ out, ids.foldlM (fun seen id => do return noteLineage seen (← one id)) seen = .ok out ∧
        out.2.getD .ok = .ok) ↔
      seen.2 = none ∧ ∀ id ∈ ids, ∃ count, one id = .ok ⟨.ok, count⟩) := by
  induction ids with
  | nil =>
    intro seen hseen
    simp only [List.foldlM_nil, List.not_mem_nil, false_implies, implies_true, and_true]
    constructor
    · rintro ⟨out, hout, hok⟩
      cases hout
      cases hstatus : seen.2 with
      | none => rfl
      | some status =>
        rw [hstatus] at hok hseen
        exact absurd (congrArg some hok) hseen
    · intro hnone
      exact ⟨seen, rfl, by rw [hnone]; rfl⟩
  | cons id rest ih =>
    intro seen hseen
    rw [List.foldlM_cons]
    cases hone : one id with
    | error e =>
      constructor
      · rintro ⟨out, hout, -⟩
        cases hout
      · rintro ⟨-, hall⟩
        obtain ⟨count, hcount⟩ := hall id List.mem_cons_self
        rw [hone] at hcount
        cases hcount
    | ok r =>
      refine (ih (noteLineage_ne hseen)).trans ?_
      rw [noteLineage_none, List.forall_mem_cons, hone, and_assoc]
      refine and_congr_right (fun _ => and_congr_left (fun _ => ?_))
      constructor
      · intro hr
        exact ⟨r.duplicate_count, by rw [← hr]⟩
      · rintro ⟨count, hr⟩
        cases hr
        rfl

theorem validateEffectLineage_ok_iff {block : EffectInstantiationBlock}
    (hinj : HashInjective hash block.instantiated_effects) :
    (∃ count, validateEffectLineage hash block = .ok ⟨.ok, count⟩) ↔
      Hashes hash block.instantiated_effects ∧
      ∀ id ∈ effectIds block, ∃ chain, Lists hash (statesOf block id) chain := by
  have hloop := noteLineage_run (fun id => validateOneLineage hash (((byEffect block).get id).getD []))
    (effectIds block) (show ((0, none) : Nat × Option LineageStatus).2 ≠ some .ok by decide)
  have hok : (∃ count, validateEffectLineage hash block = .ok ⟨.ok, count⟩) ↔
      ∀ id ∈ effectIds block, ∃ count, validateOneLineage hash (statesOf block id) = .ok ⟨.ok, count⟩ := by
    simp only [byEffect_getD, true_and] at hloop
    rw [← hloop]
    simp only [validateEffectLineage, byEffect_getD]
    constructor
    · rintro ⟨count, h⟩
      obtain ⟨out, hout, hresult⟩ := bind_eq_ok.mp h
      exact ⟨out, hout, congrArg LineageResult.status (Except.ok.inj hresult)⟩
    · rintro ⟨out, hout, hstatus⟩
      refine ⟨out.1, ?_⟩
      rw [hout]
      exact congrArg Except.ok (congrArg (LineageResult.mk · out.1) hstatus)
  rw [hok]
  have hone : ∀ id, (∃ count, validateOneLineage hash (statesOf block id) = .ok ⟨.ok, count⟩) ↔
      Hashes hash (statesOf block id) ∧ ∃ chain, Lists hash (statesOf block id) chain :=
    fun id => validateOneLineage_ok_iff hash (hashInjective_statesOf hash id hinj)
  constructor
  · intro h
    refine ⟨?_, fun id hid => ((hone id).mp (h id hid)).2⟩
    intro s hs
    have hid : s.effect_id ∈ effectIds block := mem_effectIds.mpr ⟨s, hs, rfl⟩
    exact ((hone _).mp (h _ hid)).1 s (List.mem_filter.mpr ⟨hs, by simp⟩)
  · rintro ⟨hall, hlists⟩ id hid
    exact (hone id).mpr ⟨fun s hs => hall s (List.mem_of_mem_filter hs), hlists id hid⟩

def latestStates (block : EffectInstantiationBlock) : OrderedMap Str (Option EffectInstantiationElement) :=
  (byEffect block).mapEach (fun states => (sortDescending states).head?)

theorem latestStates_listed {block : EffectInstantiationBlock} {id : Str} (h : Lists hash (statesOf block id) chain) :
    (latestStates block).get id = some chain.getLast? := by
  have hne : statesOf block id ≠ [] := by
    intro hnil
    obtain ⟨s, hs⟩ := List.exists_mem_of_ne_nil _ h.lineage.nonempty
    have hmem := (h.mem_iff s).mp hs
    rw [hnil] at hmem
    cases hmem
  rw [statesOf] at hne
  rw [latestStates, OrderedMap.get_mapEach, byEffect, OrderedMap.get_groupBy, if_neg hne, Option.map_some]
  exact congrArg some (head_sortDescending hash h)

theorem latestStates_absent {block : EffectInstantiationBlock} {id : Str} (h : id ∉ effectIds block) :
    (latestStates block).get id = none := by
  have hnil : block.instantiated_effects.filter (fun s => s.effect_id = id) = [] := by
    rw [List.filter_eq_nil_iff]
    intro s hs hid
    exact h (mem_effectIds.mpr ⟨s, hs, by simpa using hid⟩)
  rw [latestStates, OrderedMap.get_mapEach, byEffect, OrderedMap.get_groupBy, if_pos hnil]
  rfl

theorem Lists.perm {states states' chain : List EffectInstantiationElement} (h : Lists hash states chain)
    (hperm : states.Perm states') : Lists hash states' chain :=
  ⟨h.distinct, fun s => (h.mem_iff s).trans hperm.mem_iff, h.lineage⟩

theorem latestStates_perm (h : block.instantiated_effects.Perm block'.instantiated_effects)
    (hlists : ∀ id ∈ effectIds block, ∃ chain, Lists hash (statesOf block id) chain) :
    (latestStates block).get = (latestStates block').get := by
  funext id
  by_cases hid : id ∈ effectIds block
  · obtain ⟨chain, hchain⟩ := hlists id hid
    rw [latestStates_listed hash hchain, latestStates_listed hash (hchain.perm hash (statesOf_perm h id))]
  · rw [latestStates_absent hid, latestStates_absent (effectIds_perm h ▸ hid)]

theorem latestValidEffectStates_perm (h : block.instantiated_effects.Perm block'.instantiated_effects)
    (hinj : HashInjective hash block.instantiated_effects) :
    (latestValidEffectStates hash block).toOption.map (Option.map OrderedMap.get) =
      (latestValidEffectStates hash block').toOption.map (Option.map OrderedMap.get) := by
  have hsame := validateEffectLineage_perm hash h hinj
  rw [latestValidEffectStates, latestValidEffectStates]
  cases hr : validateEffectLineage hash block with
  | error e =>
    rw [hr] at hsame
    cases hr' : validateEffectLineage hash block' with
    | error e' => rfl
    | ok r' =>
      rw [hr'] at hsame
      cases hsame
  | ok r =>
    rw [hr] at hsame
    cases hr' : validateEffectLineage hash block' with
    | error e' =>
      rw [hr'] at hsame
      cases hsame
    | ok r' =>
      rw [hr'] at hsame
      cases hsame
      obtain ⟨status, count⟩ := r
      by_cases hok : status = .ok
      · subst hok
        have hlists := ((validateEffectLineage_ok_iff hash hinj).mp ⟨count, hr⟩).2
        exact congrArg some (congrArg some (latestStates_perm hash h hlists))
      · simp only [bind, Except.bind, ne_eq, hok, not_false_eq_true, if_true]

end

/-- Order does not matter, a block is valid exactly when the distinct states of each effect are a
chain from a root, and then the latest state of each effect is the last of its chain. -/
theorem lineage_order_free {numText : Double → Str} {sha256Hex : Str → Str} {block block' : EffectInstantiationBlock}
    (hperm : block.instantiated_effects.Perm block'.instantiated_effects)
    (hinj : HashInjective (hashEffectState numText sha256Hex) block.instantiated_effects) :
    (validateEffectLineage (hashEffectState numText sha256Hex) block).toOption =
      (validateEffectLineage (hashEffectState numText sha256Hex) block').toOption ∧
    (latestValidEffectStates (hashEffectState numText sha256Hex) block).toOption.map (Option.map OrderedMap.get) =
      (latestValidEffectStates (hashEffectState numText sha256Hex) block').toOption.map (Option.map OrderedMap.get) ∧
    ((∃ count, validateEffectLineage (hashEffectState numText sha256Hex) block = .ok ⟨.ok, count⟩) ↔
      Hashes (hashEffectState numText sha256Hex) block.instantiated_effects ∧
      ∀ id ∈ block.instantiated_effects.map (·.effect_id),
        ∃ chain, Lists (hashEffectState numText sha256Hex) (statesOf block id) chain) ∧
    (∀ count, validateEffectLineage (hashEffectState numText sha256Hex) block = .ok ⟨.ok, count⟩ →
      ∃ latest, latestValidEffectStates (hashEffectState numText sha256Hex) block = .ok (some latest) ∧
        (∀ id, id ∉ block.instantiated_effects.map (·.effect_id) → latest.get id = none) ∧
        ∀ id chain, Lists (hashEffectState numText sha256Hex) (statesOf block id) chain →
          ∃ last, chain.getLast? = some last ∧ latest.get id = some (some last)) := by
  have hids : ∀ id, id ∈ block.instantiated_effects.map (·.effect_id) ↔ id ∈ effectIds block := by
    intro id
    rw [mem_effectIds, List.mem_map]
  refine ⟨validateEffectLineage_perm _ hperm hinj, latestValidEffectStates_perm _ hperm hinj, ?_, ?_⟩
  · simp only [hids]
    exact validateEffectLineage_ok_iff _ hinj
  · intro count h
    refine ⟨latestStates block, ?_, ?_, ?_⟩
    · rw [latestValidEffectStates, h]
      rfl
    · intro id hid
      exact latestStates_absent (fun hmem => hid ((hids id).mpr hmem))
    · intro id chain hchain
      have hlast := List.getLast?_eq_some_getLast hchain.lineage.nonempty
      refine ⟨_, hlast, ?_⟩
      rw [latestStates_listed _ hchain, hlast]

def sequenceText (d : Double) : Str := decimal d.toInt.toNat

def settledEffect : EffectInstantiationElement where
  effect_scope := .internal
  effect_target_ref := lit "t"
  finality_state := .pending
  recovery_mechanism_ref := none
  recovery_controller := none
  recovery_deadline := none
  evidence_status := .pending
  classification_profile_id := lit "p"
  classification_profile_digest := lit "d"
  action_ref := lit "a"
  action_instance_id := lit "i"
  effect_id := lit "e"
  predecessor_effect_state_hash := none
  sequence := .ofInt 0
  asserted_realized_class := none

def settledDigest : Str := lit "e950ca5c61e7124c4d7b64e83c8afd3e2383ba40c65bbcf9d2dc2cd7d400e8f4"

def laterEffect : EffectInstantiationElement :=
  { settledEffect with
    finality_state := .settled
    predecessor_effect_state_hash := some (lit "sha256:" ++ settledDigest)
    sequence := .ofInt 1 }

def effectText : Str := EFFECT_STATE_DOMAIN ++
  lit "\x7b\"action_instance_id\":\"i\",\"action_ref\":\"a\",\"classification_profile_digest\":\"d\"," ++
  lit "\"classification_profile_id\":\"p\",\"effect_id\":\"e\",\"effect_scope\":\"internal\"," ++
  lit "\"effect_target_ref\":\"t\",\"evidence_status\":\"pending\",\"finality_state\":\""

def effectDigest (text : Str) : Str :=
  if text = effectText ++ lit "pending\",\"sequence\":0\x7d" then settledDigest
  else if text = effectText ++ lit "settled\",\"predecessor_effect_state_hash\":\"sha256:" ++ settledDigest ++
      lit "\",\"sequence\":1\x7d" then
    lit "7df0568c071d09a8ab0a2a6c68d7599fc8677ca1557ec7c1d5488724a2ed08fc"
  else []

theorem lineage_order_free_duplicate :
    validateEffectLineage (hashEffectState sequenceText effectDigest) ⟨[laterEffect, settledEffect, laterEffect]⟩ =
      .ok ⟨.ok, 1⟩ ∧
    (validateEffectLineage (hashEffectState sequenceText effectDigest)
      ⟨[settledEffect, laterEffect, laterEffect]⟩).toOption = some ⟨.ok, 1⟩ ∧
    ∃ latest, latestValidEffectStates (hashEffectState sequenceText effectDigest)
        ⟨[laterEffect, settledEffect, laterEffect]⟩ = .ok (some latest) ∧
      ∃ last, latest.get (lit "e") = some (some last) := by
  have hok : validateEffectLineage (hashEffectState sequenceText effectDigest)
      ⟨[laterEffect, settledEffect, laterEffect]⟩ = .ok ⟨.ok, 1⟩ := by
    decide +kernel
  have hnodup : ([laterEffect, settledEffect].map
      (fun s => (hashEffectState sequenceText effectDigest s).toOption)).Nodup := by
    decide +kernel
  have hinj : HashInjective (hashEffectState sequenceText effectDigest) [laterEffect, settledEffect, laterEffect] := by
    intro a ha b hb k hka hkb
    have hmem : ∀ s ∈ [laterEffect, settledEffect, laterEffect], s ∈ [laterEffect, settledEffect] := by
      intro s hs
      simp only [List.mem_cons, List.not_mem_nil, or_false] at hs ⊢
      obtain h | h | h := hs
      · exact .inl h
      · exact .inr h
      · exact .inl h
    exact List.inj_on_of_nodup_map hnodup (hmem a ha) (hmem b hb) (by rw [hka, hkb])
  obtain ⟨hsame, -, hiff, hlatest⟩ :=
    @lineage_order_free sequenceText effectDigest ⟨[laterEffect, settledEffect, laterEffect]⟩
      ⟨[settledEffect, laterEffect, laterEffect]⟩ (List.Perm.swap _ _ _) hinj
  obtain ⟨latest, hlatest, -, hlast⟩ := hlatest 1 hok
  refine ⟨hok, ?_, latest, hlatest, ?_⟩
  · rw [← hsame, hok]
    rfl
  · obtain ⟨chain, hchain⟩ := (hiff.mp ⟨1, hok⟩).2 (lit "e") (by decide)
    obtain ⟨last, -, hget⟩ := hlast (lit "e") chain hchain
    exact ⟨last, hget⟩

end AgentPassport.EffectLineage
