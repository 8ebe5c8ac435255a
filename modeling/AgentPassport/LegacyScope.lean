import AgentPassport.JsText

/-! The pre-draft scope rule (`core/delegation.ts`): what a scope string covers, and exactly when
covering is transitive. -/
namespace AgentPassport.LegacyScope
open JsText

/-- `:*`. -/
def WILD : Str := [0x3A, 0x2A]

/-- `s.startsWith(t)`. -/
def startsWith (s t : Str) : Bool := t.isPrefixOf s

/-- `s.endsWith(t)`. -/
def endsWith (s t : Str) : Bool := t.isSuffixOf s

def scopeCovers (granted required : Str) : Bool :=
  if granted = required then true
  else if granted = [0x2A] then true
  else if startsWith required (granted ++ [0x3A]) then true
  else if endsWith granted WILD then
    let stem := granted.take (granted.length - 2)
    required = stem || startsWith required (stem ++ [0x3A])
  else false

def scopeAuthorizes (delegationScope : List Str) (required : Str) : Bool :=
  delegationScope.any (fun s => scopeCovers s required)

def Below (stem s : Str) : Prop := s = stem ∨ stem ++ [0x3A] <+: s

/-- The name a grant stands for, without its wildcard. -/
def stemOf (granted : Str) : Str := if endsWith granted WILD then granted.take (granted.length - 2) else granted

/-- A grant that is more than its own name: everything, or a name with all below it. -/
def Wildcard (s : Str) : Prop := s = [0x2A] ∨ ∃ stem, s = stem ++ WILD

theorem stemOf_wild (stem : Str) : stemOf (stem ++ WILD) = stem := by
  have hends : endsWith (stem ++ WILD) WILD = true := List.isSuffixOf_iff_suffix.mpr (List.suffix_append _ _)
  rw [stemOf, if_pos hends, List.length_append]
  exact List.take_left

theorem eq_wild_of_endsWith {granted : Str} (h : endsWith granted WILD = true) :
    granted = stemOf granted ++ WILD := by
  obtain ⟨stem, rfl⟩ := List.isSuffixOf_iff_suffix.mp h
  rw [stemOf_wild]

theorem stemOf_plain {granted : Str} (h : ¬ endsWith granted WILD = true) : stemOf granted = granted := by
  rw [stemOf, if_neg h]

theorem Below.trans {a b c : Str} (hab : Below a b) (hbc : Below b c) : Below a c := by
  obtain rfl | hab := hab
  · exact hbc
  · obtain rfl | hbc := hbc
    · exact .inr hab
    · exact .inr (hab.trans ((List.prefix_append b [0x3A]).trans hbc))

theorem scopeCovers_iff (granted required : Str) :
    scopeCovers granted required = true ↔ granted = [0x2A] ∨ Below (stemOf granted) required := by
  by_cases hstar : granted = [0x2A]
  · have hcovers : scopeCovers granted required = true := by
      rw [scopeCovers, if_pos hstar]
      split <;> rfl
    exact ⟨fun _ => .inl hstar, fun _ => hcovers⟩
  have hstart : ∀ t, startsWith required t = true ↔ t <+: required := fun t => List.isPrefixOf_iff_prefix
  by_cases hends : endsWith granted WILD = true
  · obtain ⟨stem, rfl⟩ := List.isSuffixOf_iff_suffix.mp hends
    have htake : (stem ++ WILD).take ((stem ++ WILD).length - 2) = stem := by
      rw [List.length_append]
      exact List.take_left
    rw [scopeCovers, if_neg hstar, if_pos hends, stemOf_wild, htake]
    have hcolon : stem ++ [0x3A] <+: stem ++ WILD := by
      rw [List.prefix_append_right_inj]
      exact ⟨[0x2A], rfl⟩
    constructor
    · intro h
      refine .inr ?_
      split at h
      · rename_i heq
        rw [← heq]
        exact .inr hcolon
      · split at h
        · rename_i hbelow
          have hlong : stem ++ [0x3A] <+: stem ++ WILD ++ [0x3A] := hcolon.trans (List.prefix_append _ _)
          exact .inr (hlong.trans ((hstart _).mp hbelow))
        · simp only [Bool.or_eq_true, decide_eq_true_eq, hstart] at h
          exact h
    · rintro (h | h)
      · exact absurd h hstar
      · split
        · rfl
        · split
          · rfl
          · simp only [Bool.or_eq_true, decide_eq_true_eq, hstart]
            exact h
  · rw [scopeCovers, if_neg hstar, if_neg hends, stemOf_plain hends]
    constructor
    · intro h
      refine .inr ?_
      split at h
      · rename_i heq
        exact .inl heq.symm
      · split at h
        · rename_i hbelow
          exact .inr ((hstart _).mp hbelow)
        · cases h
    · rintro (h | h | h)
      · exact absurd h hstar
      · rw [if_pos h.symm]
      · rw [if_pos ((hstart _).mpr h)]
        split <;> rfl

theorem below_stem {stem q : Str} (h : Below stem (q ++ WILD)) : q ++ WILD = stem ∨ Below stem q := by
  obtain h | ⟨rest, hrest⟩ := h
  · exact .inl h
  · refine .inr ?_
    -- The colon of the name is one of `q`, or the one before the star.
    rw [List.append_assoc] at hrest
    obtain ⟨k, rfl, hk⟩ | ⟨k, rfl, hk⟩ := List.append_eq_append_iff.mp hrest
    · cases k with
      | nil => exact .inl (List.append_nil _)
      | cons c k =>
        refine .inr ⟨k, ?_⟩
        rw [List.cons_append, List.nil_append, List.cons_append, List.cons.injEq] at hk
        rw [← hk.1, List.append_assoc]
        rfl
    · have hnil : k = [] := by
        match k, hk with
        | [], _ => rfl
        | [c], hk => cases hk
        | [c, d], hk => cases hk
        | c :: d :: e :: k, hk => cases hk
      rw [hnil, List.append_nil]
      exact .inl rfl

theorem star_of_below {stem : Str} (h : Below stem [0x2A]) : stem = [0x2A] := by
  obtain h | ⟨rest, hrest⟩ := h
  · exact h.symm
  · match stem, hrest with
    | [], hrest => cases hrest
    | [c], hrest => cases hrest
    | c :: d :: stem, hrest => cases hrest

theorem scopeCovers_trans {a b c : Str} (hab : scopeCovers a b = true) (hbc : scopeCovers b c = true)
    (h : Wildcard b → a ≠ b ++ WILD) : scopeCovers a c = true := by
  rw [scopeCovers_iff] at *
  obtain hstar | hbelow := hab
  · exact .inl hstar
  obtain rfl | hbc := hbc
  · have hstem := star_of_below hbelow
    by_cases hends : endsWith a WILD = true
    · exact absurd (hstem ▸ eq_wild_of_endsWith hends) (h (.inl rfl))
    · exact .inl ((stemOf_plain hends).symm.trans hstem)
  · refine .inr ?_
    by_cases hends : endsWith b WILD = true
    · have hb := eq_wild_of_endsWith hends
      rw [hb] at hbelow
      obtain heq | hbelow := below_stem hbelow
      · by_cases hwild : endsWith a WILD = true
        · exact absurd (by rw [eq_wild_of_endsWith hwild, ← heq, ← hb]) (h (.inr ⟨_, hb⟩))
        · rw [stemOf_plain hwild] at heq
          exact absurd (List.isSuffixOf_iff_suffix.mpr ⟨_, heq⟩) hwild
      · exact hbelow.trans hbc
    · rw [stemOf_plain hends] at hbc
      exact hbelow.trans hbc

theorem authorizes_iff {scope : List Str} {t : Str} :
    scopeAuthorizes scope t = true ↔ ∃ g ∈ scope, scopeCovers g t = true := by
  rw [scopeAuthorizes, List.any_eq_true]

/-- Every wildcard of the narrower scope is covered by a grant other than that wildcard with one
more behind it. -/
def WildcardsCovered (parent child : List Str) : Prop :=
  ∀ s ∈ child, Wildcard s → ∃ g ∈ parent, scopeCovers g s = true ∧ g ≠ s ++ WILD

theorem authorizes_of_covered {parent child : List Str} (hcover : ∀ s ∈ child, ∃ g ∈ parent, scopeCovers g s = true)
    (h : WildcardsCovered parent child) {t : Str} (ht : scopeAuthorizes child t = true) :
    scopeAuthorizes parent t = true := by
  rw [authorizes_iff] at ht ⊢
  obtain ⟨s, hs, hst⟩ := ht
  by_cases hwild : Wildcard s
  · obtain ⟨g, hg, hgs, hne⟩ := h s hs hwild
    exact ⟨g, hg, scopeCovers_trans hgs hst (fun _ => hne)⟩
  · obtain ⟨g, hg, hgs⟩ := hcover s hs
    exact ⟨g, hg, scopeCovers_trans hgs hst (fun hw => absurd hw hwild)⟩

/-- A text longer than every grant and without a colon. -/
def longName (scope : List Str) : Str := List.replicate (scope.flatten.length + 1) 0x78

theorem stemOf_length (g : Str) : (stemOf g).length ≤ g.length := by
  unfold stemOf
  split
  · rw [List.length_take]
    omega
  · exact le_rfl

theorem star_of_covers_longName {scope : List Str} {g : Str} (hg : g ∈ scope)
    (h : scopeCovers g (longName scope) = true) : g = [0x2A] := by
  rw [scopeCovers_iff] at h
  obtain h | h | h := h
  · exact h
  · have hlen := congrArg List.length h
    have hle := stemOf_length g
    have hsum := (List.sublist_flatten_of_mem hg).length_le
    rw [longName, List.length_replicate] at hlen
    omega
  · have hcolon : (0x3A : UInt16) ∈ longName scope := h.subset (by simp)
    exact absurd (List.eq_of_mem_replicate hcolon) (by decide)

theorem covers_wild {g stem : Str} (h : scopeCovers g stem = true) :
    scopeCovers g (stem ++ WILD) = true ∧ g ≠ stem ++ WILD ++ WILD := by
  rw [scopeCovers_iff] at h ⊢
  have hbelow : Below stem (stem ++ WILD) := by
    refine .inr ?_
    rw [List.prefix_append_right_inj]
    exact ⟨[0x2A], rfl⟩
  refine ⟨h.imp_right (fun hstem => hstem.trans hbelow), ?_⟩
  rintro rfl
  rw [stemOf_wild] at h
  obtain h | h | h := h
  · have hlen := congrArg List.length h
    simp [WILD] at hlen
  · have hlen := congrArg List.length h
    simp [WILD] at hlen
  · have hlen := h.length_le
    simp [WILD] at hlen

theorem authorizes_kept_iff {parent child : List Str}
    (hcover : ∀ s ∈ child, ∃ g ∈ parent, scopeCovers g s = true) :
    (∀ t, scopeAuthorizes child t = true → scopeAuthorizes parent t = true) ↔
      WildcardsCovered parent child := by
  constructor
  · intro h s hs hwild
    obtain rfl | ⟨stem, rfl⟩ := hwild
    · have hall : scopeAuthorizes child (longName parent) = true :=
        authorizes_iff.mpr ⟨_, hs, (scopeCovers_iff _ _).mpr (.inl rfl)⟩
      obtain ⟨g, hg, hcovers⟩ := authorizes_iff.mp (h _ hall)
      have hstar := star_of_covers_longName hg hcovers
      exact ⟨g, hg, (scopeCovers_iff _ _).mpr (.inl hstar), by rw [hstar]; decide⟩
    · have hstem : scopeAuthorizes child stem = true :=
        authorizes_iff.mpr ⟨_, hs, (scopeCovers_iff _ _).mpr (.inr (.inl (stemOf_wild stem).symm))⟩
      obtain ⟨g, hg, hcovers⟩ := authorizes_iff.mp (h _ hstem)
      obtain ⟨hwide, hne⟩ := covers_wild hcovers
      exact ⟨g, hg, hwide, hne⟩
  · exact fun h t ht => authorizes_of_covered hcover h ht

end AgentPassport.LegacyScope
