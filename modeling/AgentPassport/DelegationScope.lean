import AgentPassport.JsValue
import AgentPassport.SeparatedText

/-! Scope grants (`v2/authority-delegation/scope.ts`): colon-separated segments with a
terminal wildcard, the pairwise cover relation and the set lookup that replaces it. -/
namespace AgentPassport.DelegationScope
open JsText SeparatedText

/-- `s.split(sep)` for a separator of one unit. -/
def splitOn (sep : UInt16) : Str → List Str
  | [] => [[]]
  | c :: rest =>
    if c = sep then [] :: splitOn sep rest
    else match splitOn sep rest with
      | [] => [[c]]
      | s :: ss => (c :: s) :: ss

def endsWithWild (grant : Str) : Bool := 2 ≤ grant.length && grant.drop (grant.length - 2) = lit ":*"

def stripWild (grant : Str) : Str := if endsWithWild grant then grant.take (grant.length - 2) else grant

def startsWith (s start : Str) : Bool := s.take start.length = start

def isValidScopeGrant (grant : Str) : Bool :=
  if grant = [] then false
  else if !grant.all (fun c => decide (c < 0x80)) then false
  else if grant = lit "*" then true
  else
    let parts := splitOn 0x3A grant
    let parts := if parts.getLast? = some (lit "*") then parts.dropLast else parts
    !parts.isEmpty && parts.all (fun part => !part.isEmpty && !part.contains 0x2A)

def scopeGrantCovers (parent child : Str) : Bool :=
  if parent = lit "*" then true
  else if endsWithWild parent then
    stripWild child = stripWild parent || startsWith (stripWild child) (stripWild parent ++ lit ":")
  else parent = child

/-- The leading segments of a grant, each run of them with a terminal wildcard. -/
def candidates (grant : Str) : List Str :=
  let segments := splitOn 0x3A (stripWild grant)
  (List.range segments.length).map (fun m => join 0x3A (segments.take (m + 1)) ++ lit ":*")

/-- Strictly ascending: sorted and free of repetitions. -/
def ascending : List Str → Bool
  | [] => true
  | [_] => true
  | a :: b :: rest => a < b && ascending (b :: rest)

def grantsAreCanonical (grants : List Str) : Bool :=
  grants.all isValidScopeGrant && ascending grants &&
    grants.all (fun grant => grant = lit "*" || (!grants.contains (lit "*") &&
      (candidates grant).all (fun candidate => candidate = grant || !grants.contains candidate)))

def scopeNarrows (parent child : List Str) : Bool :=
  parent.contains (lit "*") || child.all (fun grant =>
    parent.contains grant || (candidates grant).any (fun candidate => parent.contains candidate))

theorem splitOn_ne_nil (sep : UInt16) (s : Str) : splitOn sep s ≠ [] := by
  cases s with
  | nil => simp [splitOn]
  | cons c rest =>
    rw [splitOn]
    split
    · simp
    split
    · simp
    · simp

theorem splitOn_append (sep : UInt16) (s t : Str) : splitOn sep (s ++ sep :: t) = splitOn sep s ++ splitOn sep t := by
  induction s with
  | nil =>
    have hcons : splitOn sep (sep :: t) = [] :: splitOn sep t := by rw [splitOn, if_pos rfl]
    exact hcons
  | cons c rest ih =>
    rw [List.cons_append, splitOn, splitOn, ih]
    by_cases hc : c = sep
    · rw [if_pos hc, if_pos hc, List.cons_append]
    · rw [if_neg hc, if_neg hc]
      obtain ⟨x, xs, hsplit⟩ := List.exists_cons_of_ne_nil (splitOn_ne_nil sep rest)
      rw [hsplit]
      rfl

theorem splitOn_notMem {sep : UInt16} {s : Str} (h : sep ∉ s) : splitOn sep s = [s] := by
  induction s with
  | nil => rfl
  | cons c s ih =>
    have hc : c ≠ sep := fun heq => h (heq ▸ List.mem_cons_self)
    rw [splitOn, if_neg hc, ih fun hmem => h (List.mem_cons_of_mem c hmem)]

theorem join_splitOn (sep : UInt16) (s : Str) : join sep (splitOn sep s) = s := by
  induction s with
  | nil => rfl
  | cons c rest ih =>
    rw [splitOn]
    split
    · rename_i hc
      obtain ⟨x, xs, hsplit⟩ := List.exists_cons_of_ne_nil (splitOn_ne_nil sep rest)
      rw [hsplit] at ih ⊢
      rw [join, ih, hc]
      rfl
    · cases hsplit : splitOn sep rest with
      | nil => exact absurd hsplit (splitOn_ne_nil sep rest)
      | cons x xs =>
        rw [hsplit, join_cons] at ih
        rw [join_cons, List.cons_append, ih]

theorem join_append (sep : UInt16) {xs ys : List Str} (hx : xs ≠ []) (hy : ys ≠ []) :
    join sep (xs ++ ys) = join sep xs ++ sep :: join sep ys := by
  obtain ⟨x, xs, rfl⟩ := List.exists_cons_of_ne_nil hx
  obtain ⟨y, ys, rfl⟩ := List.exists_cons_of_ne_nil hy
  rw [List.cons_append, join_cons, join_cons, join_cons, List.append_assoc]
  simp [tail]

theorem join_take_splitOn (sep : UInt16) (s : Str) (m : Nat) :
    s = join sep ((splitOn sep s).take (m + 1)) ∨
      ∃ rest, s = join sep ((splitOn sep s).take (m + 1)) ++ sep :: rest := by
  by_cases hlast : (splitOn sep s).drop (m + 1) = []
  · left
    have htake : (splitOn sep s).take (m + 1) = splitOn sep s := by
      conv_rhs => rw [← List.take_append_drop (m + 1) (splitOn sep s), hlast, List.append_nil]
    rw [htake, join_splitOn]
  · right
    have hne : (splitOn sep s).take (m + 1) ≠ [] := by
      rw [Ne, List.take_eq_nil_iff]
      simp [splitOn_ne_nil]
    refine ⟨join sep ((splitOn sep s).drop (m + 1)), ?_⟩
    rw [← join_append sep hne hlast, List.take_append_drop, join_splitOn]

theorem endsWithWild_append (s : Str) : endsWithWild (s ++ lit ":*") = true := by
  have hlen : (lit ":*").length = 2 := rfl
  simp [endsWithWild, hlen]

theorem stripWild_append (s : Str) : stripWild (s ++ lit ":*") = s := by
  have hlen : (lit ":*").length = 2 := rfl
  rw [stripWild, if_pos (endsWithWild_append s)]
  simp [hlen]

theorem startsWith_iff (s start : Str) : startsWith s start = true ↔ ∃ rest, s = start ++ rest := by
  unfold startsWith
  rw [decide_eq_true_eq]
  constructor
  · intro h
    refine ⟨s.drop start.length, ?_⟩
    conv_lhs => rw [← List.take_append_drop start.length s, h]
  · rintro ⟨rest, rfl⟩
    simp

theorem covers_wild_iff {parent child : Str} (hwild : endsWithWild parent = true) :
    scopeGrantCovers parent child = true ↔
      stripWild child = stripWild parent ∨ ∃ rest, stripWild child = stripWild parent ++ 0x3A :: rest := by
  have hstar : parent ≠ lit "*" := by
    rintro rfl
    revert hwild
    decide
  rw [scopeGrantCovers, if_neg hstar, if_pos hwild, Bool.or_eq_true, decide_eq_true_eq, startsWith_iff]
  simp only [List.append_assoc]
  exact Iff.rfl

theorem covers_refl (grant : Str) : scopeGrantCovers grant grant = true := by
  by_cases hwild : endsWithWild grant = true
  · exact (covers_wild_iff hwild).mpr (.inl rfl)
  · rw [scopeGrantCovers, if_neg hwild]
    simp

theorem covers_star (grant : Str) : scopeGrantCovers (lit "*") grant = true := by
  rw [scopeGrantCovers, if_pos rfl]

theorem candidate_covers {grant candidate : Str} (h : candidate ∈ candidates grant) :
    scopeGrantCovers candidate grant = true := by
  obtain ⟨m, -, rfl⟩ := List.mem_map.mp h
  rw [covers_wild_iff (endsWithWild_append _), stripWild_append]
  exact join_take_splitOn 0x3A (stripWild grant) m

/-- Every grant of `child` is covered by a grant of `parent`. -/
def GrantsCovered (parent child : List Str) : Prop :=
  ∀ c ∈ child, ∃ p ∈ parent, scopeGrantCovers p c = true

theorem covered_of_narrows {parent child : List Str} (h : scopeNarrows parent child = true) :
    GrantsCovered parent child := by
  intro c hc
  obtain hstar | hall := (Bool.or_eq_true _ _).mp h
  · exact ⟨lit "*", List.contains_iff_mem.mp hstar, covers_star c⟩
  · obtain hself | hcand := (Bool.or_eq_true _ _).mp (List.all_eq_true.mp hall c hc)
    · exact ⟨c, List.contains_iff_mem.mp hself, covers_refl c⟩
    · obtain ⟨candidate, hmem, hparent⟩ := List.any_eq_true.mp hcand
      exact ⟨candidate, List.contains_iff_mem.mp hparent, candidate_covers hmem⟩

theorem wild_eq {grant : Str} (h : endsWithWild grant = true) : grant = stripWild grant ++ lit ":*" := by
  have hdrop : grant.drop (grant.length - 2) = lit ":*" := by
    simp only [endsWithWild, Bool.and_eq_true, decide_eq_true_eq] at h
    exact h.2
  rw [stripWild, if_pos h, ← hdrop, List.take_append_drop]

theorem covers_wildcard {parent : Str} (hvalid : isValidScopeGrant parent = true)
    (h : scopeGrantCovers parent (lit "*") = true) : parent = lit "*" := by
  by_cases hwild : endsWithWild parent = true
  · exfalso
    have hstrip : stripWild (lit "*") = lit "*" := by decide
    rw [covers_wild_iff hwild, hstrip] at h
    obtain heq | ⟨rest, heq⟩ := h
    · rw [wild_eq hwild, ← heq] at hvalid
      revert hvalid
      decide
    · cases hhead : stripWild parent with
      | nil =>
        rw [hhead] at heq
        cases heq
      | cons c s =>
        rw [hhead] at heq
        have hlen := congrArg List.length heq
        have hone : (lit "*").length = 1 := rfl
        rw [hone, List.length_append, List.length_cons, List.length_cons] at hlen
        omega
  · by_cases hstar : parent = lit "*"
    · exact hstar
    · rw [scopeGrantCovers, if_neg hstar, if_neg hwild, decide_eq_true_eq] at h
      exact h

theorem covers_trans {a b c : Str} (hvalid : isValidScopeGrant a = true)
    (hab : scopeGrantCovers a b = true) (hbc : scopeGrantCovers b c = true) :
    scopeGrantCovers a c = true := by
  by_cases hbstar : b = lit "*"
  · subst hbstar
    rw [covers_wildcard hvalid hab]
    exact covers_star c
  by_cases hbwild : endsWithWild b = true
  · by_cases hawild : endsWithWild a = true
    · rw [covers_wild_iff hawild] at hab ⊢
      rw [covers_wild_iff hbwild] at hbc
      obtain hb | ⟨r, hb⟩ := hab <;> obtain hc | ⟨r', hc⟩ := hbc
      · exact .inl (hc.trans hb)
      · exact .inr ⟨r', by rw [hc, hb]⟩
      · exact .inr ⟨r, by rw [hc, hb]⟩
      · exact .inr ⟨r ++ 0x3A :: r', by rw [hc, hb]; simp⟩
    · by_cases hastar : a = lit "*"
      · rw [hastar]
        exact covers_star c
      · rw [scopeGrantCovers, if_neg hastar, if_neg hawild, decide_eq_true_eq] at hab
        rw [hab]
        exact hbc
  · rw [scopeGrantCovers, if_neg hbstar, if_neg hbwild, decide_eq_true_eq] at hbc
    rw [← hbc]
    exact hab

theorem grantsCovered_trans {as bs cs : List Str} (hvalid : ∀ a ∈ as, isValidScopeGrant a = true)
    (hab : GrantsCovered as bs) (hbc : GrantsCovered bs cs) : GrantsCovered as cs := by
  intro c hc
  obtain ⟨b, hb, hcov⟩ := hbc c hc
  obtain ⟨a, ha, hcov'⟩ := hab b hb
  exact ⟨a, ha, covers_trans (hvalid a ha) hcov' hcov⟩

theorem valid_of_canonical {grants : List Str} (h : grantsAreCanonical grants = true) :
    ∀ g ∈ grants, isValidScopeGrant g = true := by
  simp only [grantsAreCanonical, Bool.and_eq_true] at h
  exact List.all_eq_true.mp h.1.1

end AgentPassport.DelegationScope
