import AgentPassport.DelegationSchema

/-! The seven-facet comparison of a child against its parent
(`v2/authority-delegation/compare.ts`), and the order it decides over any number of hops. -/
namespace AgentPassport.DelegationCompare
open JsText DelegationScope DelegationSchema

def reversibilityRank (ceiling : Str) : Option Nat :=
  if ceiling = lit "tentative" then some 0
  else if ceiling = lit "compensable" then some 1
  else if ceiling = lit "irreversible" then some 2
  else none

def fail (code : AuthorityFailureCode) (facet : Facet) (message : String) : List AuthorityFailure :=
  [⟨code, message, none, some facet⟩]

/-- A facet with a profile is compared only under the same one. -/
def underProfile (parent child : Str) (facet : Facet) (message : String)
    (comparison : List AuthorityFailure) : List AuthorityFailure :=
  if child ≠ parent then fail .UNSUPPORTED_PROFILE facet message else comparison

def compareScope (parent child : ScopeFacet) : List AuthorityFailure :=
  underProfile parent.profile child.profile .scope "scope profile changes are incomparable"
    (if !scopeNarrows parent.grants child.grants then
      fail .SCOPE_WIDENING .scope "child scope is not covered by parent scope"
    else [])

def compareSpend : SpendFacet → SpendFacet → List AuthorityFailure
  | .unbounded, _ => []
  | .bounded .., .unbounded => fail .SPEND_WIDENING .spend "bounded parent cannot produce unbounded child"
  | .bounded unit perAction cumulative, .bounded childUnit childPerAction childCumulative =>
    if childUnit ≠ unit then fail .SPEND_UNIT_CHANGE .spend "bounded spend unit must remain exact"
    else if bigInt perAction < bigInt childPerAction ∨ bigInt cumulative < bigInt childCumulative then
      fail .SPEND_WIDENING .spend "child spend limits exceed parent limits"
    else []

def compareDepth (parent child : Nat) : List AuthorityFailure :=
  if parent = 0 then fail .DEPTH_EXHAUSTED .depth "parent has no remaining delegation hop"
  else if parent - 1 < child then
    fail .DEPTH_WIDENING .depth "child remaining depth must consume at least one hop"
  else []

def compareTime (parent child : TimeFacet) : List AuthorityFailure :=
  if child.notBefore < parent.notBefore ∨ parent.notAfter < child.notAfter then
    fail .TIME_WIDENING .time "child validity window is not contained in parent window"
  else []

def compareReputation (parent child : ReputationFacet) : List AuthorityFailure :=
  underProfile parent.profile child.profile .reputation "reputation profile changes are incomparable"
    (if parent.ceiling < child.ceiling then
      fail .REPUTATION_WIDENING .reputation "child reputation ceiling exceeds parent"
    else [])

def compareValues (parent child : ValuesFacet) : List AuthorityFailure :=
  underProfile parent.profile child.profile .values "values profile changes are incomparable"
    (if parent.required.any (fun identifier => !child.required.contains identifier) then
      fail .VALUES_WEAKENING .values "child removed an ancestor-required value identifier"
    else [])

def compareReversibility (parent child : ReversibilityFacet) : List AuthorityFailure :=
  underProfile parent.profile child.profile .reversibility "reversibility profile changes are incomparable"
    (match reversibilityRank child.ceiling, reversibilityRank parent.ceiling with
    | some childRank, some parentRank =>
      if parentRank < childRank then
        fail .REVERSIBILITY_WIDENING .reversibility "child reversibility ceiling exceeds parent"
      else []
    | _, _ => fail .REVERSIBILITY_WIDENING .reversibility "child reversibility ceiling exceeds parent")

def compareAuthority (parent child : AuthorityVector) : List AuthorityFailure :=
  compareScope parent.scope child.scope ++ compareSpend parent.spend child.spend ++
    compareDepth parent.remaining child.remaining ++ compareTime parent.time child.time ++
    compareReputation parent.reputation child.reputation ++ compareValues parent.values child.values ++
    compareReversibility parent.reversibility child.reversibility

/-- A bounded spend stays bounded in its unit, with limits that are not larger. -/
def SpendWithin : SpendFacet → SpendFacet → Prop
  | .unbounded, _ => True
  | .bounded .., .unbounded => False
  | .bounded unit perAction cumulative, .bounded childUnit childPerAction childCumulative =>
    childUnit = unit ∧ bigInt childPerAction ≤ bigInt perAction ∧ bigInt childCumulative ≤ bigInt cumulative

/-- What a descendant may do, so many hops below an ancestor. -/
structure Narrower (hops : Nat) (ancestor descendant : AuthorityVector) : Prop where
  scope : GrantsCovered ancestor.scope.grants descendant.scope.grants
  spend : SpendWithin ancestor.spend descendant.spend
  depth : descendant.remaining + hops ≤ ancestor.remaining
  notBefore : ancestor.time.notBefore ≤ descendant.time.notBefore
  notAfter : descendant.time.notAfter ≤ ancestor.time.notAfter
  reputation : descendant.reputation.ceiling ≤ ancestor.reputation.ceiling
  values : ∀ identifier ∈ ancestor.values.required, identifier ∈ descendant.values.required
  reversibility : ∃ low high, reversibilityRank descendant.reversibility.ceiling = some low ∧
    reversibilityRank ancestor.reversibility.ceiling = some high ∧ low ≤ high

theorem underProfile_eq_nil {parent child : Str} {facet : Facet} {message : String}
    {comparison : List AuthorityFailure} (h : underProfile parent child facet message comparison = []) :
    comparison = [] := by
  unfold underProfile at h
  split at h
  · cases h
  · exact h

theorem compareSpend_within {parent child : SpendFacet} (h : compareSpend parent child = []) :
    SpendWithin parent child := by
  cases parent with
  | unbounded => exact trivial
  | bounded unit perAction cumulative =>
    cases child with
    | unbounded => cases h
    | bounded unit' perAction' cumulative' =>
      simp only [compareSpend] at h
      split at h
      · cases h
      rename_i hunit
      split at h
      · cases h
      · rename_i hlimits
        obtain ⟨hper, hcum⟩ := not_or.mp hlimits
        exact ⟨not_not.mp hunit, not_lt.mp hper, not_lt.mp hcum⟩

theorem compareDepth_hop {parent child : Nat} (h : compareDepth parent child = []) : child + 1 ≤ parent := by
  unfold compareDepth at h
  split at h
  · cases h
  split at h
  · cases h
  · omega

theorem compareTime_inside {parent child : TimeFacet} (h : compareTime parent child = []) :
    parent.notBefore ≤ child.notBefore ∧ child.notAfter ≤ parent.notAfter := by
  unfold compareTime at h
  split at h
  · cases h
  · rename_i hwindow
    obtain ⟨hbefore, hafter⟩ := not_or.mp hwindow
    exact ⟨List.not_lt.mp hbefore, List.not_lt.mp hafter⟩

theorem narrower_of_compare {parent child : AuthorityVector} (h : compareAuthority parent child = []) :
    Narrower 1 parent child := by
  simp only [compareAuthority, List.append_eq_nil_iff] at h
  obtain ⟨⟨⟨⟨⟨⟨hscope, hspend⟩, hdepth⟩, htime⟩, hreputation⟩, hvalues⟩, hreversibility⟩ := h
  have hscope := underProfile_eq_nil hscope
  have hreputation := underProfile_eq_nil hreputation
  have hvalues := underProfile_eq_nil hvalues
  have hreversibility := underProfile_eq_nil hreversibility
  refine ⟨?_, compareSpend_within hspend, compareDepth_hop hdepth, (compareTime_inside htime).1,
    (compareTime_inside htime).2, ?_, ?_, ?_⟩
  · split at hscope
    · cases hscope
    · rename_i hnarrows
      exact covered_of_narrows (by simpa using hnarrows)
  · split at hreputation
    · cases hreputation
    · omega
  · split at hvalues
    · cases hvalues
    · rename_i hkept
      intro identifier hid
      by_contra hmissing
      refine hkept (List.any_eq_true.mpr ⟨identifier, hid, ?_⟩)
      simpa using hmissing
  · split at hreversibility
    · rename_i low high hlow hhigh
      split at hreversibility
      · cases hreversibility
      · exact ⟨low, high, hlow, hhigh, by omega⟩
    · cases hreversibility

theorem spendWithin_trans {a b c : SpendFacet} (hab : SpendWithin a b) (hbc : SpendWithin b c) :
    SpendWithin a c := by
  cases a with
  | unbounded => exact trivial
  | bounded unit perAction cumulative =>
    cases b with
    | unbounded => exact hab.elim
    | bounded unit' perAction' cumulative' =>
      cases c with
      | unbounded => exact hbc.elim
      | bounded unit'' perAction'' cumulative'' =>
        exact ⟨hbc.1.trans hab.1, hbc.2.1.trans hab.2.1, hbc.2.2.trans hab.2.2⟩

theorem Narrower.trans {k m : Nat} {a b c : AuthorityVector} (hwf : WellFormedAuthority a)
    (hab : Narrower k a b) (hbc : Narrower m b c) : Narrower (k + m) a c := by
  obtain ⟨low, mid, hlow, hmid, hle⟩ := hbc.reversibility
  obtain ⟨mid', high, hmid', hhigh, hle'⟩ := hab.reversibility
  have hmids : mid = mid' := Option.some.inj (hmid.symm.trans hmid')
  have hdepth := hab.depth
  have hdepth' := hbc.depth
  exact {
    scope := grantsCovered_trans (valid_of_canonical hwf.grants) hab.scope hbc.scope
    spend := spendWithin_trans hab.spend hbc.spend
    depth := by omega
    notBefore := List.le_trans hab.notBefore hbc.notBefore
    notAfter := List.le_trans hbc.notAfter hab.notAfter
    reputation := hbc.reputation.trans hab.reputation
    values := fun identifier hid => hbc.values identifier (hab.values identifier hid)
    reversibility := ⟨low, high, hlow, hhigh, by omega⟩ }

end AgentPassport.DelegationCompare
