import AgentPassport.ArraySort
import AgentPassport.JsArithmetic
import AgentPassport.LegacyScope
import AgentPassport.MapLoops
import AgentPassport.PolicyCycles

/-! Rules that can never fire (`core/policy-conflict.ts`): what counts as shadowing, and when ties of priority make the
report depend on the order of the rules. -/
namespace AgentPassport.ShadowedRules
open JsText Js ArraySort PolicyCycles
open LegacyScope (startsWith endsWith)

/-- The text of a number in a message. -/
structure Runtime where
  numberText : JsNumber → Str

structure ShadowedRule where
  shadowedRuleId : Str
  shadowedByRuleId : Str
  reason : Str
  deriving DecidableEq

def scopeCovers (scopeA scopeB : Str) : Bool :=
  if scopeA = lit "*" then true
  else if scopeA = scopeB then true
  else if endsWith scopeA (lit ":*") then startsWith scopeB scopeA.dropLast
  else startsWith scopeB (scopeA ++ lit ":")

/-- `condB[key] !== value` for no member of `condA`; what an object inherits is never a string. -/
def conditionsSubset (condA condB : OrderedMap Str Str) : Bool :=
  condA.entries.all (fun entry => condB.get entry.1 = some entry.2)

/-- The test of the inner loop. -/
def shadows (higher candidate : PolicyRule) : Bool :=
  scopeCovers higher.actionScope candidate.actionScope && conditionsSubset higher.conditions candidate.conditions

def report (R : Runtime) (higher candidate : PolicyRule) : ShadowedRule where
  shadowedRuleId := candidate.ruleId
  shadowedByRuleId := higher.ruleId
  reason := lit "Rule " ++ higher.ruleId ++ lit " (priority " ++ R.numberText higher.priority ++
    lit ") covers same scope \"" ++ candidate.actionScope ++ lit "\" with equal or broader conditions"

/-- The loops over the sorted rules: the ones before the candidate, then the candidate and what follows. -/
def scan (R : Runtime) : List PolicyRule → List PolicyRule → List ShadowedRule
  | _, [] => []
  | before, candidate :: rest =>
    match before.find? (shadows · candidate) with
    | none => scan R (before ++ [candidate]) rest
    | some higher => report R higher candidate :: scan R (before ++ [candidate]) rest

/-- What a comparator's number says; NaN counts as zero. -/
def sortOrder (v : JsNumber) : Ordering :=
  if v.lt (zeroOf false) then .lt else if (zeroOf false).lt v then .gt else .eq

/-- `(a, b) => b.priority - a.priority`. -/
def byPriority (a b : PolicyRule) : Ordering := sortOrder (b.priority.sub a.priority)

/-- What `detectShadowedRules(rules)` may return. -/
def DetectsShadowed (R : Runtime) (rules : List PolicyRule) (shadowed : List ShadowedRule) : Prop :=
  ∃ sorted, Sorts byPriority rules sorted ∧ shadowed = scan R [] sorted

/-- The scope of one rule covers that of the other, and its conditions are among the other's. -/
def Shadows (higher candidate : PolicyRule) : Prop :=
  scopeCovers higher.actionScope candidate.actionScope = true ∧
    higher.conditions.entries ⊆ candidate.conditions.entries

def Higher (a b : PolicyRule) : Prop := b.priority.lt a.priority = true

def ShadowedByHigher (rules : List PolicyRule) (r : PolicyRule) : Prop := ∃ h ∈ rules, Shadows h r ∧ Higher h r

/-- Every outcome reports the rules shadowed by a strictly higher one, each with such a rule, in whatever order the
rules come. -/
structure ShadowingExact (R : Runtime) (rules : List PolicyRule) : Prop where
  returns : ∃ shadowed, DetectsShadowed R rules shadowed
  exact : ∀ shadowed, DetectsShadowed R rules shadowed → ∀ r ∈ rules,
    r.ruleId ∈ shadowed.map (·.shadowedRuleId) ↔ ShadowedByHigher rules r
  sound : ∀ shadowed, DetectsShadowed R rules shadowed → ∀ e ∈ shadowed, ∃ r ∈ rules, ∃ h ∈ rules,
    e.shadowedRuleId = r.ruleId ∧ e.shadowedByRuleId = h.ruleId ∧ Shadows h r ∧ Higher h r
  unordered : ∀ others, rules.Perm others → ∀ shadowed shadowed', DetectsShadowed R rules shadowed →
    DetectsShadowed R others shadowed' →
    ∀ id, id ∈ shadowed.map (·.shadowedRuleId) ↔ id ∈ shadowed'.map (·.shadowedRuleId)

/-- A rule shadowed by another of equal priority is shadowed by a strictly higher one too; where the priorities do not
order the rules, none is shadowed by another. -/
structure TiesCovered (rules : List PolicyRule) : Prop where
  ties : Consistent byPriority rules → ∀ r ∈ rules, ∀ h ∈ rules, h.ruleId ≠ r.ruleId → byPriority h r = .eq →
    Shadows h r → ShadowedByHigher rules r
  unranked : ¬ Consistent byPriority rules → ∀ r ∈ rules, ∀ h ∈ rules, h.ruleId ≠ r.ruleId → ¬ Shadows h r

theorem shadows_iff (higher candidate : PolicyRule) : shadows higher candidate = true ↔ Shadows higher candidate := by
  rw [shadows, Bool.and_eq_true, conditionsSubset, List.all_eq_true, Shadows]
  refine and_congr_right' (forall_congr' fun entry => imp_congr_right fun _ => ?_)
  rw [decide_eq_true_iff]
  exact OrderedMap.mem_entries.symm

theorem byPriority_lt (a b : PolicyRule) : byPriority a b = .lt ↔ Higher a b := by
  rw [byPriority, sortOrder, JsNumber.sub_neg, JsNumber.sub_pos, Higher]
  split
  · exact ⟨fun _ => by assumption, fun _ => rfl⟩
  · split
    · exact ⟨nofun, fun h => absurd h (by assumption)⟩
    · exact ⟨nofun, fun h => absurd h (by assumption)⟩

theorem byPriority_gt (a b : PolicyRule) : byPriority a b = .gt ↔ Higher b a := by
  rw [byPriority, sortOrder, JsNumber.sub_neg, JsNumber.sub_pos, Higher]
  split
  · rename_i hlt
    refine ⟨nofun, fun h => ?_⟩
    rw [JsNumber.lt_asymm hlt] at h
    exact absurd h (by decide)
  · split
    · exact ⟨fun _ => by assumption, fun _ => rfl⟩
    · exact ⟨nofun, fun h => absurd h (by assumption)⟩

theorem byPriority_eq (a b : PolicyRule) :
    byPriority a b = .eq ↔ a.priority.lt b.priority = false ∧ b.priority.lt a.priority = false := by
  rw [← Bool.not_eq_true, ← Bool.not_eq_true]
  change _ ↔ ¬ Higher b a ∧ ¬ Higher a b
  rw [← byPriority_gt a b, ← byPriority_lt a b]
  cases byPriority a b <;> simp

theorem mem_scan {R : Runtime} {before sorted : List PolicyRule} {e : ShadowedRule} :
    e ∈ scan R before sorted ↔ ∃ front candidate back higher, sorted = front ++ candidate :: back ∧
      (before ++ front).find? (shadows · candidate) = some higher ∧ e = report R higher candidate := by
  induction sorted generalizing before with
  | nil =>
    refine ⟨fun h => absurd h List.not_mem_nil, ?_⟩
    rintro ⟨front, candidate, back, _, hsplit, _⟩
    exact absurd hsplit (List.append_ne_nil_of_right_ne_nil front (List.cons_ne_nil candidate back)).symm
  | cons c rest ih =>
    have hlater : e ∈ scan R (before ++ [c]) rest ↔ ∃ front candidate back higher,
        rest = front ++ candidate :: back ∧
          (before ++ c :: front).find? (shadows · candidate) = some higher ∧ e = report R higher candidate := by
      rw [ih]
      simp only [List.append_assoc, List.cons_append, List.nil_append]
    have hscan : e ∈ scan R before (c :: rest) ↔
        (∃ higher, before.find? (shadows · c) = some higher ∧ e = report R higher c) ∨
          e ∈ scan R (before ++ [c]) rest := by
      rw [scan]
      split
      · rename_i hnone
        rw [hnone]
        exact ⟨.inr, fun h => h.resolve_left (fun ⟨_, h, _⟩ => absurd h (Option.some_ne_none _).symm)⟩
      · rename_i higher hsome
        rw [hsome, List.mem_cons]
        exact or_congr_left ⟨fun h => ⟨higher, rfl, h⟩, fun ⟨_, h, he⟩ => Option.some.inj h ▸ he⟩
    rw [hscan, hlater]
    constructor
    · rintro (⟨higher, hfind, he⟩ | ⟨front, candidate, back, higher, hsplit, hfind, he⟩)
      · exact ⟨[], c, rest, higher, rfl, (List.append_nil before).symm ▸ hfind, he⟩
      · exact ⟨c :: front, candidate, back, higher, congrArg (c :: ·) hsplit, hfind, he⟩
    · rintro ⟨front, candidate, back, higher, hsplit, hfind, he⟩
      cases front with
      | nil =>
        obtain ⟨rfl, rfl⟩ := List.cons.inj hsplit
        exact .inl ⟨higher, (List.append_nil before) ▸ hfind, he⟩
      | cons d front =>
        obtain ⟨rfl, rfl⟩ := List.cons.inj hsplit
        exact .inr ⟨front, candidate, back, higher, rfl, hfind, he⟩

theorem reported_iff {R : Runtime} {sorted : List PolicyRule} (hids : (sorted.map (·.ruleId)).Nodup) {r : PolicyRule}
    (hr : r ∈ sorted) : r.ruleId ∈ (scan R [] sorted).map (·.shadowedRuleId) ↔
      ∃ front back, sorted = front ++ r :: back ∧ ∃ h ∈ front, Shadows h r := by
  rw [List.mem_map]
  constructor
  · rintro ⟨e, he, hid⟩
    obtain ⟨front, candidate, back, higher, hsplit, hfind, rfl⟩ := mem_scan.mp he
    have hcandidate : candidate ∈ sorted := hsplit ▸ List.mem_append_right front List.mem_cons_self
    obtain rfl : candidate = r := List.inj_on_of_nodup_map hids hcandidate hr hid
    have hshadows : shadows higher candidate = true := List.find?_some (p := (shadows · candidate)) hfind
    exact ⟨front, back, hsplit, higher, List.mem_of_find?_eq_some hfind, (shadows_iff higher candidate).mp hshadows⟩
  · rintro ⟨front, back, hsplit, h, hh, hshadows⟩
    have hfound : (front.find? (shadows · r)).isSome = true :=
      List.find?_isSome.mpr ⟨h, hh, (shadows_iff h r).mpr hshadows⟩
    obtain ⟨higher, hfind⟩ := Option.isSome_iff_exists.mp hfound
    exact ⟨_, mem_scan.mpr ⟨front, r, back, higher, hsplit, hfind, rfl⟩, rfl⟩

section
variable {R : Runtime} {rules sorted : List PolicyRule} (hids : (rules.map (·.ruleId)).Nodup)
  (hsorts : Sorts byPriority rules sorted)

include hsorts in
theorem mem_rules {front back : List PolicyRule} {r : PolicyRule} (hsplit : sorted = front ++ r :: back) :
    r ∈ rules ∧ ∀ h ∈ front, h ∈ rules := by
  constructor
  · exact hsorts.perm.mem_iff.mp (hsplit ▸ List.mem_append_right front List.mem_cons_self)
  · exact fun h hh => hsorts.perm.mem_iff.mp (hsplit ▸ List.mem_append_left (r :: back) hh)

include hids hsorts in
theorem sorted_ids : (sorted.map (·.ruleId)).Nodup := (hsorts.perm.map _).nodup_iff.mpr hids

include hids hsorts in
theorem front_ne {front back : List PolicyRule} {r h : PolicyRule} (hsplit : sorted = front ++ r :: back)
    (hh : h ∈ front) : h.ruleId ≠ r.ruleId := by
  have hnodup := sorted_ids hids hsorts
  rw [hsplit, List.map_append, List.nodup_append] at hnodup
  exact hnodup.2.2 _ (List.mem_map_of_mem hh) _ List.mem_cons_self

section
variable (hconsistent : Consistent byPriority rules)
include hsorts hconsistent

theorem front_rank {front back : List PolicyRule} {r h : PolicyRule} (hsplit : sorted = front ++ r :: back)
    (hh : h ∈ front) : Higher h r ∨ byPriority h r = .eq := by
  have hle := (List.pairwise_append.mp (hsplit ▸ hsorts.ordered hconsistent)).2.2 h hh r List.mem_cons_self
  rw [← byPriority_lt]
  cases hrank : byPriority h r with
  | lt => exact .inl rfl
  | eq => exact .inr rfl
  | gt => exact absurd hrank hle

theorem higher_mem_front {front back : List PolicyRule} {r h : PolicyRule} (hsplit : sorted = front ++ r :: back)
    (hh : h ∈ rules) (hhigher : Higher h r) : h ∈ front := by
  have hr := (mem_rules hsorts hsplit).1
  have hlt := (byPriority_lt h r).mpr hhigher
  have hmem : h ∈ front ++ r :: back := hsplit ▸ hsorts.perm.mem_iff.mpr hh
  obtain hfront | hmem := List.mem_append.mp hmem
  · exact hfront
  obtain rfl | hback := List.mem_cons.mp hmem
  · rw [hconsistent.refl h hh] at hlt
    exact absurd hlt (by decide)
  · have hordered := List.pairwise_append.mp (hsplit ▸ hsorts.ordered hconsistent)
    exact absurd (hconsistent.gt_of_lt hh hr hlt) (List.rel_of_pairwise_cons hordered.2.1 hback)

theorem first_higher {front back : List PolicyRule} {r h : PolicyRule} (hsplit : sorted = front ++ r :: back)
    (hshadowed : ShadowedByHigher rules r) (hfind : front.find? (shadows · r) = some h) : Higher h r := by
  obtain ⟨hr, hfront⟩ := mem_rules hsorts hsplit
  have hh := List.mem_of_find?_eq_some hfind
  refine (front_rank hsorts hconsistent hsplit hh).resolve_right (fun htie => ?_)
  obtain ⟨k, hk, hkshadows, hkhigher⟩ := hshadowed
  have hkfront := higher_mem_front hsorts hconsistent hsplit hk hkhigher
  obtain ⟨_, before, after, hfirst, hnone⟩ := List.find?_eq_some_iff_append.mp hfind
  have hkh : byPriority k h = .lt := hconsistent.lt_of_lt_of_eq hk hr (hfront h hh) ((byPriority_lt k r).mpr hkhigher)
    (hconsistent.eq_symm (hfront h hh) hr htie)
  rw [hfirst] at hkfront
  obtain hbefore | hmem := List.mem_append.mp hkfront
  · have hno := hnone k hbefore
    rw [(shadows_iff k r).mpr hkshadows] at hno
    exact absurd hno (by decide)
  obtain rfl | hafter := List.mem_cons.mp hmem
  · rw [hconsistent.refl k hk] at hkh
    exact absurd hkh (by decide)
  · have hordered := (List.pairwise_append.mp (hsplit ▸ hsorts.ordered hconsistent)).1
    rw [hfirst] at hordered
    exact absurd (hconsistent.gt_of_lt hk (hfront h hh) hkh)
      (List.rel_of_pairwise_cons (List.pairwise_append.mp hordered).2.1 hafter)

end

theorem TiesCovered.exact (hcovered : TiesCovered rules) (hids : (rules.map (·.ruleId)).Nodup)
    (hsorts : Sorts byPriority rules sorted) {r : PolicyRule} (hr : r ∈ rules) :
    r.ruleId ∈ (scan R [] sorted).map (·.shadowedRuleId) ↔ ShadowedByHigher rules r := by
  rw [reported_iff (sorted_ids hids hsorts) (hsorts.perm.mem_iff.mpr hr)]
  by_cases hconsistent : Consistent byPriority rules
  · constructor
    · rintro ⟨front, back, hsplit, h, hh, hshadows⟩
      have hmem := (mem_rules hsorts hsplit).2 h hh
      obtain hhigher | htie := front_rank hsorts hconsistent hsplit hh
      · exact ⟨h, hmem, hshadows, hhigher⟩
      · exact hcovered.ties hconsistent r hr h hmem (front_ne hids hsorts hsplit hh) htie hshadows
    · rintro ⟨h, hh, hshadows, hhigher⟩
      obtain ⟨front, back, hsplit⟩ := List.append_of_mem (hsorts.perm.mem_iff.mpr hr)
      exact ⟨front, back, hsplit, h, higher_mem_front hsorts hconsistent hsplit hh hhigher, hshadows⟩
  · constructor
    · rintro ⟨front, back, hsplit, h, hh, hshadows⟩
      exact absurd hshadows (hcovered.unranked hconsistent r hr h ((mem_rules hsorts hsplit).2 h hh)
        (front_ne hids hsorts hsplit hh))
    · rintro ⟨h, hh, hshadows, hhigher⟩
      refine absurd hshadows (hcovered.unranked hconsistent r hr h hh (fun hid => ?_))
      obtain rfl := List.inj_on_of_nodup_map hids hh hr hid
      rw [Higher, JsNumber.lt_irrefl] at hhigher
      exact absurd hhigher (by decide)

theorem TiesCovered.sound (hcovered : TiesCovered rules) (hids : (rules.map (·.ruleId)).Nodup)
    (hsorts : Sorts byPriority rules sorted) {e : ShadowedRule} (he : e ∈ scan R [] sorted) :
    ∃ r ∈ rules, ∃ h ∈ rules, e.shadowedRuleId = r.ruleId ∧ e.shadowedByRuleId = h.ruleId ∧ Shadows h r ∧
      Higher h r := by
  obtain ⟨front, r, back, h, hsplit, hfind, rfl⟩ := mem_scan.mp he
  obtain ⟨hr, hfront⟩ := mem_rules hsorts hsplit
  have hh := List.mem_of_find?_eq_some hfind
  have hshadows : shadows h r = true := List.find?_some (p := (shadows · r)) hfind
  have hmap : r.ruleId ∈ (scan R [] sorted).map (·.shadowedRuleId) := List.mem_map.mpr ⟨_, he, rfl⟩
  have hshadowed := (hcovered.exact hids hsorts hr).mp hmap
  refine ⟨r, hr, h, hfront h hh, rfl, rfl, (shadows_iff h r).mp hshadows, ?_⟩
  by_cases hconsistent : Consistent byPriority rules
  · exact first_higher hsorts hconsistent hsplit hshadowed hfind
  · exact absurd ((shadows_iff h r).mp hshadows)
      (hcovered.unranked hconsistent r hr h (hfront h hh) (front_ne hids hsorts hsplit hh))

end

theorem ShadowedByHigher.of_perm {rules others : List PolicyRule} (hperm : rules.Perm others) {r : PolicyRule}
    (h : ShadowedByHigher rules r) : ShadowedByHigher others r := by
  obtain ⟨k, hk, hrest⟩ := h
  exact ⟨k, hperm.mem_iff.mp hk, hrest⟩

theorem TiesCovered.of_perm {rules others : List PolicyRule} (hperm : rules.Perm others) (h : TiesCovered rules) :
    TiesCovered others := by
  constructor
  · intro hconsistent r hr k hk hne htie hshadows
    exact (h.ties (hconsistent.of_perm hperm.symm) r (hperm.mem_iff.mpr hr) k (hperm.mem_iff.mpr hk) hne htie
      hshadows).of_perm hperm
  · intro hnot r hr k hk
    exact h.unranked (fun hconsistent => hnot (hconsistent.of_perm hperm)) r (hperm.mem_iff.mpr hr) k
      (hperm.mem_iff.mpr hk)

theorem TiesCovered.reported {R : Runtime} {rules sorted : List PolicyRule} (h : TiesCovered rules)
    (hids : (rules.map (·.ruleId)).Nodup) (hsorts : Sorts byPriority rules sorted) (id : Str) :
    id ∈ (scan R [] sorted).map (·.shadowedRuleId) ↔ ∃ r ∈ rules, r.ruleId = id ∧ ShadowedByHigher rules r := by
  constructor
  · intro hid
    obtain ⟨e, he, rfl⟩ := List.mem_map.mp hid
    obtain ⟨r, hr, k, hk, hrid, _, hshadows, hhigher⟩ := h.sound hids hsorts he
    exact ⟨r, hr, hrid.symm, k, hk, hshadows, hhigher⟩
  · rintro ⟨r, hr, rfl, hshadowed⟩
    exact (h.exact hids hsorts hr).mpr hshadowed

theorem tie_in_front {rules : List PolicyRule} (hconsistent : Consistent byPriority rules) {r h : PolicyRule}
    (hr : r ∈ rules) (hh : h ∈ rules) (hne : h.ruleId ≠ r.ruleId) (htie : byPriority h r = .eq) :
    ∃ others sorted, rules.Perm others ∧ Sorts byPriority others sorted ∧
      ∃ front back, sorted = front ++ r :: back ∧ h ∈ front := by
  obtain ⟨before, after, rfl⟩ := List.append_of_mem hh
  have hperm : (before ++ h :: after).Perm (h :: (before ++ after)) := List.perm_middle
  obtain ⟨sorted, hsorts⟩ := exists_sorts byPriority (h :: (before ++ after))
  have hr' : r ∈ h :: (before ++ after) := hperm.mem_iff.mp hr
  have hties := hsorts.stable (hconsistent.of_perm hperm) r hr'
  obtain ⟨front, back, rfl⟩ := List.append_of_mem (hsorts.perm.mem_iff.mpr hr')
  refine ⟨_, _, hperm, hsorts, front, back, rfl, ?_⟩
  rw [List.filter_cons_of_pos (p := (byPriority r · = .eq)) (decide_eq_true (hconsistent.eq_symm hh hr htie)),
    List.filter_append] at hties
  cases hfront : front.filter (byPriority r · = .eq) with
  | nil =>
    rw [hfront, List.nil_append, List.filter_cons_of_pos (p := (byPriority r · = .eq))
      (decide_eq_true (hconsistent.refl r hr))] at hties
    exact absurd (congrArg PolicyRule.ruleId (List.cons.inj hties).1).symm hne
  | cons first rest =>
    rw [hfront] at hties
    have hmem : first ∈ front.filter (byPriority r · = .eq) := hfront ▸ List.mem_cons_self
    exact (List.cons.inj hties).1 ▸ (List.mem_filter.mp hmem).1

theorem unranked_in_front {rules : List PolicyRule} (hnot : ¬ Consistent byPriority rules) {r h : PolicyRule}
    (hr : r ∈ rules) (hh : h ∈ rules) (hne : h.ruleId ≠ r.ruleId) :
    ∃ rest, Sorts byPriority rules (h :: r :: rest) := by
  obtain ⟨before, after, rfl⟩ := List.append_of_mem hh
  have hperm : (before ++ h :: after).Perm (h :: (before ++ after)) := List.perm_middle
  have hmem : r ∈ before ++ after :=
    (List.mem_cons.mp (hperm.mem_iff.mp hr)).resolve_left (fun heq => hne (congrArg PolicyRule.ruleId heq.symm))
  obtain ⟨before', after', hsplit⟩ := List.append_of_mem hmem
  refine ⟨before' ++ after', ?_, fun h => absurd h hnot, fun h => absurd h hnot⟩
  rw [hsplit] at hperm
  exact (hperm.trans (List.perm_middle.cons h)).symm

section
variable {R : Runtime} {rules : List PolicyRule} (hids : (rules.map (·.ruleId)).Nodup)
include hids

theorem ShadowingExact.ties (h : ShadowingExact R rules) (hconsistent : Consistent byPriority rules)
    {r k : PolicyRule} (hr : r ∈ rules) (hk : k ∈ rules) (hne : k.ruleId ≠ r.ruleId) (htie : byPriority k r = .eq)
    (hshadows : Shadows k r) : ShadowedByHigher rules r := by
  obtain ⟨others, sorted, hperm, hsorts, front, back, hsplit, hfront⟩ := tie_in_front hconsistent hr hk hne htie
  obtain ⟨shadowed, hdetects⟩ := h.returns
  have hids' : (others.map (·.ruleId)).Nodup := (hperm.map _).nodup_iff.mp hids
  have hreported : r.ruleId ∈ (scan R [] sorted).map (·.shadowedRuleId) :=
    (reported_iff (sorted_ids hids' hsorts) (hsorts.perm.mem_iff.mpr (hperm.mem_iff.mp hr))).mpr
      ⟨front, back, hsplit, k, hfront, hshadows⟩
  exact (h.exact shadowed hdetects r hr).mp
    ((h.unordered others hperm shadowed _ hdetects ⟨sorted, hsorts, rfl⟩ r.ruleId).mpr hreported)

theorem ShadowingExact.unranked (h : ShadowingExact R rules) (hnot : ¬ Consistent byPriority rules) {r k : PolicyRule}
    (hr : r ∈ rules) (hk : k ∈ rules) (hne : k.ruleId ≠ r.ruleId) : ¬ Shadows k r := by
  intro hshadows
  obtain ⟨rest, hsorts⟩ := unranked_in_front hnot hr hk hne
  obtain ⟨rest', hsorts'⟩ := unranked_in_front hnot hk hr hne.symm
  have hlater : r.ruleId ∈ (scan R [] (k :: r :: rest)).map (·.shadowedRuleId) :=
    (reported_iff (sorted_ids hids hsorts) (hsorts.perm.mem_iff.mpr hr)).mpr
      ⟨[k], rest, rfl, k, List.mem_cons_self, hshadows⟩
  have hfirst := (h.exact _ ⟨_, hsorts', rfl⟩ r hr).mpr ((h.exact _ ⟨_, hsorts, rfl⟩ r hr).mp hlater)
  obtain ⟨front, back, hsplit, j, hj, _⟩ :=
    (reported_iff (sorted_ids hids hsorts') (hsorts'.perm.mem_iff.mpr hr)).mp hfirst
  cases front with
  | nil => cases hj
  | cons first front =>
    -- `r` stands first, so it cannot stand again after a front of its own
    obtain ⟨rfl, _⟩ := List.cons.inj hsplit
    exact front_ne hids hsorts' hsplit List.mem_cons_self rfl

/-- Detection is exact and the same for every order of the rules exactly when ties change nothing. -/
theorem shadowing_exact_iff : ShadowingExact R rules ↔ TiesCovered rules := by
  constructor
  · intro h
    exact ⟨fun hconsistent r hr k hk hne htie hshadows => h.ties hids hconsistent hr hk hne htie hshadows,
      fun hnot r hr k hk hne => h.unranked hids hnot hr hk hne⟩
  · intro h
    obtain ⟨sorted, hsorts⟩ := exists_sorts byPriority rules
    refine ⟨⟨_, sorted, hsorts, rfl⟩, ?_, ?_, ?_⟩
    · rintro _ ⟨sorted, hsorts, rfl⟩ r hr
      exact h.exact hids hsorts hr
    · rintro _ ⟨sorted, hsorts, rfl⟩ e he
      exact h.sound hids hsorts he
    · rintro others hperm _ _ ⟨sorted, hsorts, rfl⟩ ⟨sorted', hsorts', rfl⟩ id
      rw [h.reported hids hsorts, (h.of_perm hperm).reported ((hperm.map _).nodup_iff.mp hids) hsorts']
      constructor
      · rintro ⟨r, hr, hid, hshadowed⟩
        exact ⟨r, hperm.mem_iff.mp hr, hid, hshadowed.of_perm hperm⟩
      · rintro ⟨r, hr, hid, hshadowed⟩
        exact ⟨r, hperm.mem_iff.mpr hr, hid, hshadowed.of_perm hperm.symm⟩

end

def sampleRuntime : Runtime := ⟨fun _ => lit "1"⟩

def sampleRule (ruleId : Str) : PolicyRule := ⟨ruleId, lit "data:read", .finite Double.one, [], ⟨[], List.nodup_nil⟩⟩

def sampleRules : List PolicyRule := [sampleRule (lit "a"), sampleRule (lit "b")]

theorem sample_not_higher {r h : PolicyRule} (hr : r ∈ sampleRules) (hh : h ∈ sampleRules) : ¬ Higher h r := by
  have hone : ∀ k ∈ sampleRules, k.priority = .finite Double.one := by
    intro k hk
    obtain rfl | hk := List.mem_cons.mp hk
    · rfl
    · exact List.mem_singleton.mp hk ▸ rfl
  rw [Higher, hone r hr, hone h hh, JsNumber.lt_irrefl]
  decide

/-- The later of two rules of one priority is reported as shadowed by a higher one. -/
theorem tie_reported : DetectsShadowed sampleRuntime sampleRules
      [report sampleRuntime (sampleRule (lit "a")) (sampleRule (lit "b"))] ∧
    ¬ ShadowingExact sampleRuntime sampleRules := by
  have ha : sampleRule (lit "a") ∈ sampleRules := List.mem_cons_self
  have hb : sampleRule (lit "b") ∈ sampleRules := List.mem_cons_of_mem _ List.mem_cons_self
  have htie : ∀ h ∈ sampleRules, ∀ r ∈ sampleRules, byPriority h r = .eq := fun h hh r hr =>
    (byPriority_eq h r).mpr
      ⟨Bool.eq_false_of_not_eq_true (sample_not_higher hh hr), Bool.eq_false_of_not_eq_true (sample_not_higher hr hh)⟩
  have hsorts : Sorts byPriority sampleRules sampleRules := by
    refine ⟨.refl _, fun _ => List.pairwise_of_forall_mem_list (fun h hh r hr => ?_), fun _ _ _ => rfl⟩
    rw [htie h hh r hr]
    decide
  have hdetects : DetectsShadowed sampleRuntime sampleRules
      [report sampleRuntime (sampleRule (lit "a")) (sampleRule (lit "b"))] := ⟨sampleRules, hsorts, rfl⟩
  refine ⟨hdetects, fun h => ?_⟩
  obtain ⟨k, hk, _, hhigher⟩ := (h.exact _ hdetects _ hb).mp List.mem_cons_self
  exact sample_not_higher hb hk hhigher

theorem shadowing_exact_sample :
    ShadowingExact sampleRuntime sampleRules ↔ TiesCovered sampleRules := shadowing_exact_iff (by decide)

end AgentPassport.ShadowedRules
