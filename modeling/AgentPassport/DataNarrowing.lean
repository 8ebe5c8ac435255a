import AgentPassport.JsText
import Mathlib.Data.List.Induction
import Mathlib.Data.List.Nodup
import Mathlib.Data.List.Perm.Basic

/-! Data may only narrow authority (`core/data-narrowing.ts`): the statuses that data sources name for the facets of a
constraint vector, and when several of them together amount to a meet. -/
namespace AgentPassport.DataNarrowing
open JsText

inductive ConstraintFacet where
  | time | spend | scope | reputation | values | revocation | reversibility | governance | identity | replay
  | cross_chain | audience | escalation | fidelity | data
  deriving DecidableEq

inductive ConstraintStatus where
  | pass | fail | not_applicable | unknown
  deriving DecidableEq

def ConstraintFacet.text : ConstraintFacet → Str
  | .time => lit "time"
  | .spend => lit "spend"
  | .scope => lit "scope"
  | .reputation => lit "reputation"
  | .values => lit "values"
  | .revocation => lit "revocation"
  | .reversibility => lit "reversibility"
  | .governance => lit "governance"
  | .identity => lit "identity"
  | .replay => lit "replay"
  | .cross_chain => lit "cross_chain"
  | .audience => lit "audience"
  | .escalation => lit "escalation"
  | .fidelity => lit "fidelity"
  | .data => lit "data"

def ConstraintStatus.text : ConstraintStatus → Str
  | .pass => lit "pass"
  | .fail => lit "fail"
  | .not_applicable => lit "not_applicable"
  | .unknown => lit "unknown"

/-- Lower is more restrictive. -/
def STATUS_ORDER : ConstraintStatus → Nat
  | .fail => 0
  | .unknown => 1
  | .not_applicable => 2
  | .pass => 3

theorem status_order_injective : Function.Injective STATUS_ORDER := by
  intro a b h
  cases a <;> cases b <;> first | rfl | cases h

instance : LinearOrder ConstraintStatus := LinearOrder.lift' STATUS_ORDER status_order_injective

@[ext]
structure FacetSnapshot where
  facet : ConstraintFacet
  status : ConstraintStatus
  deriving DecidableEq

structure Violation where
  facet : ConstraintFacet
  before : ConstraintStatus
  after : ConstraintStatus
  message : Str
  deriving DecidableEq

/-- `new Map(snapshots.map(f => [f.facet, f])).get(facet)`: of two entries of a facet the later one counts. -/
def mapGet (snapshots : List FacetSnapshot) (facet : ConstraintFacet) : Option FacetSnapshot :=
  snapshots.reverse.find? (·.facet = facet)

def widened (before : List FacetSnapshot) (a : FacetSnapshot) : Option Violation :=
  match mapGet before a.facet with
  | none => none
  | some b =>
    if STATUS_ORDER a.status > STATUS_ORDER b.status then
      some ⟨a.facet, b.status, a.status, lit "Data attempted to widen " ++ a.facet.text ++ lit ": " ++ b.status.text ++
        [0x20, 0x2192, 0x20] ++ a.status.text⟩
    else none

/-- The violations; the check is valid when there are none. -/
def assertDataNarrowsOnly (before after : List FacetSnapshot) : List Violation := after.filterMap (widened before)

/-- `result[result.findIndex(f => f.facet === influence.facet)] = influence`, where there is one. -/
def replaceFirst (influence : FacetSnapshot) : List FacetSnapshot → List FacetSnapshot
  | [] => []
  | f :: rest => if f.facet = influence.facet then influence :: rest else f :: replaceFirst influence rest

structure Narrowed where
  result : List FacetSnapshot
  rejected : List Violation
  deriving DecidableEq

def applyInfluence (current : List FacetSnapshot) (acc : Narrowed) (influence : FacetSnapshot) : Narrowed :=
  match mapGet current influence.facet with
  | none =>
    if STATUS_ORDER influence.status ≤ STATUS_ORDER .unknown then { acc with result := acc.result ++ [influence] }
    else acc
  | some existing =>
    if STATUS_ORDER influence.status ≤ STATUS_ORDER existing.status then
      { acc with result := replaceFirst influence acc.result }
    else
      { acc with rejected := acc.rejected ++ [⟨influence.facet, existing.status, influence.status,
          lit "Rejected: data tried to widen " ++ influence.facet.text ++ lit " from " ++ existing.status.text ++
            lit " to " ++ influence.status.text⟩] }

def applyDataConstraints (current dataInfluence : List FacetSnapshot) : Narrowed :=
  dataInfluence.foldl (applyInfluence current) ⟨current, []⟩

def facets (snapshots : List FacetSnapshot) : List ConstraintFacet := snapshots.map (·.facet)

/-- An influence on the facet of a current entry that the loop takes over. -/
def Accepts (s x : FacetSnapshot) : Prop := x.facet = s.facet ∧ x.status ≤ s.status

instance (s x : FacetSnapshot) : Decidable (Accepts s x) := inferInstanceAs (Decidable (_ ∧ _))

/-- The entry that a current one ends as: the last influence taken over, else itself. -/
def ending (influences : List FacetSnapshot) (s : FacetSnapshot) : FacetSnapshot :=
  ((influences.filter (Accepts s ·)).getLast?).getD s

/-- An influence on a facet that is not current, restrictive enough to be added. -/
def Fresh (current : List FacetSnapshot) (x : FacetSnapshot) : Prop := x.facet ∉ facets current ∧ x.status ≤ .unknown

instance (current : List FacetSnapshot) (x : FacetSnapshot) : Decidable (Fresh current x) :=
  inferInstanceAs (Decidable (_ ∧ _))

theorem accepts_facet {s x : FacetSnapshot} (h : Accepts s x) : x.facet = s.facet := h.1

theorem ending_concat_of_accepts {s x : FacetSnapshot} (influences : List FacetSnapshot) (h : Accepts s x) :
    ending (influences ++ [x]) s = x := by
  rw [ending, List.filter_append, List.filter_singleton, decide_eq_true h, cond_true, List.getLast?_concat,
    Option.getD_some]

theorem ending_concat_of_not {s x : FacetSnapshot} (influences : List FacetSnapshot) (h : ¬ Accepts s x) :
    ending (influences ++ [x]) s = ending influences s := by
  rw [ending, List.filter_append, List.filter_singleton, decide_eq_false h, cond_false, List.append_nil, ending]

theorem ending_cases (influences : List FacetSnapshot) (s : FacetSnapshot) :
    (ending influences s = s ∧ ∀ x ∈ influences, ¬ Accepts s x) ∨
      (ending influences s ∈ influences ∧ Accepts s (ending influences s)) := by
  rw [ending]
  cases hlast : (influences.filter (Accepts s ·)).getLast? with
  | none =>
    rw [List.getLast?_eq_none_iff, List.filter_eq_nil_iff] at hlast
    exact .inl ⟨rfl, fun x hx haccepts => hlast x hx (decide_eq_true haccepts)⟩
  | some x =>
    obtain ⟨hmem, haccepts⟩ := List.mem_filter.mp (List.mem_of_getLast? hlast)
    exact .inr ⟨hmem, of_decide_eq_true haccepts⟩

theorem ending_facet (influences : List FacetSnapshot) (s : FacetSnapshot) : (ending influences s).facet = s.facet := by
  obtain ⟨heq, _⟩ | ⟨_, haccepts⟩ := ending_cases influences s
  · rw [heq]
  · exact accepts_facet haccepts

theorem ending_le (influences : List FacetSnapshot) (s : FacetSnapshot) : (ending influences s).status ≤ s.status := by
  obtain ⟨heq, _⟩ | ⟨_, haccepts⟩ := ending_cases influences s
  · rw [heq]
  · exact haccepts.2

variable {s : FacetSnapshot}

theorem mem_facets {snapshots : List FacetSnapshot} (h : s ∈ snapshots) :
    s.facet ∈ facets snapshots := List.mem_map_of_mem h

theorem facets_map_ending (current influences : List FacetSnapshot) :
    facets (current.map (ending influences)) = facets current := by
  rw [facets, List.map_map]
  exact List.map_congr_left (fun s _ => ending_facet influences s)

section
variable {current : List FacetSnapshot} (hdistinct : (facets current).Nodup)
include hdistinct

theorem eq_of_facet {s t : FacetSnapshot} (hs : s ∈ current) (ht : t ∈ current) (h : s.facet = t.facet) : s = t :=
  List.inj_on_of_nodup_map hdistinct hs ht h

theorem mapGet_mem (hs : s ∈ current) {facet : ConstraintFacet} (h : s.facet = facet) :
    mapGet current facet = some s := by
  rw [mapGet]
  cases hfind : current.reverse.find? (·.facet = facet) with
  | none =>
    have hnone := List.find?_eq_none.mp hfind s (List.mem_reverse.mpr hs)
    exact absurd (decide_eq_true h) hnone
  | some t =>
    have ht : t ∈ current := List.mem_reverse.mp (List.mem_of_find?_eq_some hfind)
    have hfacet : t.facet = facet := by simpa using List.find?_some hfind
    rw [eq_of_facet hdistinct ht hs (hfacet.trans h.symm)]

theorem replaceFirst_map {g : FacetSnapshot → FacetSnapshot} (hg : ∀ s, (g s).facet = s.facet) {s x : FacetSnapshot}
    (hs : s ∈ current) (hx : x.facet = s.facet) (more : List FacetSnapshot) :
    replaceFirst x (current.map g ++ more) = current.map (fun t => if t = s then x else g t) ++ more := by
  induction current with
  | nil => cases hs
  | cons t rest ih =>
    obtain ⟨hnew, hrest⟩ := List.nodup_cons.mp hdistinct
    rw [List.map_cons, List.map_cons, List.cons_append, List.cons_append, replaceFirst, hg, hx]
    by_cases hts : t = s
    · have hothers : rest.map (fun u => if u = s then x else g u) = rest.map g := by
        refine List.map_congr_left (fun u hu => if_neg ?_)
        rintro rfl
        exact hnew (hts ▸ mem_facets hu)
      rw [if_pos (congrArg FacetSnapshot.facet hts), if_pos hts, hothers]
    · have hmem : s ∈ rest := (List.mem_cons.mp hs).resolve_left (fun h => hts h.symm)
      have hfacet : t.facet ≠ s.facet := fun h => hnew (List.mem_map.mpr ⟨s, hmem, h.symm⟩)
      rw [if_neg hfacet, if_neg hts, ih hrest hmem]

end

theorem mapGet_none {current : List FacetSnapshot} {facet : ConstraintFacet} (h : facet ∉ facets current) :
    mapGet current facet = none := by
  refine List.find?_eq_none.mpr (fun s hs hfacet => h ?_)
  rw [← of_decide_eq_true hfacet]
  exact mem_facets (List.mem_reverse.mp hs)

theorem apply_result {current : List FacetSnapshot} (hdistinct : (facets current).Nodup)
    (influences : List FacetSnapshot) : (applyDataConstraints current influences).result =
      current.map (ending influences) ++ influences.filter (Fresh current ·) := by
  induction influences using List.reverseRecOn with
  | nil =>
    rw [List.filter_nil, List.append_nil]
    exact (List.map_id current).symm
  | append_singleton influences x ih =>
    rw [applyDataConstraints, List.foldl_concat, ← applyDataConstraints, applyInfluence, List.filter_append,
      List.filter_singleton]
    by_cases hmem : x.facet ∈ facets current
    · obtain ⟨s, hs, hfacet⟩ := List.mem_map.mp hmem
      have hold : ¬ Fresh current x := fun h => h.1 hmem
      have hother : ∀ t ∈ current, t ≠ s → ¬ Accepts t x := fun t ht hts haccepts =>
        hts (eq_of_facet hdistinct ht hs ((accepts_facet haccepts).symm.trans hfacet.symm))
      rw [mapGet_mem hdistinct hs hfacet, decide_eq_false hold, cond_false, List.append_nil]
      dsimp only
      by_cases hle : STATUS_ORDER x.status ≤ STATUS_ORDER s.status
      · rw [if_pos hle, ih, replaceFirst_map hdistinct (ending_facet influences) hs hfacet.symm]
        dsimp only
        congr 1
        refine List.map_congr_left (fun t ht => ?_)
        by_cases hts : t = s
        · rw [if_pos hts, hts, ending_concat_of_accepts influences ⟨hfacet.symm, hle⟩]
        · rw [if_neg hts, ending_concat_of_not influences (hother t ht hts)]
      · rw [if_neg hle]
        dsimp only
        rw [ih]
        congr 1
        refine List.map_congr_left (fun t ht => (ending_concat_of_not influences ?_).symm)
        by_cases hts : t = s
        · exact fun h => hle (hts ▸ h.2)
        · exact hother t ht hts
    · have hsame : current.map (ending (influences ++ [x])) = current.map (ending influences) :=
        List.map_congr_left (fun t ht => ending_concat_of_not influences
          (fun h => hmem (accepts_facet h ▸ mem_facets ht)))
      rw [mapGet_none hmem, hsame, ← List.append_assoc]
      dsimp only
      by_cases hle : STATUS_ORDER x.status ≤ STATUS_ORDER .unknown
      · have hfresh : Fresh current x := ⟨hmem, hle⟩
        rw [if_pos hle, decide_eq_true hfresh, cond_true, ih]
      · have hdropped : ¬ Fresh current x := fun h => hle h.2
        rw [if_neg hle, decide_eq_false hdropped, cond_false, ih, List.append_nil]

theorem apply_narrows {current : List FacetSnapshot} (hdistinct : (facets current).Nodup)
    (influences : List FacetSnapshot) :
    assertDataNarrowsOnly current (applyDataConstraints current influences).result = [] := by
  rw [assertDataNarrowsOnly, List.filterMap_eq_nil_iff, apply_result hdistinct]
  intro a ha
  rw [widened]
  obtain ha | ha := List.mem_append.mp ha
  · obtain ⟨s, hs, rfl⟩ := List.mem_map.mp ha
    have hle : ¬ STATUS_ORDER (ending influences s).status > STATUS_ORDER s.status :=
      not_lt.mpr (ending_le influences s)
    rw [mapGet_mem hdistinct hs (ending_facet influences s).symm]
    exact if_neg hle
  · have hfresh : Fresh current a := of_decide_eq_true (List.mem_filter.mp ha).2
    rw [mapGet_none hfresh.1]

/-- The influences amount to a meet: the most restrictive status counts, each facet has one entry, and neither the
order of the influences nor applying them in two goes makes a difference. -/
structure IsMeet (current influences : List FacetSnapshot) : Prop where
  least : ∀ s ∈ current, ∃ e ∈ (applyDataConstraints current influences).result, e.facet = s.facet ∧
    IsLeast {status | status = s.status ∨ ⟨s.facet, status⟩ ∈ influences} e.status
  oneEntry : (facets (applyDataConstraints current influences).result).Nodup
  unordered : ∀ others, List.Perm influences others →
    List.Perm (applyDataConstraints current influences).result (applyDataConstraints current others).result
  composes : ∀ xs ys, influences = xs ++ ys →
    List.Perm (applyDataConstraints (applyDataConstraints current xs).result ys).result
      (applyDataConstraints current influences).result
  kept : ∀ xs ys, influences = xs ++ ys → ∀ e ∈ (applyDataConstraints current xs).result,
    ∃ e' ∈ (applyDataConstraints current influences).result, e'.facet = e.facet ∧ e'.status ≤ e.status

/-- No two influences differ on a current facet where both would be taken over, and no facet is added twice. -/
structure OneNarrowing (current influences : List FacetSnapshot) : Prop where
  agree : ∀ s ∈ current, ∀ x ∈ influences, ∀ y ∈ influences, Accepts s x → Accepts s y → x.status = y.status
  once : ∀ facet, facet ∉ facets current → influences.countP (fun x => x.facet = facet ∧ x.status ≤ .unknown) ≤ 1

section
variable {current influences : List FacetSnapshot}

theorem OneNarrowing.append_left {xs ys : List FacetSnapshot} (h : OneNarrowing current (xs ++ ys)) :
    OneNarrowing current xs := by
  refine ⟨fun s hs x hx y hy => h.agree s hs x (List.mem_append_left ys hx) y (List.mem_append_left ys hy),
    fun facet hfacet => ?_⟩
  have honce := h.once facet hfacet
  rw [List.countP_append] at honce
  exact Nat.le_of_add_right_le honce

theorem OneNarrowing.ending_eq (h : OneNarrowing current influences) {s x : FacetSnapshot} (hs : s ∈ current)
    (hx : x ∈ influences) (haccepts : Accepts s x) : ending influences s = x := by
  obtain ⟨_, hnone⟩ | ⟨hmem, hending⟩ := ending_cases influences s
  · exact absurd haccepts (hnone x hx)
  · have hstatus := h.agree s hs _ hmem x hx hending haccepts
    have hfacet := (accepts_facet hending).trans (accepts_facet haccepts).symm
    exact FacetSnapshot.ext hfacet hstatus

theorem ending_of_none (h : ∀ x ∈ influences, ¬ Accepts s x) : ending influences s = s := by
  obtain ⟨heq, _⟩ | ⟨hmem, hending⟩ := ending_cases influences s
  · exact heq
  · exact absurd hending (h _ hmem)

theorem OneNarrowing.not_both {xs ys : List FacetSnapshot} (h : OneNarrowing current (xs ++ ys)) {x y : FacetSnapshot}
    (hx : x ∈ xs) (hy : y ∈ ys) (hxfresh : Fresh current x) (hyfresh : Fresh current y) : x.facet ≠ y.facet := by
  intro hfacet
  have honce := h.once x.facet hxfresh.1
  have hxs : 0 < xs.countP (fun z => z.facet = x.facet ∧ z.status ≤ .unknown) :=
    List.countP_pos_iff.mpr ⟨x, hx, decide_eq_true ⟨rfl, hxfresh.2⟩⟩
  have hys : 0 < ys.countP (fun z => z.facet = x.facet ∧ z.status ≤ .unknown) :=
    List.countP_pos_iff.mpr ⟨y, hy, decide_eq_true ⟨hfacet.symm, hyfresh.2⟩⟩
  rw [List.countP_append] at honce
  omega

theorem count_fresh (facet : ConstraintFacet) :
    (facets (influences.filter (Fresh current ·))).count facet =
      if facet ∈ facets current then 0 else influences.countP (fun x => x.facet = facet ∧ x.status ≤ .unknown) := by
  rw [facets, List.count, List.countP_map, List.countP_filter]
  split
  · rename_i hmem
    refine List.countP_eq_zero.mpr (fun x _ h => ?_)
    simp only [Function.comp_apply, Bool.and_eq_true, beq_iff_eq, decide_eq_true_eq] at h
    exact h.2.1 (h.1 ▸ hmem)
  · rename_i hmem
    refine List.countP_congr (fun x _ => ?_)
    simp only [Function.comp_apply, Bool.and_eq_true, beq_iff_eq, decide_eq_true_eq]
    constructor
    · exact fun h => ⟨h.1, h.2.2⟩
    · exact fun h => ⟨h.1, h.1 ▸ hmem, h.2⟩

theorem facets_result (hdistinct : (facets current).Nodup) : facets (applyDataConstraints current influences).result =
    facets current ++ facets (influences.filter (Fresh current ·)) := by
  rw [apply_result hdistinct, facets, List.map_append]
  exact congrArg (· ++ _) (facets_map_ending current influences)

theorem oneEntry_iff (hdistinct : (facets current).Nodup) :
    (facets (applyDataConstraints current influences).result).Nodup ↔
      ∀ facet, facet ∉ facets current → influences.countP (fun x => x.facet = facet ∧ x.status ≤ .unknown) ≤ 1 := by
  rw [facets_result hdistinct, List.nodup_iff_count_le_one]
  refine forall_congr' fun facet => ?_
  rw [List.count_append, count_fresh]
  by_cases hmem : facet ∈ facets current
  · rw [if_pos hmem]
    exact ⟨fun _ h => absurd hmem h, fun _ => List.nodup_iff_count_le_one.mp hdistinct facet⟩
  · rw [if_neg hmem, List.count_eq_zero.mpr hmem, Nat.zero_add]
    exact ⟨fun h _ => h, fun h => h hmem⟩

end

theorem OneNarrowing.least {current influences : List FacetSnapshot} (h : OneNarrowing current influences)
    (hs : s ∈ current) :
    IsLeast {status | status = s.status ∨ ⟨s.facet, status⟩ ∈ influences} (ending influences s).status := by
  constructor
  · obtain ⟨heq, _⟩ | ⟨hmem, haccepts⟩ := ending_cases influences s
    · exact .inl (congrArg FacetSnapshot.status heq)
    · refine .inr ?_
      rw [← accepts_facet haccepts]
      exact hmem
  · rintro status (rfl | hmem)
    · exact ending_le influences s
    · by_cases hle : status ≤ s.status
      · rw [h.ending_eq hs hmem ⟨rfl, hle⟩]
      · exact (ending_le influences s).trans (le_of_not_ge hle)

theorem OneNarrowing.ending_perm {current influences others : List FacetSnapshot} (h : OneNarrowing current influences)
    (hperm : List.Perm influences others) (hs : s ∈ current) : ending influences s = ending others s := by
  obtain ⟨heq, hnone⟩ | ⟨hmem, haccepts⟩ := ending_cases others s
  · rw [heq, ending_of_none (fun x hx => hnone x (hperm.mem_iff.mp hx))]
  · exact h.ending_eq hs (hperm.mem_iff.mpr hmem) haccepts

theorem OneNarrowing.ending_ending {current xs ys : List FacetSnapshot} (h : OneNarrowing current (xs ++ ys))
    (hs : s ∈ current) : ending ys (ending xs s) = ending (xs ++ ys) s := by
  obtain ⟨heq, hnone⟩ | ⟨hmem, haccepts⟩ := ending_cases xs s
  · rw [heq]
    obtain ⟨heq', hnone'⟩ | ⟨hmem', haccepts'⟩ := ending_cases ys s
    · rw [heq', ending_of_none (fun x hx => (List.mem_append.mp hx).elim (hnone x) (hnone' x))]
    · exact (h.ending_eq hs (List.mem_append_right xs hmem') haccepts').symm
  · rw [h.ending_eq hs (List.mem_append_left ys hmem) haccepts]
    obtain ⟨heq', _⟩ | ⟨hmem', haccepts'⟩ := ending_cases ys (ending xs s)
    · exact heq'
    · have hagain : Accepts s (ending ys (ending xs s)) :=
        ⟨(accepts_facet haccepts').trans (accepts_facet haccepts), haccepts'.2.trans haccepts.2⟩
      exact (h.ending_eq hs (List.mem_append_right xs hmem') hagain).symm.trans
        (h.ending_eq hs (List.mem_append_left ys hmem) haccepts)

section
variable {current : List FacetSnapshot} (hdistinct : (facets current).Nodup)
include hdistinct

theorem ending_mem (hs : s ∈ current) (influences : List FacetSnapshot) :
    ending influences s ∈ (applyDataConstraints current influences).result := by
  rw [apply_result hdistinct]
  exact List.mem_append_left _ (List.mem_map_of_mem hs)

theorem OneNarrowing.perm {influences others : List FacetSnapshot} (h : OneNarrowing current influences)
    (hperm : List.Perm influences others) :
    List.Perm (applyDataConstraints current influences).result (applyDataConstraints current others).result := by
  rw [apply_result hdistinct, apply_result hdistinct, List.map_congr_left (fun s hs => h.ending_perm hperm hs)]
  exact (hperm.filter _).append_left _

theorem OneNarrowing.composes {xs ys : List FacetSnapshot} (h : OneNarrowing current (xs ++ ys)) :
    (applyDataConstraints (applyDataConstraints current xs).result ys).result =
    (applyDataConstraints current (xs ++ ys)).result := by
  have hmid : (facets (applyDataConstraints current xs).result).Nodup :=
    (oneEntry_iff hdistinct).mpr h.append_left.once
  have hstay : (xs.filter (Fresh current ·)).map (ending ys) = xs.filter (Fresh current ·) := by
    refine (List.map_congr_left (fun x hx => ?_)).trans (List.map_id _)
    obtain ⟨hmem, hdecided⟩ := List.mem_filter.mp hx
    have hxfresh : Fresh current x := of_decide_eq_true hdecided
    obtain ⟨heq, _⟩ | ⟨hending, haccepts⟩ := ending_cases ys x
    · exact heq
    · have hfresh : Fresh current (ending ys x) :=
        ⟨accepts_facet haccepts ▸ hxfresh.1, haccepts.2.trans hxfresh.2⟩
      exact absurd (accepts_facet haccepts).symm (h.not_both hmem hending hxfresh hfresh)
  have hfresh : ys.filter (Fresh (applyDataConstraints current xs).result ·) = ys.filter (Fresh current ·) := by
    refine List.filter_congr (fun y hy => decide_eq_decide.mpr ?_)
    rw [Fresh, Fresh, facets_result hdistinct, List.mem_append, not_or, and_assoc]
    constructor
    · exact fun hnew => ⟨hnew.1, hnew.2.2⟩
    · refine fun hnew => ⟨hnew.1, fun hadded => ?_, hnew.2⟩
      obtain ⟨x, hx, hfacet⟩ := List.mem_map.mp hadded
      obtain ⟨hmem, hdecided⟩ := List.mem_filter.mp hx
      exact h.not_both hmem hy (of_decide_eq_true hdecided) hnew hfacet
  rw [apply_result hmid, hfresh, apply_result hdistinct, apply_result hdistinct, List.map_append, List.map_map,
    List.filter_append, List.append_assoc, hstay]
  congr 1
  exact List.map_congr_left (fun s hs => h.ending_ending hs)

theorem apply_kept (hs : s ∈ current) (influences : List FacetSnapshot) :
    ∃ e ∈ (applyDataConstraints current influences).result, e.facet = s.facet ∧ e.status ≤ s.status :=
  ⟨_, ending_mem hdistinct hs influences, ending_facet influences s, ending_le influences s⟩

theorem IsMeet.accepted_mem {influences : List FacetSnapshot} (h : IsMeet current influences) {s x : FacetSnapshot}
    (hs : s ∈ current) (hx : x ∈ influences) (haccepts : Accepts s x) :
    x ∈ (applyDataConstraints current influences).result := by
  obtain ⟨before, after, rfl⟩ := List.append_of_mem hx
  have hperm : List.Perm (before ++ x :: after) (before ++ after ++ [x]) := by
    rw [List.append_assoc]
    exact (List.perm_append_singleton x after).symm.append_left before
  refine (h.unordered _ hperm).mem_iff.mpr ?_
  have hmem := ending_mem hdistinct hs (before ++ after ++ [x])
  rw [ending_concat_of_accepts _ haccepts] at hmem
  exact hmem

/-- The influences amount to a meet exactly when no two of them narrow one facet differently. -/
theorem isMeet_iff (influences : List FacetSnapshot) : IsMeet current influences ↔ OneNarrowing current influences := by
  constructor
  · intro h
    refine ⟨fun s hs x hx y hy hxs hys => ?_, (oneEntry_iff hdistinct).mp h.oneEntry⟩
    have hfacet := (accepts_facet hxs).trans (accepts_facet hys).symm
    rw [eq_of_facet h.oneEntry (h.accepted_mem hdistinct hs hx hxs) (h.accepted_mem hdistinct hs hy hys) hfacet]
  · intro h
    refine ⟨fun s hs => ?_, (oneEntry_iff hdistinct).mpr h.once, fun others hperm => h.perm hdistinct hperm, ?_, ?_⟩
    · exact ⟨_, ending_mem hdistinct hs influences, ending_facet influences s, h.least hs⟩
    · rintro xs ys rfl
      rw [h.composes hdistinct]
    · rintro xs ys rfl e he
      rw [← h.composes hdistinct]
      exact apply_kept ((oneEntry_iff hdistinct).mpr h.append_left.once) he ys

end

def sampleCurrent : List FacetSnapshot := [⟨.scope, .pass⟩]

theorem failure_undone :
    (applyDataConstraints sampleCurrent [⟨.scope, .fail⟩, ⟨.scope, .unknown⟩]).result = [⟨.scope, .unknown⟩] ∧
      ¬ IsMeet sampleCurrent [⟨.scope, .fail⟩, ⟨.scope, .unknown⟩] := by
  have hresult : (applyDataConstraints sampleCurrent [⟨.scope, .fail⟩, ⟨.scope, .unknown⟩]).result =
      [⟨.scope, .unknown⟩] := rfl
  refine ⟨hresult, fun h => ?_⟩
  obtain ⟨e, he, _, hleast⟩ := h.least ⟨.scope, .pass⟩ List.mem_cons_self
  rw [hresult, List.mem_singleton] at he
  have hle : e.status ≤ .fail := hleast.2 (.inr List.mem_cons_self)
  rw [he] at hle
  exact absurd hle (by decide)

theorem apply_narrows_sample : assertDataNarrowsOnly sampleCurrent
    (applyDataConstraints sampleCurrent [⟨.scope, .fail⟩, ⟨.scope, .unknown⟩]).result = [] :=
  apply_narrows (by decide) _

theorem isMeet_sample : IsMeet sampleCurrent [⟨.scope, .fail⟩] ↔ OneNarrowing sampleCurrent [⟨.scope, .fail⟩] :=
  isMeet_iff (by decide) _

end AgentPassport.DataNarrowing
