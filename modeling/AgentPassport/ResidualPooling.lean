import AgentPassport.MicroWeights
import AgentPassport.TextValues
import AgentPassport.Attribution
import Mathlib.Data.Rat.Floor

/-! The residual bucket of an axis (`v2/attribution-primitive/residual.ts`): contributors below a
threshold are pooled, and what they weigh together is written in micro-units once more. -/
namespace AgentPassport.ResidualPooling
open JsText Js MicroWeights Sha256 TextValues Attribution Outcome
open CanonicalJcs (sortByName)
open CanonicalInjective (forall₂_mem integerText)

def DEFAULT_MIN_WEIGHT : JsNumber := .ofRatio 1 1000

inductive PoolError where
  /-- The text must match `/^\d+\.\d{6}$/`. -/
  | weightString (value : Str)
  | notFinite (value : JsNumber)
  /-- A weight must be in [0, 1]. -/
  | range (value : JsNumber)
  | invalidWeight (w : Str)
  | hash (e : AttributionError)

def toWeightString : JsNumber ⊕ Str → Except PoolError Str
  | .inr text => if isWeightString text then return text else throw (.weightString text)
  | .inl (.finite value) =>
    if JsNumber.lt (.finite value) (zeroOf false) || JsNumber.lt (.finite .one) (.finite value) then
      throw (.range (.finite value))
    else return toFixed6 value
  | .inl value => throw (.notFinite value)

def weightNumber (w : Str) : Except PoolError JsNumber :=
  match parseFloat w with
  | .finite d => return .finite d
  | _ => throw (.invalidWeight w)

/-- How an axis that can be pooled names its contributors and reads their weights. -/
structure PooledAxis (E : Type) where
  id : ResidualId
  did : E → Str
  /-- Entries without a weight are never pooled. -/
  weight : E → Option Str
  withWeight : E → Str → E
  withWeight_self : ∀ {e w}, weight e = some w → withWeight e w = e

def dataAxis : PooledAxis DataAxisEntry where
  id := .D
  did := (·.source_did)
  weight e := some e.contribution_weight
  withWeight e w := { e with contribution_weight := w }
  withWeight_self h := by
    cases h
    rfl

def protocolAxis : PooledAxis ProtocolAxisEntry where
  id := .P
  did e := e.module_id ++ 0x40 :: e.module_version
  weight := (·.weight)
  withWeight e w := { e with weight := some w }
  withWeight_self {e _} h := by
    cases e
    cases h
    rfl

def computeAxis : PooledAxis ComputeAxisEntry where
  id := .C
  did := (·.provider_did)
  weight e := some e.compute_share
  withWeight e w := { e with compute_share := w }
  withWeight_self h := by
    cases h
    rfl

/-- The variables of the loop; a pooled contributor is a DID and a weight. -/
structure Pool (E : Type) where
  retained : List (AxisItem E)
  pooled : List (Str × Str)
  totalPooled : JsNumber

structure AggregationResult (E : Type) where
  retained : List (AxisItem E)
  residual : Option ResidualBucket
  pooledCount : Nat

def pooledContributor (c : Str × Str) : JsValue := .obj [(lit "did", .str c.1), (lit "weight", .str c.2)]

/-- SHA-256 of the list sorted by DID, in hex. The sort is stable. -/
def pooledContributorsHash (P : Platform) (pooled : List (Str × Str)) : Except AttributionError Str := do
  let digest ← hashAxisLeafForWrite P (.arr ((sortByName pooled).map pooledContributor))
  return hex digest

section
variable (P : Platform) {E : Type} (axis : PooledAxis E)

/-- One turn of the loop. -/
def poolItem (minWeight : JsNumber) (s : Pool E) : AxisItem E → Except PoolError (Pool E)
  | .residual bucket => return { s with retained := s.retained ++ [AxisItem.residual bucket] }
  | .entry e =>
    match axis.weight e with
    | none => return { s with retained := s.retained ++ [AxisItem.entry e] }
    | some weight => do
      let canonicalWeight ← toWeightString (.inr weight)
      let w ← weightNumber canonicalWeight
      if w.lt minWeight then
        return { s with pooled := s.pooled ++ [(axis.did e, canonicalWeight)], totalPooled := s.totalPooled.add w }
      else return { s with retained := s.retained ++ [AxisItem.entry (axis.withWeight e canonicalWeight)] }

def residualBucket (s : Pool E) : Except PoolError ResidualBucket := do
  let total ← toWeightString (.inl s.totalPooled)
  let digest ← (pooledContributorsHash P s.pooled).mapError .hash
  return ⟨axis.id, total, .ofInt s.pooled.length, digest⟩

/-- `opts.minWeight ?? DEFAULT_MIN_WEIGHT`. -/
def threshold (minWeight : Option JsNumber) : JsNumber := minWeight.getD DEFAULT_MIN_WEIGHT

def aggregateAxis (items : List (AxisItem E)) (minWeight : Option JsNumber) :
    Except PoolError (AggregationResult E) := do
  let s ← items.foldlM (poolItem axis (threshold minWeight)) ⟨[], [], zeroOf false⟩
  if s.pooled.length = 0 then return ⟨s.retained, none, 0⟩
  else do
    let residual ← residualBucket P axis s
    return ⟨s.retained, some residual, s.pooled.length⟩

def aggregateDataAxis := aggregateAxis P dataAxis

def aggregateProtocolAxis := aggregateAxis P protocolAxis

def aggregateComputeAxis := aggregateAxis P computeAxis

end

section
variable {E : Type} (axis : PooledAxis E)

def explicitWeight : AxisItem E → Option Str
  | .entry e => axis.weight e
  | .residual _ => none

/-- The micro-units of an item; an entry without a weight has none. -/
def itemMicro : AxisItem E → Nat
  | .entry e => (axis.weight e).elim 0 microUnits
  | .residual bucket => microUnits bucket.total_pooled_weight

def totalMicro (items : List (AxisItem E)) : Nat := (items.map (itemMicro axis)).sum

def belowThreshold (minWeight : JsNumber) (item : AxisItem E) : Bool :=
  (explicitWeight axis item).any (fun w => (parseFloat w).lt minWeight)

def atLeastThreshold (minWeight : JsNumber) (item : AxisItem E) : Bool := !belowThreshold axis minWeight item

def CanonicalWeights (items : List (AxisItem E)) : Prop :=
  ∀ item ∈ items, ∀ w ∈ explicitWeight axis item, isWeightString w = true ∧ microUnits w ≤ 10 ^ 6

/-- What is at or above the threshold is retained, and nothing of the weights is lost. -/
structure Conserved (minWeight : JsNumber) (items : List (AxisItem E)) (r : AggregationResult E) : Prop where
  retained : r.retained = items.filter (atLeastThreshold axis minWeight)
  total : totalMicro axis r.retained + r.residual.elim 0 (fun b => microUnits b.total_pooled_weight) =
    totalMicro axis items

/-- Pooling returns, and with a result that conserves the weights. -/
def Pools (minWeight : Option JsNumber) (items : List (AxisItem E))
    (outcome : Except PoolError (AggregationResult E)) : Prop :=
  ∃ r, outcome = .ok r ∧ Conserved axis (threshold minWeight) items r

def pooledMicros (minWeight : JsNumber) (items : List (AxisItem E)) : List Nat :=
  (items.filter (belowThreshold axis minWeight)).map (itemMicro axis)

/-- What is pooled weighs less than one unit, or one unit with doubles that do not add up to more. -/
def FitsUnit (micros : List Nat) : Prop :=
  micros.sum < 10 ^ 6 ∨ micros.sum = 10 ^ 6 ∧ JsNumber.lt (.finite .one) (addMicro (zeroOf false) micros) = false

theorem not_fitsUnit {micros : List Nat} (h : 10 ^ 6 < micros.sum) : ¬ FitsUnit micros := by
  rintro (hlight | ⟨hunit, -⟩) <;> omega

def contributor : AxisItem E → Str × Str
  | .entry e => (axis.did e, (axis.weight e).getD [])
  | .residual _ => ([], [])

variable {axis} {minWeight : JsNumber} {items : List (AxisItem E)}

theorem retained_cons (item : AxisItem E) (rest : List (AxisItem E)) :
    (item :: rest).filter (atLeastThreshold axis minWeight) =
      if belowThreshold axis minWeight item then rest.filter (atLeastThreshold axis minWeight)
      else item :: rest.filter (atLeastThreshold axis minWeight) := by
  rw [List.filter_cons, atLeastThreshold]
  cases belowThreshold axis minWeight item <;> rfl

theorem pooledMicros_cons (item : AxisItem E) (rest : List (AxisItem E)) :
    pooledMicros axis minWeight (item :: rest) =
      if belowThreshold axis minWeight item then itemMicro axis item :: pooledMicros axis minWeight rest
      else pooledMicros axis minWeight rest := by
  rw [pooledMicros, List.filter_cons]
  cases belowThreshold axis minWeight item <;> rfl

theorem totalMicro_split (axis : PooledAxis E) (minWeight : JsNumber) (items : List (AxisItem E)) :
    totalMicro axis (items.filter (atLeastThreshold axis minWeight)) + (pooledMicros axis minWeight items).sum =
      totalMicro axis items := by
  induction items with
  | nil => rfl
  | cons item rest ih =>
    rw [retained_cons, pooledMicros_cons]
    cases belowThreshold axis minWeight item with
    | true =>
      simp only [if_true, totalMicro, List.map_cons, List.sum_cons] at ih ⊢
      omega
    | false =>
      simp only [Bool.false_eq_true, if_false, totalMicro, List.map_cons, List.sum_cons] at ih ⊢
      omega

theorem poolItem_ok {item : AxisItem E}
    (h : ∀ w ∈ explicitWeight axis item, isWeightString w = true ∧ microUnits w ≤ 10 ^ 6) (s : Pool E) :
    poolItem axis minWeight s item = .ok (if belowThreshold axis minWeight item
      then ⟨s.retained, s.pooled ++ [contributor axis item], s.totalPooled.add (microNumber (itemMicro axis item))⟩
      else ⟨s.retained ++ [item], s.pooled, s.totalPooled⟩) := by
  cases item with
  | residual bucket =>
    have hbelow : belowThreshold axis minWeight (.residual bucket) = false := rfl
    simp only [poolItem, hbelow]
    rfl
  | entry e =>
    cases hw : axis.weight e with
    | none =>
      have hbelow : belowThreshold axis minWeight (.entry e) = false := by
        rw [belowThreshold, explicitWeight, hw]
        rfl
      simp only [poolItem, hw, hbelow]
      rfl
    | some w =>
      obtain ⟨hcanonical, hunit⟩ := h w hw
      have hbelow : belowThreshold axis minWeight (.entry e) = (parseFloat w).lt minWeight := by
        rw [belowThreshold, explicitWeight, hw, Option.any_some]
      obtain ⟨d, hd, -⟩ := microNumber_nonneg hunit
      have hfinite : parseFloat w = .finite d := hd
      have hnumber : weightNumber w = .ok (parseFloat w) := by
        simp only [weightNumber, hfinite]
        rfl
      simp only [poolItem, hw, toWeightString, hcanonical, hbelow, if_true]
      rw [pure_bind]
      refine bind_eq_ok.mpr ⟨parseFloat w, hnumber, ?_⟩
      have hmicro : microNumber (itemMicro axis (.entry e)) = parseFloat w := by
        rw [itemMicro, hw]
        rfl
      have hcontributor : contributor axis (.entry e) = (axis.did e, w) := by
        rw [contributor, hw]
        rfl
      rw [axis.withWeight_self hw, hcontributor, hmicro]
      cases (parseFloat w).lt minWeight <;> rfl

theorem pool_items (minWeight : JsNumber) (h : CanonicalWeights axis items) (s : Pool E) :
    items.foldlM (poolItem axis minWeight) s =
      .ok ⟨s.retained ++ items.filter (atLeastThreshold axis minWeight),
        s.pooled ++ (items.filter (belowThreshold axis minWeight)).map (contributor axis),
        addMicro s.totalPooled (pooledMicros axis minWeight items)⟩ := by
  induction items generalizing s with
  | nil =>
    simp only [List.filter_nil, List.map_nil, List.append_nil]
    rfl
  | cons item rest ih =>
    obtain ⟨hitem, hrest⟩ := List.forall_mem_cons.mp h
    rw [List.foldlM_cons]
    refine bind_eq_ok.mpr ⟨_, poolItem_ok hitem s, ?_⟩
    rw [ih hrest]
    rw [retained_cons, pooledMicros_cons, List.filter_cons]
    cases belowThreshold axis minWeight item with
    | true => simp only [if_true, addMicro, List.foldl_cons, List.map_cons, List.append_assoc, List.singleton_append]
    | false => simp only [Bool.false_eq_true, if_false, List.append_assoc, List.singleton_append]

theorem pooledMicros_unit (h : CanonicalWeights axis items) : ∀ n ∈ pooledMicros axis minWeight items, n ≤ 10 ^ 6 := by
  intro n hn
  obtain ⟨item, hitem, rfl⟩ := List.mem_map.mp hn
  obtain ⟨hmem, hbelow⟩ := List.mem_filter.mp hitem
  obtain ⟨w, hw, -⟩ := (Option.any_eq_true ..).mp hbelow
  cases item with
  | residual bucket => cases hw
  | entry e =>
    have hweight : axis.weight e = some w := hw
    rw [itemMicro, hweight]
    exact (h _ hmem w hw).2

theorem pooledContributorsHash_returns (P : Platform) (pooled : List (Str × Str)) :
    ∃ digest, pooledContributorsHash P pooled = .ok digest := by
  have htext : TextValue (.arr ((sortByName pooled).map pooledContributor)) := by
    refine .arr ?_
    intro v hv
    obtain ⟨c, -, rfl⟩ := List.mem_map.mp hv
    refine .obj ?_
    intro m hm
    obtain rfl | rfl := List.mem_pair.mp hm
    · exact .str c.1
    · exact .str c.2
  obtain ⟨text, -, hwritten⟩ := @TextValue.written P.numText _ htext (lit "$")
  refine ⟨hex (P.sha256 (Utf8.utf8 text)), ?_⟩
  rw [pooledContributorsHash, hashAxisLeafForWrite, hwritten]
  rfl

theorem residualBucket_light (axis : PooledAxis E) (P : Platform) (retained : List (AxisItem E))
    (pooled : List (Str × Str)) {x : JsNumber} {n : Nat} (hx : Near x n) (hn : n ≤ 10 ^ 6)
    (hone : JsNumber.lt (.finite .one) x = false) :
    ∃ bucket, residualBucket P axis ⟨retained, pooled, x⟩ = .ok bucket ∧ microUnits bucket.total_pooled_weight = n := by
  obtain ⟨digest, hdigest⟩ := pooledContributorsHash_returns P pooled
  obtain ⟨d, rfl, hnonneg, hfixed⟩ := hx.toFixed hn
  refine ⟨⟨axis.id, weightText n, .ofInt pooled.length, digest⟩, ?_, microUnits_weightText n⟩
  have htotal : toWeightString (.inl (.finite d)) = .ok (weightText n) := by
    rw [toWeightString, hnonneg, hone, hfixed]
    rfl
  rw [residualBucket, htotal, hdigest]
  rfl

theorem residualBucket_heavy (P : Platform) (retained : List (AxisItem E)) (pooled : List (Str × Str)) {x : JsNumber}
    (h : JsNumber.lt (.finite .one) x = true) : ∃ e, residualBucket P axis ⟨retained, pooled, x⟩ = .error e := by
  rw [residualBucket]
  cases x with
  | finite d =>
    refine ⟨.range (.finite d), ?_⟩
    rw [toWeightString, h, Bool.or_true]
    rfl
  | nan => exact ⟨.notFinite .nan, rfl⟩
  | infinite neg => exact ⟨.notFinite (.infinite neg), rfl⟩

theorem pool_all (h : CanonicalWeights axis items) :
    items.foldlM (poolItem axis minWeight) ⟨[], [], zeroOf false⟩ =
      .ok ⟨items.filter (atLeastThreshold axis minWeight),
        (items.filter (belowThreshold axis minWeight)).map (contributor axis),
        addMicro (zeroOf false) (pooledMicros axis minWeight items)⟩ :=
  pool_items minWeight h ⟨[], [], zeroOf false⟩

theorem light_pool (P : Platform) {minWeight : Option JsNumber} (h : CanonicalWeights axis items)
    (hfits : FitsUnit (pooledMicros axis (threshold minWeight) items)) :
    Pools axis minWeight items (aggregateAxis P axis items minWeight) := by
  unfold aggregateAxis Pools
  generalize threshold minWeight = t at hfits ⊢
  have hsplit := totalMicro_split axis t items
  have hsum : (pooledMicros axis t items).sum ≤ 10 ^ 6 := by
    obtain hlight | ⟨hunit, -⟩ := hfits <;> omega
  have hnear := addMicro_near hsum
  have hone : JsNumber.lt (.finite .one) (addMicro (zeroOf false) (pooledMicros axis t items)) = false := by
    obtain hlight | ⟨-, hone⟩ := hfits
    · exact hnear.light hlight
    · exact hone
  by_cases hnone : items.filter (belowThreshold axis t) = []
  · refine ⟨_, bind_eq_ok.mpr ⟨_, pool_all h, if_pos (by rw [hnone]; rfl)⟩, rfl, ?_⟩
    rw [← hsplit, pooledMicros, hnone]
    rfl
  · have hlen : ¬ ((items.filter (belowThreshold axis t)).map (contributor axis)).length = 0 := by
      rw [List.length_map]
      exact fun hlen => hnone (List.length_eq_zero_iff.mp hlen)
    obtain ⟨bucket, hbucket, hmicro⟩ := residualBucket_light axis P (items.filter (atLeastThreshold axis t))
      ((items.filter (belowThreshold axis t)).map (contributor axis)) hnear hsum hone
    refine ⟨⟨items.filter (atLeastThreshold axis t), some bucket,
      ((items.filter (belowThreshold axis t)).map (contributor axis)).length⟩,
      bind_eq_ok.mpr ⟨_, pool_all h, ?_⟩, rfl, ?_⟩
    · rw [if_neg hlen, hbucket]
      rfl
    · rw [← hsplit, ← hmicro]
      rfl

theorem heavy_pool (P : Platform) {minWeight : Option JsNumber} (h : CanonicalWeights axis items)
    (hheavy : ¬ FitsUnit (pooledMicros axis (threshold minWeight) items)) :
    ∃ e, aggregateAxis P axis items minWeight = .error e := by
  unfold aggregateAxis
  generalize threshold minWeight = t at hheavy ⊢
  obtain ⟨hlight, hunit⟩ := not_or.mp hheavy
  have hone : JsNumber.lt (.finite .one) (addMicro (zeroOf false) (pooledMicros axis t items)) = true := by
    obtain hsum | hsum := Nat.lt_or_eq_of_le (Nat.le_of_not_lt hlight)
    · exact addMicro_heavy (pooledMicros_unit h) hsum
    · exact eq_true_of_ne_false (fun hfalse => hunit ⟨hsum.symm, hfalse⟩)
  have hlen : ¬ ((items.filter (belowThreshold axis t)).map (contributor axis)).length = 0 := by
    intro hlen
    rw [List.length_map, List.length_eq_zero_iff] at hlen
    rw [pooledMicros, hlen] at hlight
    exact hlight (show 0 < 10 ^ 6 by decide)
  obtain ⟨e, he⟩ := @residualBucket_heavy _ axis P (items.filter (atLeastThreshold axis t))
    ((items.filter (belowThreshold axis t)).map (contributor axis)) _ hone
  refine ⟨e, bind_eq_error.mpr (.inr ⟨_, pool_all h, ?_⟩)⟩
  rw [if_neg hlen, he]
  rfl

theorem pools_iff (P : Platform) (minWeight : Option JsNumber) (h : CanonicalWeights axis items) :
    Pools axis minWeight items (aggregateAxis P axis items minWeight) ↔
      FitsUnit (pooledMicros axis (threshold minWeight) items) := by
  constructor
  · rintro ⟨r, hr, -⟩
    by_contra hheavy
    obtain ⟨e, he⟩ := heavy_pool P h hheavy
    rw [he] at hr
    cases hr
  · exact light_pool P h

end

/-- The text is that of the micro-units nearest to the share. -/
def RoundsTo (w : Str) (share : ℚ) : Prop := ∃ n : ℕ, w = weightText n ∧ |(n : ℚ) - share * 10 ^ 6| ≤ 1 / 2

/-- The texts are the roundings of non-negative shares that sum to one. -/
def RoundedDistribution (weights : List Str) : Prop :=
  ∃ shares : List ℚ, List.Forall₂ RoundsTo weights shares ∧ (∀ x ∈ shares, 0 ≤ x) ∧ shares.sum = 1

theorem RoundedDistribution.canonical {E : Type} {axis : PooledAxis E} {items : List (AxisItem E)}
    (h : RoundedDistribution (items.filterMap (explicitWeight axis))) : CanonicalWeights axis items := by
  obtain ⟨shares, hrounds, hnonneg, hsum⟩ := h
  intro item hitem w hw
  obtain ⟨x, hx, ⟨n, rfl, hnear⟩⟩ := forall₂_mem hrounds (List.mem_filterMap.mpr ⟨item, hitem, hw⟩)
  refine ⟨weightText_canonical n, ?_⟩
  have hone : x ≤ 1 := hsum ▸ List.single_le_sum hnonneg x hx
  have hlt : (n : ℚ) < ((10 ^ 6 + 1 : ℕ) : ℚ) := by
    push_cast
    linarith [(abs_le.mp hnear).2]
  rw [microUnits_weightText]
  exact Nat.le_of_lt_succ (Nat.cast_lt.mp hlt)

/-- On every axis that can be pooled, and at every threshold, pooling returns and conserves the
weights exactly when what it pools fits in one unit. -/
theorem pooling_conserves_iff (P : Platform) (minWeight : Option JsNumber) (D : List (AxisItem DataAxisEntry))
    (C : List (AxisItem ComputeAxisEntry)) (M : List (AxisItem ProtocolAxisEntry))
    (hD : CanonicalWeights dataAxis D) (hC : CanonicalWeights computeAxis C) (hM : CanonicalWeights protocolAxis M) :
    (Pools dataAxis minWeight D (aggregateDataAxis P D minWeight) ↔
      FitsUnit (pooledMicros dataAxis (threshold minWeight) D)) ∧
    (Pools computeAxis minWeight C (aggregateComputeAxis P C minWeight) ↔
      FitsUnit (pooledMicros computeAxis (threshold minWeight) C)) ∧
    (Pools protocolAxis minWeight M (aggregateProtocolAxis P M minWeight) ↔
      FitsUnit (pooledMicros protocolAxis (threshold minWeight) M)) :=
  ⟨pools_iff P minWeight hD, pools_iff P minWeight hC, pools_iff P minWeight hM⟩

/-- One unit whose doubles add up to more, and in another order do not. -/
example : ¬ FitsUnit [539344, 335892, 124764] := by
  unfold FitsUnit
  decide +kernel

example : FitsUnit [124764, 335892, 539344] := by
  unfold FitsUnit
  decide +kernel

def crowd (n : Nat) (w : Str) : List (AxisItem DataAxisEntry) :=
  (List.range n).map (fun i => .entry ⟨lit "did:aps:reader-" ++ decimal i, w, lit "a1"⟩)

theorem crowd_weights (n : Nat) (w : Str) :
    (crowd n w).filterMap (explicitWeight dataAxis) = (List.range n).map (fun _ => w) := by
  rw [crowd, List.filterMap_map, ← List.filterMap_eq_map]
  rfl

theorem crowd_rounded {n : Nat} {w : Str} (hpos : 0 < n) (h : RoundsTo w (1 / n)) :
    RoundedDistribution ((crowd n w).filterMap (explicitWeight dataAxis)) := by
  have hcast : (n : ℚ) ≠ 0 := by exact_mod_cast hpos.ne'
  rw [crowd_weights]
  refine ⟨(List.range n).map (fun _ => 1 / (n : ℚ)), ?_, ?_, ?_⟩
  · rw [List.forall₂_map_left_iff, List.forall₂_map_right_iff, List.forall₂_same]
    exact fun _ _ => h
  · intro x hx
    obtain ⟨-, -, rfl⟩ := List.mem_map.mp hx
    positivity
  · rw [List.map_const', List.length_range, List.sum_replicate, nsmul_eq_mul]
    exact mul_one_div_cancel hcast

theorem crowd_pooled {n : Nat} {w : Str} {minWeight : JsNumber} (h : (parseFloat w).lt minWeight = true) :
    (pooledMicros dataAxis minWeight (crowd n w)).sum = n * microUnits w := by
  have hbelow : ∀ item ∈ crowd n w, belowThreshold dataAxis minWeight item = true := by
    intro item hitem
    obtain ⟨i, -, rfl⟩ := List.mem_map.mp hitem
    exact h
  have hmicro : (crowd n w).map (itemMicro dataAxis) = (List.range n).map (fun _ => microUnits w) := by
    rw [crowd, List.map_map]
    rfl
  rw [pooledMicros, List.filter_eq_self.mpr hbelow, hmicro, List.map_const', List.length_range]
  exact List.sum_replicate_nat

def samplePlatform : Platform where
  numText := integerText
  sha256 := ofTable [(ascii "[\x7b\"did\":\"did:aps:b\",\"weight\":\"0.000400\"\x7d]",
    lit "117db4b994a05bf1e6888a6da6b4d1400564f455f818a02717a5618b0dcb0add")]
  sign _ _ := none
  verify _ _ _ := false

def twoProviders : List (AxisItem ComputeAxisEntry) :=
  [.entry ⟨lit "did:aps:a", lit "0.999600", lit "a1"⟩, .entry ⟨lit "did:aps:b", lit "0.000400", lit "a2"⟩]

theorem pooling_conserves_two_providers :
    Pools computeAxis none twoProviders (aggregateComputeAxis samplePlatform twoProviders none) := by
  have hcanonical : CanonicalWeights computeAxis twoProviders := by
    intro item hitem w hw
    obtain rfl | rfl := List.mem_pair.mp hitem <;> cases hw <;> decide
  refine (pooling_conserves_iff samplePlatform none [] twoProviders [] (fun _ h => absurd h List.not_mem_nil)
    hcanonical (fun _ h => absurd h List.not_mem_nil)).2.1.mpr ?_
  unfold FitsUnit
  decide +kernel

/-- Fifteen hundred readers of equal share round up to more than one unit, all of it below the
default threshold. -/
theorem crowd_not_pooled :
    RoundedDistribution ((crowd 1500 (lit "0.000667")).filterMap (explicitWeight dataAxis)) ∧
    (pooledMicros dataAxis (threshold none) (crowd 1500 (lit "0.000667"))).sum = 1000500 ∧
    (∃ e, aggregateDataAxis samplePlatform (crowd 1500 (lit "0.000667")) none = .error e) ∧
    ¬ Pools dataAxis none (crowd 1500 (lit "0.000667"))
      (aggregateDataAxis samplePlatform (crowd 1500 (lit "0.000667")) none) := by
  have hmicro : microUnits (lit "0.000667") = 667 := by decide
  have hrounded : RoundedDistribution ((crowd 1500 (lit "0.000667")).filterMap (explicitWeight dataAxis)) := by
    refine crowd_rounded (by decide) ⟨667, by decide, ?_⟩
    rw [abs_le]
    norm_num
  have hbelow : (parseFloat (lit "0.000667")).lt (threshold none) = true := by decide +kernel
  have hsum : (pooledMicros dataAxis (threshold none) (crowd 1500 (lit "0.000667"))).sum = 1000500 :=
    (crowd_pooled hbelow).trans (by rw [hmicro])
  obtain ⟨e, herror⟩ := heavy_pool samplePlatform hrounded.canonical
    (not_fitsUnit ((show 10 ^ 6 < 1000500 by decide).trans_eq hsum.symm))
  refine ⟨hrounded, hsum, ⟨e, herror⟩, ?_⟩
  rintro ⟨r, hr, -⟩
  cases herror.symm.trans hr

end AgentPassport.ResidualPooling
