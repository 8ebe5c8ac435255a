import AgentPassport.Attribution

/-! Whether the order in which the entries of the axes are handed in shows in their normal form and in
the root (`v2/attribution-primitive/canonical.ts`, `merkle.ts`): it does exactly where different entries
of one axis have the same key. -/
namespace AgentPassport.AxisOrder
open JsText Js Attribution Sha256
open CanonicalInjective (integerText)

section Key
variable {α : Type} (key : α → Str)

def sortByKey (l : List α) : List α := l.insertionSort (fun a b => key a ≤ key b)

theorem sortByKey_perm (l : List α) : (sortByKey key l).Perm l := List.perm_insertionSort _ l

theorem sortByKey_pairwise (l : List α) : (sortByKey key l).Pairwise (fun a b => key a ≤ key b) := by
  have : IsTrans α (fun a b => key a ≤ key b) := ⟨fun _ _ _ => List.le_trans⟩
  have : Std.Total (fun a b : α => key a ≤ key b) := ⟨fun a b => List.le_total (key a) (key b)⟩
  exact List.pairwise_insertionSort _ l

theorem sortByKey_congr {l l' : List α} (hperm : l.Perm l') (hties : ∀ a ∈ l, ∀ b ∈ l, key a = key b → a = b) :
    sortByKey key l = sortByKey key l' := by
  refine List.Perm.eq_of_pairwise ?_ (sortByKey_pairwise key l) (sortByKey_pairwise key l')
    ((sortByKey_perm key l).trans (hperm.trans (sortByKey_perm key l').symm))
  intro a b ha hb hab hba
  refine hties a ((sortByKey_perm key l).mem_iff.mp ha) b
    (hperm.mem_iff.mpr ((sortByKey_perm key l').mem_iff.mp hb)) (List.le_antisymm hab hba)

theorem sortByKey_tie {a b : α} {k : Str} (ha : key a = k) (hb : key b = k) (rest : List α) :
    sortByKey key (a :: b :: rest) = (sortByKey key rest).takeWhile (fun c => decide ¬ k ≤ key c) ++
      a :: b :: (sortByKey key rest).dropWhile (fun c => decide ¬ k ≤ key c) := by
  let lower := fun c : α => decide ¬ k ≤ key c
  have hinsert : ∀ {c : α}, key c = k → ∀ l, sortByKey key (c :: l) =
      (sortByKey key l).takeWhile lower ++ c :: (sortByKey key l).dropWhile lower := by
    intro c hc l
    have htake := List.orderedInsert_eq_take_drop (fun a b : α => key a ≤ key b) c (sortByKey key l)
    rw [hc] at htake
    exact htake
  have hlower : ∀ c ∈ (sortByKey key rest).takeWhile lower, lower c = true := fun c hc => List.mem_takeWhile_imp hc
  have hself : ¬ lower b = true := by
    rw [decide_eq_true_iff, not_not, hb]
    exact List.le_refl k
  rw [hinsert ha, hinsert hb, List.takeWhile_append_of_pos hlower, List.dropWhile_append_of_pos hlower,
    List.takeWhile_cons_of_neg hself, List.dropWhile_cons_of_neg hself, List.append_nil]

theorem sortByKey_swap {a b : α} (hkey : key a = key b) (hne : a ≠ b) (rest : List α) :
    sortByKey key (a :: b :: rest) ≠ sortByKey key (b :: a :: rest) := by
  rw [sortByKey_tie key hkey rfl, sortByKey_tie key rfl hkey]
  intro heq
  exact hne (List.cons.inj (List.append_cancel_left heq)).1

end Key

theorem eq_of_short {α : Type} {l l' : List α} (h : l.length ≤ 1) (hperm : l.Perm l') : l = l' := by
  cases l with
  | nil => exact hperm.nil_eq
  | cons first rest =>
    rw [List.length_cons] at h
    obtain rfl : rest = [] := List.eq_nil_of_length_eq_zero (by omega)
    exact (List.perm_singleton.mp hperm.symm).symm

section Axis
variable {E : Type} (axis : AttributionAxisTag) (key : E → Str) {items items' : List (AxisItem E)}

/-- Entries of one key are one entry. -/
def TiesAgree (items : List (AxisItem E)) : Prop :=
  ∀ a b, .entry a ∈ items → .entry b ∈ items → key a = key b → a = b

def residuals (items : List (AxisItem E)) : List (AxisItem E) := items.filter AxisItem.isResidual

theorem sortAxis_error (h : 1 < (residuals items).length) : sortAxis axis key items = .error (.residuals axis) :=
  if_pos h

theorem sortAxis_ok (h : (residuals items).length ≤ 1) : sortAxis axis key items =
    .ok ((sortByKey key (items.filterMap AxisItem.entry?)).map .entry ++ residuals items) :=
  if_neg (Nat.not_lt.mpr h)

theorem mem_entries {e : E} : e ∈ items.filterMap AxisItem.entry? ↔ .entry e ∈ items := by
  rw [List.mem_filterMap]
  constructor
  · intro h
    obtain ⟨item, hitem, heq⟩ := h
    cases item with
    | entry e' =>
      cases heq
      exact hitem
    | residual bucket => cases heq
  · intro h
    exact ⟨.entry e, h, rfl⟩

theorem sortAxis_congr (hperm : items.Perm items') (hties : TiesAgree key items) :
    sortAxis axis key items' = sortAxis axis key items := by
  have hresiduals : (residuals items).Perm (residuals items') := hperm.filter _
  by_cases hmany : 1 < (residuals items).length
  · rw [sortAxis_error axis key hmany, sortAxis_error axis key (hresiduals.length_eq ▸ hmany)]
  · rw [Nat.not_lt] at hmany
    have hsame : residuals items = residuals items' := eq_of_short hmany hresiduals
    have hentries := sortByKey_congr key (hperm.filterMap AxisItem.entry?)
      (fun a ha b hb => hties a b (mem_entries.mp ha) (mem_entries.mp hb))
    rw [sortAxis_ok axis key hmany, sortAxis_ok axis key (hsame ▸ hmany), hentries, hsame]

theorem exists_perm_cons {α : Type} {a : α} {l : List α} (h : a ∈ l) : ∃ rest, l.Perm (a :: rest) := by
  obtain ⟨front, back, rfl⟩ := List.append_of_mem h
  exact ⟨front ++ back, List.perm_middle⟩

theorem sortAxis_tie (hfew : (residuals items).length ≤ 1) (hties : ¬ TiesAgree key items) :
    ∃ first second sorted sorted', items.Perm first ∧ items.Perm second ∧ sortAxis axis key first = .ok sorted ∧
      sortAxis axis key second = .ok sorted' ∧ sorted ≠ sorted' := by
  simp only [TiesAgree, not_forall] at hties
  obtain ⟨a, b, ha, hb, hkey, hne⟩ := hties
  obtain ⟨tail, htail⟩ := exists_perm_cons ha
  have hb : .entry b ∈ tail := by
    obtain heq | hmem := List.mem_cons.mp (htail.mem_iff.mp hb)
    · cases heq
      exact absurd rfl hne
    · exact hmem
  obtain ⟨rest, hrest⟩ := exists_perm_cons hb
  have hfirst : items.Perm (.entry a :: .entry b :: rest) := htail.trans (hrest.cons _)
  have hsecond : items.Perm (.entry b :: .entry a :: rest) := hfirst.trans (List.Perm.swap _ _ _)
  have hcount : ∀ {l : List (AxisItem E)}, items.Perm l → (residuals l).length ≤ 1 := by
    intro l hl
    exact (hl.filter _).length_eq ▸ hfew
  refine ⟨_, _, _, _, hfirst, hsecond, sortAxis_ok axis key (hcount hfirst), sortAxis_ok axis key (hcount hsecond), ?_⟩
  intro heq
  have hentries := List.append_inj_left' heq rfl
  have hsorted := (List.map_injective_iff.mpr fun _ _ h => AxisItem.entry.inj h) hentries
  exact sortByKey_swap key hkey hne (rest.filterMap AxisItem.entry?) hsorted

end Axis

theorem inDepthOrder_iff {a b : GovernanceAxisEntry} : inDepthOrder a b = true ↔ b.depth.lt a.depth = false := by
  rw [inDepthOrder, JsNumber.sub_neg, Bool.not_eq_true']

/-- No depth is NaN. -/
def Dated (items : List GovernanceAxisEntry) : Prop := ∀ e ∈ items, e.depth ≠ .nan

def Distinct (items : List GovernanceAxisEntry) : Prop := items.Pairwise (fun a b => a.depth.eq b.depth = false)

variable {a b : JsNumber}

theorem eq_of_le_of_le (hab : a.le b = true) (hba : b.le a = true) : a.eq b = true := by
  rw [JsNumber.le, Bool.or_eq_true] at hab hba
  obtain hlt | heq := hab
  · obtain hgt | heq := hba
    · rw [JsNumber.lt_asymm hlt] at hgt
      cases hgt
    · rw [JsNumber.eq_comm]
      exact heq
  · exact heq

theorem ne_of_lt (h : a.lt b = true) : a.eq b = false := by
  obtain a | _ | (_ | _) := a <;> obtain b | _ | (_ | _) := b <;> simp [JsNumber.lt, JsNumber.eq] at h ⊢
  omega

/-- No deeper than the other, and less deep. -/
def Upto (a b : GovernanceAxisEntry) : Prop := a.depth.le b.depth = true

def Above (a b : GovernanceAxisEntry) : Prop := a.depth.lt b.depth = true

instance : Trans Upto Upto Upto := ⟨JsNumber.le_trans⟩

instance : Trans Above Above Above := ⟨JsNumber.lt_trans⟩

theorem lt_of_le_of_ne (hle : a.le b = true) (hne : b.eq a = false) : a.lt b = true := by
  rw [JsNumber.le, Bool.or_eq_true] at hle
  obtain hlt | heq := hle
  · exact hlt
  · rw [JsNumber.eq_comm, hne] at heq
    cases heq

def sortByDepth (items : List GovernanceAxisEntry) : List GovernanceAxisEntry :=
  items.insertionSort (fun a b => inDepthOrder a b = true)

theorem sortByDepth_perm (items : List GovernanceAxisEntry) : (sortByDepth items).Perm items :=
  List.perm_insertionSort _ items

variable {items items' : List GovernanceAxisEntry}

theorem Dated.perm (h : Dated items) (hperm : items.Perm items') : Dated items' :=
  fun e he => h e (hperm.mem_iff.mpr he)

theorem Distinct.perm_iff (hperm : items.Perm items') : Distinct items ↔ Distinct items' := by
  refine hperm.pairwise_iff ?_
  intro a b h
  rwa [JsNumber.eq_comm]

theorem sortByDepth_pairwise (h : Dated items) : (sortByDepth items).Pairwise Upto := by
  have htotal : ∀ a b : GovernanceAxisEntry, inDepthOrder a b = true ∨ inDepthOrder b a = true := by
    intro a b
    rw [inDepthOrder_iff, inDepthOrder_iff]
    cases hlt : b.depth.lt a.depth with
    | false => exact .inl rfl
    | true => exact .inr (JsNumber.lt_asymm hlt)
  have hchain := isChain_insertionSort (fun a b => inDepthOrder a b = true) htotal items
  have hdated := h.perm (sortByDepth_perm items).symm
  rw [← List.isChain_iff_pairwise]
  refine hchain.imp_of_mem_imp ?_
  intro a b ha hb hab
  exact JsNumber.le_of_not_lt (hdated a ha) (hdated b hb) (inDepthOrder_iff.mp hab)

theorem duplicateDepth_none_iff (items : List GovernanceAxisEntry) :
    duplicateDepth items = none ↔ items.IsChain (fun a b => b.depth.eq a.depth = false) := by
  induction items with
  | nil => exact iff_of_true rfl List.isChain_nil
  | cons a rest ih =>
    cases rest with
    | nil => exact iff_of_true rfl (List.isChain_singleton a)
    | cons b rest =>
      rw [duplicateDepth, List.isChain_cons_cons, ← ih]
      cases b.depth.eq a.depth with
      | false => simp
      | true => simp

theorem duplicateDepth_sorted (h : Dated items) : duplicateDepth (sortByDepth items) = none ↔ Distinct items := by
  rw [duplicateDepth_none_iff, ← Distinct.perm_iff (sortByDepth_perm items)]
  have hsorted := sortByDepth_pairwise h
  constructor
  · intro hchain
    have habove : (sortByDepth items).IsChain Above := by
      clear h
      generalize sortByDepth items = sorted at hsorted hchain
      induction hchain with
      | nil => exact List.isChain_nil
      | singleton a => exact List.isChain_singleton a
      | cons_cons hne _ ih =>
        obtain ⟨hupto, htail⟩ := List.pairwise_cons.mp hsorted
        exact List.isChain_cons_cons.mpr ⟨lt_of_le_of_ne (hupto _ List.mem_cons_self) hne, ih htail⟩
    exact (List.isChain_iff_pairwise.mp habove).imp ne_of_lt
  · intro hdistinct
    refine hdistinct.isChain.imp ?_
    intro a b h
    rwa [JsNumber.eq_comm]

/-- The comparison of depths orders the entries: there is at most one, or no depth is NaN. -/
def Comparable (items : List GovernanceAxisEntry) : Prop := items.length ≤ 1 ∨ Dated items

theorem Comparable.perm (h : Comparable items) (hperm : items.Perm items') : Comparable items' := by
  obtain hshort | hdated := h
  · exact .inl (hperm.length_eq ▸ hshort)
  · exact .inr (hdated.perm hperm)

theorem duplicateDepth_iff (h : Comparable items) : duplicateDepth (sortByDepth items) = none ↔ Distinct items := by
  obtain hshort | hdated := h
  · cases items with
    | nil => exact iff_of_true rfl List.Pairwise.nil
    | cons e rest =>
      rw [List.length_cons] at hshort
      obtain rfl : rest = [] := List.eq_nil_of_length_eq_zero (by omega)
      exact iff_of_true rfl (List.pairwise_singleton _ e)
  · exact duplicateDepth_sorted hdated

theorem orderGovernanceAxis_ok (h : Comparable items) (hdistinct : Distinct items) :
    orderGovernanceAxis items = .ok (sortByDepth items) := by
  rw [orderGovernanceAxis, ← sortByDepth, (duplicateDepth_iff h).mpr hdistinct]
  rfl

theorem orderGovernanceAxis_error (h : Comparable items) (hdistinct : ¬ Distinct items) :
    ∃ e, orderGovernanceAxis items = .error e := by
  rw [← duplicateDepth_iff h] at hdistinct
  obtain ⟨depth, hdepth⟩ := Option.ne_none_iff_exists'.mp hdistinct
  rw [orderGovernanceAxis, ← sortByDepth, hdepth]
  exact ⟨_, rfl⟩

theorem sortByDepth_congr (hperm : items.Perm items') (h : Comparable items) (hdistinct : Distinct items) :
    sortByDepth items' = sortByDepth items := by
  obtain hshort | hdated := h
  · rw [eq_of_short hshort hperm]
  · have hsorted := (sortByDepth_perm items).trans (hperm.trans (sortByDepth_perm items').symm)
    refine (List.Perm.eq_of_pairwise ?_ (sortByDepth_pairwise hdated) (sortByDepth_pairwise (hdated.perm hperm))
      hsorted).symm
    intro a b ha hb hab hba
    have hsymm : Std.Symm (fun a b : GovernanceAxisEntry => a.depth.eq b.depth = false) :=
      ⟨fun a b hab => by rwa [JsNumber.eq_comm]⟩
    by_contra hne
    have hdepths := hdistinct.forall ((sortByDepth_perm items).mem_iff.mp ha)
      (hperm.mem_iff.mpr ((sortByDepth_perm items').mem_iff.mp hb)) hne
    rw [eq_of_le_of_le hab hba] at hdepths
    cases hdepths

theorem orderGovernanceAxis_congr (hperm : items.Perm items') (h : Comparable items) :
    (orderGovernanceAxis items').toOption = (orderGovernanceAxis items).toOption := by
  by_cases hdistinct : Distinct items
  · rw [orderGovernanceAxis_ok h hdistinct,
      orderGovernanceAxis_ok (h.perm hperm) ((Distinct.perm_iff hperm).mp hdistinct),
      sortByDepth_congr hperm h hdistinct]
  · obtain ⟨e, he⟩ := orderGovernanceAxis_error h hdistinct
    obtain ⟨e', he'⟩ := orderGovernanceAxis_error (h.perm hperm) (mt (Distinct.perm_iff hperm).mpr hdistinct)
    rw [he, he']
    rfl

structure SameEntries (axes axes' : AttributionAxes) : Prop where
  D : axes.D.Perm axes'.D
  P : axes.P.Perm axes'.P
  G : axes.G.Perm axes'.G
  C : axes.C.Perm axes'.C

/-- The normal form and the root do not depend on the order of the entries. -/
structure OrderFree (P : Platform) (axes : AttributionAxes) : Prop where
  value : ∀ axes', SameEntries axes axes' → (normalizeAxes axes').toOption = (normalizeAxes axes).toOption
  root : ∀ axes', SameEntries axes axes' →
    (buildMerkleFrame P axes').toOption.map MerkleFrame.root = (buildMerkleFrame P axes).toOption.map MerkleFrame.root

def Crowded (axes : AttributionAxes) : Prop :=
  1 < (residuals axes.D).length ∨ 1 < (residuals axes.P).length ∨ 1 < (residuals axes.C).length

def Rejected (axes : AttributionAxes) : Prop := Crowded axes ∨ ¬ Distinct axes.G

def protocolKey (e : ProtocolAxisEntry) : Str := e.module_id ++ 0x00 :: e.module_version

/-- No two different entries of an axis have one key. -/
def Untied (axes : AttributionAxes) : Prop :=
  TiesAgree DataAxisEntry.source_did axes.D ∧ TiesAgree protocolKey axes.P ∧
    TiesAgree ComputeAxisEntry.provider_did axes.C

variable {P : Platform} {axes axes' : AttributionAxes}

theorem toOption_bind {ε α β : Type} (x : Except ε α) (f : α → Except ε β) :
    (x >>= f).toOption = x.toOption.bind (fun a => (f a).toOption) := by
  cases x with
  | error e => rfl
  | ok a => rfl

theorem normalizeAxes_toOption (axes : AttributionAxes) : (normalizeAxes axes).toOption =
    (sortDataAxis axes.D).toOption.bind fun D => (sortProtocolAxis axes.P).toOption.bind fun P =>
      (orderGovernanceAxis axes.G).toOption.bind fun G => (sortComputeAxis axes.C).toOption.bind fun C =>
        some { D, P, G, C } := by
  simp only [normalizeAxes, toOption_bind]
  rfl

theorem frame_congr (h : (normalizeAxes axes').toOption = (normalizeAxes axes).toOption) :
    (buildMerkleFrame P axes').toOption = (buildMerkleFrame P axes).toOption := by
  rw [buildMerkleFrame, buildMerkleFrame, buildMerkleFrameImpl, buildMerkleFrameImpl, toOption_bind, toOption_bind, h]

theorem orderFree_of_value
    (h : ∀ axes', SameEntries axes axes' → (normalizeAxes axes').toOption = (normalizeAxes axes).toOption) :
    OrderFree P axes :=
  ⟨h, fun axes' hsame => congrArg _ (frame_congr (h axes' hsame))⟩

theorem normalizeAxes_some {D : List (AxisItem DataAxisEntry)} {Pr : List (AxisItem ProtocolAxisEntry)}
    {G : List GovernanceAxisEntry} {C : List (AxisItem ComputeAxisEntry)} (hD : sortDataAxis axes.D = .ok D)
    (hP : sortProtocolAxis axes.P = .ok Pr) (hG : orderGovernanceAxis axes.G = .ok G)
    (hC : sortComputeAxis axes.C = .ok C) : (normalizeAxes axes).toOption = some ⟨D, Pr, G, C⟩ := by
  rw [normalizeAxes_toOption, hD, hP, hG, hC]
  rfl

theorem normalizeAxes_crowded (h : Crowded axes) : (normalizeAxes axes).toOption = none := by
  rw [normalizeAxes_toOption]
  obtain hD | hP | hC := h
  · rw [sortDataAxis, sortAxis_error _ _ hD]
    rfl
  · rw [sortProtocolAxis, sortAxis_error _ _ hP]
    exact Option.bind_fun_none _
  · rw [sortComputeAxis, sortAxis_error _ _ hC]
    simp only [Except.toOption, Option.bind_none, Option.bind_fun_none]

theorem normalizeAxes_none (hcomparable : Comparable axes.G) (h : Rejected axes) :
    (normalizeAxes axes).toOption = none := by
  obtain hcrowded | hG := h
  · exact normalizeAxes_crowded hcrowded
  · obtain ⟨e, he⟩ := orderGovernanceAxis_error hcomparable hG
    rw [normalizeAxes_toOption, he]
    simp only [Except.toOption, Option.bind_none, Option.bind_fun_none]

theorem Crowded.congr (hsame : SameEntries axes axes') (h : Crowded axes) : Crowded axes' := by
  obtain hD | hP | hC := h
  · exact .inl ((hsame.D.filter _).length_eq ▸ hD)
  · exact .inr (.inl ((hsame.P.filter _).length_eq ▸ hP))
  · exact .inr (.inr ((hsame.C.filter _).length_eq ▸ hC))

theorem Rejected.congr (hsame : SameEntries axes axes') (h : Rejected axes) : Rejected axes' :=
  h.imp (Crowded.congr hsame) (mt (Distinct.perm_iff hsame.G).mpr)

theorem OrderFree.unique (h : OrderFree P axes) (first second : AttributionAxes)
    {n n' : AttributionAxes} (hfirst : SameEntries axes first) (hsecond : SameEntries axes second)
    (hn : (normalizeAxes first).toOption = some n) (hn' : (normalizeAxes second).toOption = some n') : n = n' := by
  have heq := (h.value first hfirst).trans (h.value second hsecond).symm
  rw [hn, hn'] at heq
  exact Option.some.inj heq

theorem untied_of_orderFree (h : OrderFree P axes) (hcomparable : Comparable axes.G) (hkept : ¬ Rejected axes) :
    Untied axes := by
  simp only [Rejected, Crowded, not_or, Nat.not_lt, not_not] at hkept
  obtain ⟨⟨hD, hP, hC⟩, hG⟩ := hkept
  have hdata := sortAxis_ok .D DataAxisEntry.source_did hD
  have hprotocol := sortAxis_ok .P protocolKey hP
  have hgovernance := orderGovernanceAxis_ok hcomparable hG
  have hcompute := sortAxis_ok .C ComputeAxisEntry.provider_did hC
  refine ⟨?_, ?_, ?_⟩
  · by_contra hties
    obtain ⟨first, second, sorted, sorted', hfirst, hsecond, hone, htwo, hne⟩ := sortAxis_tie .D _ hD hties
    have heq := h.unique { axes with D := first } { axes with D := second }
      ⟨hfirst, .refl _, .refl _, .refl _⟩ ⟨hsecond, .refl _, .refl _, .refl _⟩
      (normalizeAxes_some hone hprotocol hgovernance hcompute) (normalizeAxes_some htwo hprotocol hgovernance hcompute)
    exact hne (congrArg AttributionAxes.D heq)
  · by_contra hties
    obtain ⟨first, second, sorted, sorted', hfirst, hsecond, hone, htwo, hne⟩ := sortAxis_tie .P _ hP hties
    have heq := h.unique { axes with P := first } { axes with P := second }
      ⟨.refl _, hfirst, .refl _, .refl _⟩ ⟨.refl _, hsecond, .refl _, .refl _⟩
      (normalizeAxes_some hdata hone hgovernance hcompute) (normalizeAxes_some hdata htwo hgovernance hcompute)
    exact hne (congrArg AttributionAxes.P heq)
  · by_contra hties
    obtain ⟨first, second, sorted, sorted', hfirst, hsecond, hone, htwo, hne⟩ := sortAxis_tie .C _ hC hties
    have heq := h.unique { axes with C := first } { axes with C := second }
      ⟨.refl _, .refl _, .refl _, hfirst⟩ ⟨.refl _, .refl _, .refl _, hsecond⟩
      (normalizeAxes_some hdata hprotocol hgovernance hone) (normalizeAxes_some hdata hprotocol hgovernance htwo)
    exact hne (congrArg AttributionAxes.C heq)

/-- Two residual buckets of an axis are rejected in every order. Where the depths can be compared, the normal form and
the root are the same for every order of the entries exactly where the axes are rejected or hold no two different
entries of one key. -/
theorem root_order_free_iff (P : Platform) (axes : AttributionAxes) :
    (Crowded axes ∨ Comparable axes.G ∧ (Rejected axes ∨ Untied axes) → OrderFree P axes) ∧
    (Comparable axes.G → OrderFree P axes → Rejected axes ∨ Untied axes) := by
  constructor
  · intro h
    obtain hcrowded | ⟨hcomparable, hrejected | ⟨hD, hP, hC⟩⟩ := h
    · refine orderFree_of_value ?_
      intro axes' hsame
      rw [normalizeAxes_crowded hcrowded, normalizeAxes_crowded (hcrowded.congr hsame)]
    · refine orderFree_of_value ?_
      intro axes' hsame
      rw [normalizeAxes_none hcomparable hrejected,
        normalizeAxes_none (hcomparable.perm hsame.G) (hrejected.congr hsame)]
    · refine orderFree_of_value ?_
      intro axes' hsame
      have hdata : sortDataAxis axes'.D = sortDataAxis axes.D := sortAxis_congr _ _ hsame.D hD
      have hprotocol : sortProtocolAxis axes'.P = sortProtocolAxis axes.P := sortAxis_congr _ _ hsame.P hP
      have hcompute : sortComputeAxis axes'.C = sortComputeAxis axes.C := sortAxis_congr _ _ hsame.C hC
      rw [normalizeAxes_toOption, normalizeAxes_toOption, hdata, hprotocol, hcompute,
        orderGovernanceAxis_congr hsame.G hcomparable]
  · intro hcomparable h
    by_cases hrejected : Rejected axes
    · exact .inl hrejected
    · exact .inr (untied_of_orderFree h hcomparable hrejected)

def sampleRead (source weight receipt : String) : AxisItem DataAxisEntry :=
  .entry ⟨lit source, lit weight, lit receipt⟩

def sampleAxes (D : List (AxisItem DataAxisEntry)) : AttributionAxes := ⟨D, [], [], []⟩

def readTwice : AttributionAxes :=
  sampleAxes [sampleRead "did:aps:b" "0.600000" "b1", sampleRead "did:aps:b" "0.400000" "b2"]

def readTwiceSwapped : AttributionAxes :=
  sampleAxes [sampleRead "did:aps:b" "0.400000" "b2", sampleRead "did:aps:b" "0.600000" "b1"]

def samplePlatform : Platform where
  numText := integerText
  sha256 := ofTable [
    (ascii "[]", lit "4f53cda18c2baa0c0354bb5f9a3ecbe5ed12ab4d8e11ba873c2f11161202b945"),
    (bufferFromHex (lit "4f53cda18c2baa0c0354bb5f9a3ecbe5ed12ab4d8e11ba873c2f11161202b945" ++
      lit "4f53cda18c2baa0c0354bb5f9a3ecbe5ed12ab4d8e11ba873c2f11161202b945"),
      lit "0eee89c767f1beed26f7a34bb50cece755069805cf47ca268639eaf757a99b7b"),
    (ascii "[\x7b\"access_receipt_hash\":\"b1\",\"contribution_weight\":\"0.600000\",\"source_did\":\"did:aps:b\"" ++
      ascii "\x7d,\x7b\"access_receipt_hash\":\"b2\",\"contribution_weight\":\"0.400000\",\"source_did\":\"did:aps:b\"\x7d]",
      lit "598f811dbd7b68275c04aaa29abb77823e89a1f7ee2b171a29d6b853a9a2f12f"),
    (bufferFromHex (lit "598f811dbd7b68275c04aaa29abb77823e89a1f7ee2b171a29d6b853a9a2f12f" ++
      lit "4f53cda18c2baa0c0354bb5f9a3ecbe5ed12ab4d8e11ba873c2f11161202b945"),
      lit "e1005010acb45c11811699cdbc829ddf6b73e011eec4f39e057c4094e97e65a7"),
    (bufferFromHex (lit "e1005010acb45c11811699cdbc829ddf6b73e011eec4f39e057c4094e97e65a7" ++
      lit "0eee89c767f1beed26f7a34bb50cece755069805cf47ca268639eaf757a99b7b"),
      lit "712ad4d8ababa5082752ec630652b60a84b7fca7b79b8888bd962c207eb8863e"),
    (ascii "[\x7b\"access_receipt_hash\":\"b2\",\"contribution_weight\":\"0.400000\",\"source_did\":\"did:aps:b\"" ++
      ascii "\x7d,\x7b\"access_receipt_hash\":\"b1\",\"contribution_weight\":\"0.600000\",\"source_did\":\"did:aps:b\"\x7d]",
      lit "61d5431e7fee40fc1caeb84bc25508f01f6dd08103a7e6fa55178b30e9768ee0"),
    (bufferFromHex (lit "61d5431e7fee40fc1caeb84bc25508f01f6dd08103a7e6fa55178b30e9768ee0" ++
      lit "4f53cda18c2baa0c0354bb5f9a3ecbe5ed12ab4d8e11ba873c2f11161202b945"),
      lit "5dbd2b0c0353883614ce50b9e9c3c0f57ba2da6cc3210036957d8a0b9a4e6bb0"),
    (bufferFromHex (lit "5dbd2b0c0353883614ce50b9e9c3c0f57ba2da6cc3210036957d8a0b9a4e6bb0" ++
      lit "0eee89c767f1beed26f7a34bb50cece755069805cf47ca268639eaf757a99b7b"),
      lit "3168c4f0661b0af7f3963a042db8bf1e4ec16ffc1a65f1d1a8bd328d3bee52f9")]
  sign _ _ := none
  verify _ _ _ := false

theorem root_order_free_two_sources : OrderFree samplePlatform
    (sampleAxes [sampleRead "did:aps:b" "0.600000" "b1", sampleRead "did:aps:a" "0.400000" "b2"]) := by
  refine (root_order_free_iff samplePlatform _).1 (.inr ⟨.inl (Nat.zero_le 1), .inr ⟨?_, ?_, ?_⟩⟩)
  · intro a b ha hb hkey
    have hsources : (lit "did:aps:b") ≠ lit "did:aps:a" := by decide
    simp only [sampleAxes, sampleRead, List.mem_cons, List.not_mem_nil, or_false, AxisItem.entry.injEq] at ha hb
    obtain rfl | rfl := ha
    · obtain rfl | rfl := hb
      · rfl
      · exact absurd hkey hsources
    · obtain rfl | rfl := hb
      · exact absurd hkey.symm hsources
      · rfl
  · intro a b ha
    cases ha
  · intro a b ha
    cases ha

theorem readTwice_swapped : SameEntries readTwice readTwiceSwapped :=
  ⟨.swap _ _ _, .refl _, .refl _, .refl _⟩

theorem sample_roots :
    (buildMerkleFrame samplePlatform readTwice).toOption.map (fun frame => hex frame.root) =
      some (lit "712ad4d8ababa5082752ec630652b60a84b7fca7b79b8888bd962c207eb8863e") ∧
    (buildMerkleFrame samplePlatform readTwiceSwapped).toOption.map (fun frame => hex frame.root) =
      some (lit "3168c4f0661b0af7f3963a042db8bf1e4ec16ffc1a65f1d1a8bd328d3bee52f9") := by
  rw [samplePlatform, readTwice, readTwiceSwapped, sampleAxes, sampleAxes, sampleRead, sampleRead]
  repeat rw [lit_ofList]
  repeat rw [ascii_ofList]
  decide +kernel

/-- The same entries in two orders: two roots. -/
theorem tied_entries_two_roots : ¬ OrderFree samplePlatform readTwice ∧
    (buildMerkleFrame samplePlatform readTwice).toOption.map (fun frame => hex frame.root) =
      some (lit "712ad4d8ababa5082752ec630652b60a84b7fca7b79b8888bd962c207eb8863e") ∧
    (buildMerkleFrame samplePlatform readTwiceSwapped).toOption.map (fun frame => hex frame.root) =
      some (lit "3168c4f0661b0af7f3963a042db8bf1e4ec16ffc1a65f1d1a8bd328d3bee52f9") := by
  refine ⟨?_, sample_roots⟩
  intro hfree
  have hsame := congrArg (Option.map hex) (hfree.root readTwiceSwapped readTwice_swapped)
  rw [Option.map_map, Option.map_map] at hsame
  have heq := sample_roots.2.symm.trans (hsame.trans sample_roots.1)
  exact absurd heq (by decide)

end AgentPassport.AxisOrder
