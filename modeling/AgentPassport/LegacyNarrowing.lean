import AgentPassport.LegacyDelegation

/-! What a chain of successful `subDelegate` calls narrows: scope, lifetime, depth, spend and
derivation rights, from every ancestor to every descendant. -/
namespace AgentPassport.LegacyNarrowing
open JsText Js LegacyScope Rfc3339 LegacyDelegation Outcome CanonicalInjective

variable (P : Primitives)

theorem signDelegation_ok {d d' : Delegation} {key : Str} (h : signDelegation P d key = .ok d') :
    ∃ signature, d' = { d with signature := signature } := by
  rw [signDelegation] at h
  obtain ⟨canonical, -, h⟩ := bind_eq_ok.mp h
  split at h
  · cases h
    exact ⟨_, rfl⟩
  · cases h

variable {d : Delegation}

theorem createDelegation_ok {now : Int} {uuid : Str} {opts : CreateDelegationOptions}
    (h : createDelegation P now uuid opts = .ok d) :
    checkCreate opts = .ok () ∧ ∃ expiresAt signature, expiryOf now opts.expiresAt opts.expiresInHours = .ok expiresAt ∧
      d = { buildDelegation now uuid expiresAt opts with signature := signature } := by
  rw [createDelegation] at h
  obtain ⟨hcheck, h⟩ := bind_unit_eq_ok.mp h
  obtain ⟨expiresAt, hexpiry, h⟩ := bind_eq_ok.mp h
  obtain ⟨signature, rfl⟩ := signDelegation_ok P h
  exact ⟨hcheck, expiresAt, signature, hexpiry, rfl⟩

theorem parentExpiry_ok {now ms : Int} {parent : Delegation} (h : parentExpiry now parent = .ok ms) :
    parseRfc3339 (.str parent.expiresAt) = .ok ms := by
  unfold parentExpiry at h
  split at h
  · cases h
  · rename_i ms' hparse
    split at h
    · cases h
    · cases h
      exact hparse

theorem childExpiresAt_ok {now parentEnds : Int} {expiresAt : Str} (h : childExpiresAt now parentEnds = .ok expiresAt) :
    parseRfc3339 (.str expiresAt) = .ok (min (now + 24 * 3600000) parentEnds) := by
  unfold childExpiresAt at h
  split at h
  · rename_i s hformat
    cases h
    exact parse_of_format hformat
  · cases h

/-- What a successful call has checked, and the record it returns. -/
structure Minted (r : Readings) (opts : SubDelegateOptions) (child : Delegation) : Prop where
  depth : checkDepth opts.parentDelegation = .ok ()
  scope : checkScope opts.parentDelegation opts.scope = .ok ()
  rights : checkRights opts.parentDelegation.derivation_rights opts.derivation_rights = .ok ()
  unit : checkUnit opts = .ok ()
  spend : checkSpend opts = .ok ()
  record : ∃ ms expiresAt now uuid signature, parentExpiry r.guard opts.parentDelegation = .ok ms ∧
    childExpiresAt r.guard ms = .ok expiresAt ∧ checkCreate (childOptions opts expiresAt) = .ok () ∧
    child = { buildDelegation now uuid expiresAt (childOptions opts expiresAt) with signature := signature }

theorem subDelegate_ok {r : Readings} {uuid : Str} {opts : SubDelegateOptions} {child : Delegation}
    (h : subDelegate P r uuid opts = .ok child) : Minted r opts child := by
  rw [subDelegate] at h
  obtain ⟨hdepth, h⟩ := bind_unit_eq_ok.mp h
  obtain ⟨hscope, h⟩ := bind_unit_eq_ok.mp h
  obtain ⟨hrights, h⟩ := bind_unit_eq_ok.mp h
  obtain ⟨hunit, h⟩ := bind_unit_eq_ok.mp h
  obtain ⟨hspend, h⟩ := bind_unit_eq_ok.mp h
  obtain ⟨ms, hms, h⟩ := bind_eq_ok.mp h
  obtain ⟨-, h⟩ := bind_unit_eq_ok.mp h
  obtain ⟨expiresAt, hexpires, h⟩ := bind_eq_ok.mp h
  obtain ⟨hcheck, expiresAt', signature, hexpiry, rfl⟩ := createDelegation_ok P h
  cases hexpiry
  exact ⟨hdepth, hscope, hrights, hunit, hspend, ms, expiresAt, _, _, signature, hms, hexpires, hcheck, rfl⟩

/-- So many successful calls, each on the record the one before returned, whose options all keep
to a condition. -/
inductive Descends (Kept : SubDelegateOptions → Prop) : Nat → Delegation → Delegation → Prop
  | refl (d : Delegation) : Descends Kept 0 d d
  | hop {n : Nat} {a child : Delegation} {r : Readings} {uuid : Str} {opts : SubDelegateOptions}
      (before : Descends Kept n a opts.parentDelegation) (kept : Kept opts)
      (call : subDelegate P r uuid opts = .ok child) : Descends Kept (n + 1) a child

section
variable {r : Readings} {opts : SubDelegateOptions} {child : Delegation}

theorem Minted.scope_eq (h : Minted r opts child) : child.scope = opts.scope := by
  obtain ⟨ms, expiresAt, now, uuid, signature, -, -, -, rfl⟩ := h.record
  rfl

theorem Minted.covered (h : Minted r opts child) :
    ∀ s ∈ opts.scope, ∃ g ∈ opts.parentDelegation.scope, scopeCovers g s = true := by
  intro s hs
  have hscope := h.scope
  simp only [checkScope] at hscope
  split at hscope
  · cases hscope
  · rename_i hnone
    have hmem : s ∉ opts.scope.filter (fun s => !opts.parentDelegation.scope.any (fun ps => scopeCovers ps s)) := by
      intro hmem
      exact hnone (List.length_pos_of_mem hmem)
    simpa [hs] using hmem

end

/-- The wildcards a call asks for are covered. -/
def ScopeKept (opts : SubDelegateOptions) : Prop := WildcardsCovered opts.parentDelegation.scope opts.scope

/-- A chain whose calls keep their wildcards covered authorizes nothing its root does not, and one
call adds no authority exactly when it keeps them covered. -/
theorem scope_narrows :
    (∀ n root d, Descends P ScopeKept n root d →
      ∀ s, scopeAuthorizes d.scope s = true → scopeAuthorizes root.scope s = true) ∧
    (∀ r uuid opts child, subDelegate P r uuid opts = .ok child →
      ((∀ s, scopeAuthorizes child.scope s = true → scopeAuthorizes opts.parentDelegation.scope s = true) ↔
        ScopeKept opts)) := by
  refine ⟨?_, ?_⟩
  · intro n root d h
    induction h with
    | refl => exact fun s hs => hs
    | hop _ kept call ih =>
      intro s hs
      have hminted := subDelegate_ok P call
      rw [hminted.scope_eq] at hs
      exact ih s (authorizes_of_covered hminted.covered kept hs)
  · intro r uuid opts child h
    have hminted := subDelegate_ok P h
    rw [hminted.scope_eq]
    exact authorizes_kept_iff hminted.covered

/-- What every record of a chain has in common with its root: nothing of its limit is spent, and
the limit is a finite number. -/
structure Unspent (d : Delegation) : Prop where
  spent : d.spentAmount = some (zeroOf false)
  finite : ∀ limit, d.spendLimit = some limit → ∃ x, limit = .finite x

theorem checkCreate_spendLimit {opts : CreateDelegationOptions} (h : checkCreate opts = .ok ()) :
    checkSpendLimit opts.spendLimit = .ok () := by
  rw [checkCreate] at h
  split at h
  · cases h
  · split at h
    · cases h
    · split at h
      · cases h
      · exact (bind_unit_eq_ok.mp h).1

theorem checkSpendLimit_finite {limit : JsNumber} (h : checkSpendLimit (some limit) = .ok ()) :
    ∃ x, limit = .finite x := by
  cases limit with
  | finite x => exact ⟨x, rfl⟩
  | nan => cases h
  | infinite neg => cases h

theorem build_unspent {opts : CreateDelegationOptions} (h : checkCreate opts = .ok ()) (now : Int)
    (uuid expiresAt signature : Str) :
    Unspent { buildDelegation now uuid expiresAt opts with signature := signature } := by
  refine ⟨rfl, ?_⟩
  intro limit hlimit
  have hspend := checkCreate_spendLimit h
  rw [show opts.spendLimit = some limit from hlimit] at hspend
  exact checkSpendLimit_finite hspend

theorem created_unspent {now : Int} {uuid : Str} {opts : CreateDelegationOptions}
    (h : createDelegation P now uuid opts = .ok d) : Unspent d := by
  obtain ⟨hcheck, expiresAt, signature, -, rfl⟩ := createDelegation_ok P h
  exact build_unspent hcheck now uuid expiresAt signature

variable {Kept : SubDelegateOptions → Prop}

theorem descends_unspent {n : Nat} {a d : Delegation} (h : Descends P Kept n a d) (ha : Unspent a) : Unspent d := by
  induction h with
  | refl => exact ha
  | hop _ _ call _ =>
    obtain ⟨_, expiresAt, now, uuid, signature, -, -, hcheck, rfl⟩ := (subDelegate_ok P call).record
    exact build_unspent hcheck now uuid expiresAt signature

/-- An instant at or before another, both readable. -/
def EndsBy (d a : Delegation) : Prop :=
  ∃ x y, parseRfc3339 (.str d.expiresAt) = .ok x ∧ parseRfc3339 (.str a.expiresAt) = .ok y ∧ x ≤ y

/-- So many units deeper, as numbers. -/
def Deeper (n : Nat) (d a : Delegation) : Prop :=
  ∃ x y, d.currentDepth = .finite x ∧ a.currentDepth = .finite y ∧ x.scaled = y.scaled + n * scaleOne

/-- A limit in the same unit and within what the ancestor has left. -/
def SpendsWithin (d a : Delegation) : Prop :=
  a.spendLimit.isSome →
    unitOf d = unitOf a ∧ ∃ limit, d.spendLimit = some limit ∧ limit.le (remaining a) = true

def TtlWithin (c p : DerivationRights) : Prop :=
  ∀ bound, p.retention_ttl = some bound → ∃ ttl, c.retention_ttl = some ttl ∧ ttl.le bound = true

def ClassesWithin (c p : DerivationRights) : Prop :=
  ∀ allowed, p.derivation_classes = some allowed →
    ∃ classes, c.derivation_classes = some classes ∧ ∀ s ∈ classes, s ∈ allowed

/-- Rights that permit nothing others forbid; a bound left out is no bound. -/
structure RightsWithin (c p : DerivationRights) : Prop where
  retention : c.retention_permitted = true → p.retention_permitted = true
  exporting : c.export_permitted = true → p.export_permitted = true
  ttl : TtlWithin c p
  classes : ClassesWithin c p

/-- Rights within the ancestor's, and none where it has none. -/
def PermitsWithin (d a : Delegation) : Prop :=
  match a.derivation_rights with
  | some p => ∃ c, d.derivation_rights = some c ∧ RightsWithin c p
  | none => d.derivation_rights = none

/-- A descendant so many calls below an ancestor is no wider than it. -/
structure NoWider (n : Nat) (d a : Delegation) : Prop where
  ends : EndsBy d a
  deeper : Deeper n d a
  depth : a.maxDepth.lt d.currentDepth = false
  spends : SpendsWithin d a
  permits : PermitsWithin d a

/-- A call whose depth counts one up exactly, and whose rights name the bounds the parent's
name, as numbers that compare. -/
structure LimitsKept (opts : SubDelegateOptions) : Prop where
  depth : ∃ x y : Double, opts.parentDelegation.currentDepth = .finite x ∧ y.scaled = x.scaled + scaleOne
  ttl : ∀ p, opts.parentDelegation.derivation_rights = some p → ∀ bound, p.retention_ttl = some bound →
    bound ≠ .nan ∧ ∃ ttl, (opts.derivation_rights.getD p).retention_ttl = some ttl ∧ ttl ≠ .nan
  classes : ∀ p, opts.parentDelegation.derivation_rights = some p → p.derivation_classes.isSome →
    (opts.derivation_rights.getD p).derivation_classes.isSome

section
variable {r : Readings} {opts : SubDelegateOptions} {child : Delegation}

theorem Minted.ends (h : Minted r opts child) : EndsBy child opts.parentDelegation := by
  obtain ⟨ms, expiresAt, now, uuid, signature, hms, hexpires, -, rfl⟩ := h.record
  exact ⟨_, ms, childExpiresAt_ok hexpires, parentExpiry_ok hms, min_le_right _ _⟩

theorem Minted.currentDepth_eq (h : Minted r opts child) :
    child.currentDepth = nextDepth opts.parentDelegation := by
  obtain ⟨ms, expiresAt, now, uuid, signature, -, -, -, rfl⟩ := h.record
  rfl

theorem Minted.maxDepth_eq (h : Minted r opts child) : child.maxDepth = opts.parentDelegation.maxDepth := by
  obtain ⟨ms, expiresAt, now, uuid, signature, -, -, -, rfl⟩ := h.record
  rfl

theorem Minted.depth_within (h : Minted r opts child) :
    opts.parentDelegation.maxDepth.lt child.currentDepth = false := by
  have hdepth := h.depth
  rw [checkDepth] at hdepth
  rw [h.currentDepth_eq]
  split at hdepth
  · cases hdepth
  · rename_i hlt
    simpa using hlt

theorem one_eq : JsNumber.ofInt 1 = .finite Double.one := by decide +kernel

theorem one_scaled : Double.one.scaled = scaleOne := by decide +kernel

theorem Minted.deeper_iff (h : Minted r opts child) : Deeper 1 child opts.parentDelegation ↔
    ∃ x y : Double, opts.parentDelegation.currentDepth = .finite x ∧ y.scaled = x.scaled + scaleOne := by
  constructor
  · intro hdeeper
    obtain ⟨y, x, -, hx, hscaled⟩ := hdeeper
    refine ⟨x, y, hx, ?_⟩
    rw [hscaled, Nat.cast_one, one_mul]
  · rintro ⟨x, y, hx, hy⟩
    rw [← one_scaled] at hy
    obtain ⟨e, he, hscaled⟩ := add_exact hy
    refine ⟨e, x, ?_, hx, ?_⟩
    · rw [h.currentDepth_eq, nextDepth, hx, one_eq, he]
    · rw [hscaled, one_scaled, Nat.cast_one, one_mul]

theorem remaining_le {limit : JsNumber} (hd : Unspent d) (h : d.spendLimit = some limit) :
    ∃ x y : Double, limit = .finite x ∧ remaining d = .finite y ∧ y.scaled = x.scaled := by
  obtain ⟨x, rfl⟩ := hd.finite limit h
  obtain ⟨y, hy, hscaled⟩ := sub_zero_eq x false
  refine ⟨x, y, rfl, ?_, hscaled⟩
  rw [remaining, h, hd.spent]
  exact hy

theorem Minted.spends (h : Minted r opts child) (hparent : Unspent opts.parentDelegation) :
    SpendsWithin child opts.parentDelegation := by
  intro hsome
  obtain ⟨bound, hbound⟩ := Option.isSome_iff_exists.mp hsome
  obtain ⟨x, rest, rfl, hrest, -⟩ := remaining_le hparent hbound
  obtain ⟨unit, hunit⟩ : ∃ unit, unitOf opts.parentDelegation = some unit := by
    rw [unitOf, hbound]
    cases opts.parentDelegation.spendLimitUnit with
    | none => exact ⟨_, rfl⟩
    | some unit => exact ⟨_, rfl⟩
  have hchildUnit : childUnit opts = some unit := by
    have hcheck := h.unit
    rw [checkUnit, hunit] at hcheck
    rw [childUnit, hunit] at hcheck ⊢
    cases hgiven : opts.spendLimitUnit with
    | none => rfl
    | some given =>
      simp only [hgiven, Option.some_or] at hcheck
      split at hcheck
      · rename_i heq
        rw [Option.some_or, heq]
      · cases hcheck
  have hshares : sharesFiniteParentBudget opts = true := by
    simp [sharesFiniteParentBudget, hunit, hchildUnit, hbound]
  obtain ⟨ms, expiresAt, now, uuid, signature, -, -, hcheck, rfl⟩ := h.record
  refine ⟨?_, ?_⟩
  · change (childUnit opts).or _ = _
    rw [hchildUnit, hunit]
    rfl
  · have hfinite := checkCreate_spendLimit hcheck
    change ∃ limit, (opts.spendLimit.or (if sharesFiniteParentBudget opts then _ else none)) = some limit ∧ _
    change checkSpendLimit (opts.spendLimit.or (if sharesFiniteParentBudget opts then _ else none)) = _ at hfinite
    rw [if_pos hshares] at hfinite ⊢
    cases hgiven : opts.spendLimit with
    | none =>
      refine ⟨_, rfl, ?_⟩
      rw [hrest, le_iff_scaled]
    | some limit =>
      rw [hgiven] at hfinite
      obtain ⟨y, rfl⟩ := checkSpendLimit_finite hfinite
      refine ⟨_, rfl, ?_⟩
      have hspend := h.spend
      simp only [checkSpend, hgiven, hshares, hrest, Bool.true_and] at hspend
      split at hspend
      · cases hspend
      · rename_i hlt
        rw [hrest, le_iff_scaled, ← lt_false_iff_le]
        simpa using hlt

end

/-- What the check of a request against its parent's rights finds when it passes. -/
structure RightsChecked (c p : DerivationRights) : Prop where
  retention : c.retention_permitted = true → p.retention_permitted = true
  exporting : c.export_permitted = true → p.export_permitted = true
  ttl : ∀ bound ttl, p.retention_ttl = some bound → c.retention_ttl = some ttl → bound = ttl ∨ bound.lt ttl = false
  classes : ∀ allowed classes, p.derivation_classes = some allowed → c.derivation_classes = some classes →
    ∀ s ∈ classes, s ∈ allowed

theorem RightsChecked.refl (p : DerivationRights) : RightsChecked p p where
  retention := fun h => h
  exporting := fun h => h
  ttl := by
    intro bound ttl hbound httl
    rw [hbound] at httl
    exact .inl (Option.some.inj httl)
  classes := by
    intro allowed classes hallowed hclasses s hs
    rw [hallowed] at hclasses
    rwa [Option.some.inj hclasses]

theorem checkPermitted_ok {parent child : Bool} {e : DelegationError} (h : checkPermitted parent child e = .ok ()) :
    child = true → parent = true := by
  intro hchild
  cases parent with
  | true => rfl
  | false =>
    rw [hchild] at h
    cases h

theorem checkTtl_ok {bound ttl : JsNumber} (h : checkTtl (some bound) (some ttl) = .ok ()) :
    bound.lt ttl = false := by
  rw [checkTtl] at h
  split at h
  · cases h
  · rename_i hlt
    simpa using hlt

theorem checkClasses_ok {allowed classes : List Str} (h : checkClasses (some allowed) (some classes) = .ok ()) :
    ∀ s ∈ classes, s ∈ allowed := by
  intro s hs
  simp only [checkClasses] at h
  split at h
  · cases h
  · rename_i hnone
    by_contra hnot
    exact hnone (List.length_pos_of_mem (List.mem_filter.mpr ⟨hs, by simpa using hnot⟩))

theorem checkRights_ok {p c : DerivationRights} (h : checkRights (some p) (some c) = .ok ()) :
    RightsChecked c p := by
  rw [checkRights] at h
  obtain ⟨hretention, h⟩ := bind_unit_eq_ok.mp h
  obtain ⟨httl, h⟩ := bind_unit_eq_ok.mp h
  obtain ⟨hexport, hclasses⟩ := bind_unit_eq_ok.mp h
  refine ⟨checkPermitted_ok hretention, checkPermitted_ok hexport, ?_, ?_⟩
  · intro bound ttl hbound hgiven
    rw [hbound, hgiven] at httl
    exact .inr (checkTtl_ok httl)
  · intro allowed classes hallowed hgiven
    rw [hallowed, hgiven] at hclasses
    exact checkClasses_ok hclasses

theorem ttlWithin_iff {c p : DerivationRights} (h : RightsChecked c p) :
    TtlWithin c p ↔ ∀ bound, p.retention_ttl = some bound →
      bound ≠ .nan ∧ ∃ ttl, c.retention_ttl = some ttl ∧ ttl ≠ .nan := by
  constructor
  · intro hwithin bound hbound
    obtain ⟨ttl, httl, hle⟩ := hwithin bound hbound
    have hnan := JsNumber.not_nan_of_le hle
    exact ⟨hnan.2, ttl, httl, hnan.1⟩
  · intro hkept bound hbound
    obtain ⟨hnan, ttl, httl, hnan'⟩ := hkept bound hbound
    refine ⟨ttl, httl, ?_⟩
    apply JsNumber.le_of_not_lt hnan' hnan
    obtain rfl | hlt := h.ttl bound ttl hbound httl
    · exact JsNumber.lt_irrefl bound
    · exact hlt

theorem classesWithin_iff {c p : DerivationRights} (h : RightsChecked c p) :
    ClassesWithin c p ↔ (p.derivation_classes.isSome → c.derivation_classes.isSome) := by
  constructor
  · intro hwithin hsome
    obtain ⟨allowed, hallowed⟩ := Option.isSome_iff_exists.mp hsome
    obtain ⟨classes, hclasses, -⟩ := hwithin allowed hallowed
    rw [hclasses]
    rfl
  · intro hkept allowed hallowed
    obtain ⟨classes, hclasses⟩ := Option.isSome_iff_exists.mp (hkept (by rw [hallowed]; rfl))
    exact ⟨classes, hclasses, h.classes allowed classes hallowed hclasses⟩

theorem Minted.rights_eq {r : Readings} {opts : SubDelegateOptions} {child : Delegation} (h : Minted r opts child) :
    child.derivation_rights = opts.derivation_rights.or opts.parentDelegation.derivation_rights := by
  obtain ⟨ms, expiresAt, now, uuid, signature, -, -, -, rfl⟩ := h.record
  rfl

theorem Minted.rights_checked {r : Readings} {opts : SubDelegateOptions} {child : Delegation} (h : Minted r opts child)
    {p : DerivationRights} (hp : opts.parentDelegation.derivation_rights = some p) :
    RightsChecked (opts.derivation_rights.getD p) p := by
  have hcheck := h.rights
  cases hgiven : opts.derivation_rights with
  | none => exact RightsChecked.refl p
  | some c =>
    rw [hp, hgiven] at hcheck
    exact checkRights_ok hcheck

theorem Minted.permits_iff {r : Readings} {opts : SubDelegateOptions} {child : Delegation} (h : Minted r opts child) :
    PermitsWithin child opts.parentDelegation ↔ ∀ p, opts.parentDelegation.derivation_rights = some p →
      TtlWithin (opts.derivation_rights.getD p) p ∧ ClassesWithin (opts.derivation_rights.getD p) p := by
  have hcheck := h.rights
  cases hparent : opts.parentDelegation.derivation_rights with
  | none =>
    have hgiven : opts.derivation_rights = none := by
      cases hgiven : opts.derivation_rights with
      | none => rfl
      | some c =>
        rw [hparent, hgiven] at hcheck
        cases hcheck
    simp [PermitsWithin, hparent, h.rights_eq, hgiven]
  | some p =>
    have hchild : child.derivation_rights = some (opts.derivation_rights.getD p) := by
      rw [h.rights_eq, hparent]
      cases opts.derivation_rights <;> rfl
    have hchecked := h.rights_checked hparent
    rw [PermitsWithin, hparent]
    constructor
    · rintro ⟨c, hc, hwithin⟩ q hq
      rw [hchild] at hc
      cases hc
      cases hq
      exact ⟨hwithin.ttl, hwithin.classes⟩
    · intro hwithin
      obtain ⟨httl, hclasses⟩ := hwithin p rfl
      exact ⟨_, hchild, hchecked.retention, hchecked.exporting, httl, hclasses⟩

theorem Minted.noWider_iff {r : Readings} {opts : SubDelegateOptions} {child : Delegation} (h : Minted r opts child)
    (hparent : Unspent opts.parentDelegation) : NoWider 1 child opts.parentDelegation ↔ LimitsKept opts := by
  constructor
  · intro hwider
    have hrights := h.permits_iff.mp hwider.permits
    refine ⟨h.deeper_iff.mp hwider.deeper, ?_, ?_⟩
    · intro p hp
      exact (ttlWithin_iff (h.rights_checked hp)).mp (hrights p hp).1
    · intro p hp
      exact (classesWithin_iff (h.rights_checked hp)).mp (hrights p hp).2
  · intro hkept
    refine ⟨h.ends, h.deeper_iff.mpr hkept.depth, h.depth_within, h.spends hparent, h.permits_iff.mpr ?_⟩
    intro p hp
    exact ⟨(ttlWithin_iff (h.rights_checked hp)).mpr (hkept.ttl p hp),
      (classesWithin_iff (h.rights_checked hp)).mpr (hkept.classes p hp)⟩

theorem RightsWithin.trans {c b a : DerivationRights} (hcb : RightsWithin c b) (hba : RightsWithin b a) :
    RightsWithin c a where
  retention := fun h => hba.retention (hcb.retention h)
  exporting := fun h => hba.exporting (hcb.exporting h)
  ttl := by
    intro bound hbound
    obtain ⟨middle, hmiddle, hle⟩ := hba.ttl bound hbound
    obtain ⟨ttl, httl, hle'⟩ := hcb.ttl middle hmiddle
    exact ⟨ttl, httl, JsNumber.le_trans hle' hle⟩
  classes := by
    intro allowed hallowed
    obtain ⟨middle, hmiddle, hsub⟩ := hba.classes allowed hallowed
    obtain ⟨classes, hclasses, hsub'⟩ := hcb.classes middle hmiddle
    exact ⟨classes, hclasses, fun s hs => hsub s (hsub' s hs)⟩

variable {c b a : Delegation}

theorem PermitsWithin.trans (hcb : PermitsWithin c b) (hba : PermitsWithin b a) : PermitsWithin c a := by
  rw [PermitsWithin] at hcb hba ⊢
  cases ha : a.derivation_rights with
  | none =>
    rw [ha] at hba
    rw [hba] at hcb
    exact hcb
  | some p =>
    rw [ha] at hba
    obtain ⟨q, hq, hqp⟩ := hba
    rw [hq] at hcb
    obtain ⟨t, ht, htq⟩ := hcb
    exact ⟨t, ht, htq.trans hqp⟩

theorem SpendsWithin.trans (hb : Unspent b) (hcb : SpendsWithin c b) (hba : SpendsWithin b a) : SpendsWithin c a := by
  intro hsome
  obtain ⟨hunit, middle, hmiddle, hle⟩ := hba hsome
  obtain ⟨hunit', limit, hlimit, hle'⟩ := hcb (by rw [hmiddle]; rfl)
  obtain ⟨x, y, rfl, hrest, hscaled⟩ := remaining_le hb hmiddle
  have hwhole : (remaining b).le (.finite x) = true := by
    rw [hrest, le_iff_scaled, hscaled]
  exact ⟨hunit'.trans hunit, limit, hlimit, JsNumber.le_trans (JsNumber.le_trans hle' hwhole) hle⟩

theorem Deeper.trans {m n : Nat} (hcb : Deeper m c b) (hba : Deeper n b a) : Deeper (n + m) c a := by
  obtain ⟨x, y, hx, hy, hxy⟩ := hcb
  obtain ⟨y', z, hy', hz, hyz⟩ := hba
  rw [hy] at hy'
  cases hy'
  refine ⟨x, z, hx, hz, ?_⟩
  rw [hxy, hyz, Nat.cast_add]
  ring

theorem EndsBy.trans (hcb : EndsBy c b) (hba : EndsBy b a) : EndsBy c a := by
  obtain ⟨x, y, hx, hy, hxy⟩ := hcb
  obtain ⟨y', z, hy', hz, hyz⟩ := hba
  rw [hy] at hy'
  cases hy'
  exact ⟨x, z, hx, hz, hxy.trans hyz⟩

theorem descends_maxDepth {n : Nat} {a d : Delegation} (h : Descends P Kept n a d) : d.maxDepth = a.maxDepth := by
  induction h with
  | refl => rfl
  | hop _ _ call ih => rw [(subDelegate_ok P call).maxDepth_eq, ih]

theorem descends_zero {a d : Delegation} (h : Descends P Kept 0 a d) : d = a := by
  cases h
  rfl

theorem descends_noWider {n : Nat} {a d : Delegation} (ha : Unspent a) (h : Descends P LimitsKept n a d)
    (hn : n ≠ 0) : NoWider n d a := by
  induction h with
  | refl => exact absurd rfl hn
  | @hop n _ child r uuid opts before kept call ih =>
    have hminted := subDelegate_ok P call
    have hparent := descends_unspent P before ha
    have hstep := (hminted.noWider_iff hparent).mpr kept
    by_cases hzero : n = 0
    · subst hzero
      rw [descends_zero P before] at hstep
      exact hstep
    · have hbefore := ih ha hzero
      exact ⟨hstep.ends.trans hbefore.ends, hstep.deeper.trans hbefore.deeper,
        descends_maxDepth P before ▸ hstep.depth, hstep.spends.trans hparent hbefore.spends,
        hstep.permits.trans hbefore.permits⟩

/-- Below a created root: a descendant by calls that keep the limits is no wider than its
ancestor, and one call on any descendant narrows exactly when it keeps them. -/
theorem limits_narrow {now : Int} {uuid : Str} {created : CreateDelegationOptions} {root : Delegation}
    (hroot : createDelegation P now uuid created = .ok root) :
    (∀ m n a d, Descends P (fun _ => True) m root a → Descends P LimitsKept (n + 1) a d →
      NoWider (n + 1) d a ∧ root.maxDepth.lt d.currentDepth = false) ∧
    (∀ m r uuid opts child, Descends P (fun _ => True) m root opts.parentDelegation →
      subDelegate P r uuid opts = .ok child →
      (NoWider 1 child opts.parentDelegation ↔ LimitsKept opts)) := by
  refine ⟨?_, ?_⟩
  · intro m n a d ha hd
    have hwider := descends_noWider P (descends_unspent P ha (created_unspent P hroot)) hd (Nat.succ_ne_zero n)
    exact ⟨hwider, descends_maxDepth P ha ▸ hwider.depth⟩
  · intro m r uuid opts child hparent call
    exact (subDelegate_ok P call).noWider_iff (descends_unspent P hparent (created_unspent P hroot))

/-- A text with its signature under a key. -/
structure SignedText where
  text : Str
  privateKey : Str
  publicKey : Str
  signature : Str

/-- A private key is 32 bytes in hexadecimal digits. It signs the listed texts as listed, and another text with
the text itself behind a mark. -/
def signing (table : List SignedText) : Primitives where
  sign canonical privateKey :=
    if privateKey.length = 64 && privateKey.all isHex then
      let row := table.find? (fun row => row.text = canonical && row.privateKey = privateKey)
      some ((row.map (·.signature)).getD (0x53 :: canonical))
    else none
  verify canonical signature publicKey :=
    table.any (fun row => row.text = canonical && row.publicKey = publicKey && row.signature = signature)
  numText := integerText

def rootPrivateKey : Str := (List.replicate 32 (lit "01")).flatten

def rootPublicKey : Str := lit "8a88e3dd7409f195fd52db2d3cba5d72ca6709bf1d94121bf3748801b40f6f5c"

def childPrivateKey : Str := (List.replicate 32 (lit "02")).flatten

def childPublicKey : Str := lit "8139770ea87d175f56a35466c34c7ecccb8d8a91b4ee37a25df60f5b8fc9b394"

def otherPublicKey : Str := lit "ed4928c628d1c2c6eae90338905995612959273a5c63f93636c14614ac8737d1"

/-- The canonical text of a record, with its members in front of the expiry and those from its scope on. -/
def recordText (depth : Nat) (giver holder rights scope : Str) : Str :=
  lit "\x7b\"createdAt\":\"2026-01-01T12:00:00.000Z\",\"currentDepth\":" ++ decimal depth ++
    lit ",\"delegatedBy\":\"" ++ giver ++ lit "\",\"delegatedTo\":\"" ++ holder ++
    lit "\",\"delegationId\":\"del_" ++ decimal depth ++ lit "\"," ++ rights ++
    lit "\"expiresAt\":\"2026-01-02T12:00:00.000Z\",\"maxDepth\":3," ++
    lit "\"notBefore\":\"2026-01-01T12:00:00.000Z\",\"scope\":[" ++ scope ++ lit ",\"spentAmount\":0\x7d"

def rootRecord (rights scope signature : Str) : SignedText :=
  ⟨recordText 0 rootPublicKey childPublicKey rights scope, rootPrivateKey, rootPublicKey, signature⟩

def childRecord (rights scope signature : Str) : SignedText :=
  ⟨recordText 1 childPublicKey otherPublicKey rights scope, childPrivateKey, childPublicKey, signature⟩

def rightsText (ttl : String) : Str :=
  lit "\"derivation_rights\":\x7b\"export_permitted\":false,\"retention_permitted\":true" ++ lit ttl ++ lit "\x7d,"

/-- The Ed25519 signatures of the records that are minted here. -/
def sample : Primitives :=
  signing [
    rootRecord [] (lit "\"*:*\"],\"spendLimit\":100")
      (lit "4451a98ab9ac430cd2feacc91e7f1ac62ad1e1ffaf4d009e1d543a69052551ca" ++
        lit "d5c2295c5e7d3abf5f0c1459209d0a389179ea1d486eef56d6b06d68ecb0df0b"),
    childRecord [] (lit "\"*\"],\"spendLimit\":100,\"spendLimitUnit\":\"currency\"")
      (lit "6071b9d86ef153fc7ea436a59c14960bfd46cd0e79d86e7595fa9e39dbc3a636" ++
        lit "b7aba8cf8869ae28e8b04f0896afff7992016511cbc28421fcae25aa08a57e0a"),
    rootRecord (rightsText ",\"retention_ttl\":10") (lit "\"x\"],\"spendLimit\":100")
      (lit "4118315bab8cbf281e24882f2cbdd88ada7bd1cf5685dae3157d42131927ac25" ++
        lit "e3581cb05b64c7d2cc4a4ba1d959ded8b4da719fc61a0fd69bb5685b2f15f002"),
    childRecord (rightsText ",\"retention_ttl\":5") (lit "\"x\"],\"spendLimit\":100,\"spendLimitUnit\":\"currency\"")
      (lit "daa897dcc7793ffe53a3dfdbf89036aecf839818f410f701c57fc5c7b87af928" ++
        lit "3214672964b5f6ae534b6991e72ed6efbd58b776bf1ab423750b83462e095906"),
    childRecord (rightsText "") (lit "\"x\"],\"spendLimit\":100,\"spendLimitUnit\":\"currency\"")
      (lit "49aed2317ed48cebb9199e7b9ac5354dfa7d5a6a582436a293262112b3a67497" ++
        lit "94ba729f2a46c054dcd5bb50f901b62c1f95d46d35538088c25963ad01d3ec0a")]

def noon : Int := 1767268800000

def rootOptions (scope : List Str) (rights : Option DerivationRights) : CreateDelegationOptions where
  delegatedTo := childPublicKey
  delegatedBy := rootPublicKey
  scope := scope
  scopeInterpretation := none
  spendLimit := some (.ofInt 100)
  spendLimitUnit := none
  maxDepth := some (.ofInt 3)
  currentDepth := none
  expiresInHours := none
  expiresAt := none
  notBefore := none
  derivation_rights := rights
  observation_policy := none
  credentialCheckPolicy := none
  privateKey := rootPrivateKey

/-- A call that asks for scopes and rights and leaves the rest out. -/
def hopOptions (parent : Delegation) (scope : List Str) (rights : Option DerivationRights) : SubDelegateOptions where
  parentDelegation := parent
  delegatedTo := otherPublicKey
  scope := scope
  spendLimit := none
  spendLimitUnit := none
  derivation_rights := rights
  privateKey := childPrivateKey
  revocation := none

def atNoon : Readings := ⟨noon, noon, noon, noon, noon⟩

def mint (rootScope : List Str) (rootRights : Option DerivationRights) (scope : List Str)
    (rights : Option DerivationRights) : Except DelegationError (Delegation × Delegation) := do
  let root ← createDelegation sample noon (lit "0") (rootOptions rootScope rootRights)
  let child ← subDelegate sample atNoon (lit "1") (hopOptions root scope rights)
  return (root, child)

theorem mint_ok {α : Type} (rootScope : List Str) (rootRights : Option DerivationRights) (scope : List Str)
    (rights : Option DerivationRights) (f : Delegation × Delegation → α) {v : α}
    (h : (mint rootScope rootRights scope rights).toOption.map f = some v) :
    ∃ root child, createDelegation sample noon (lit "0") (rootOptions rootScope rootRights) = .ok root ∧
      subDelegate sample atNoon (lit "1") (hopOptions root scope rights) = .ok child ∧ f (root, child) = v := by
  obtain ⟨pair, hmint, hv⟩ := exists_ok_of_map h
  rw [mint] at hmint
  obtain ⟨root, hroot, hmint⟩ := bind_eq_ok.mp hmint
  obtain ⟨child, hchild, hmint⟩ := bind_eq_ok.mp hmint
  cases hmint
  exact ⟨root, child, hroot, hchild, hv⟩

/-- The grant `*:*` covers the request `*`, which as a grant covers everything. -/
theorem scope_widened : ∃ root child,
    createDelegation sample noon (lit "0") (rootOptions [lit "*:*"] none) = .ok root ∧
    subDelegate sample atNoon (lit "1") (hopOptions root [lit "*"] none) = .ok child ∧
    scopeAuthorizes child.scope (lit "x") = true ∧ scopeAuthorizes root.scope (lit "x") = false := by
  obtain ⟨root, child, hroot, hchild, hscopes⟩ :=
    mint_ok [lit "*:*"] none [lit "*"] none
      (fun p => (scopeAuthorizes p.2.scope (lit "x"), scopeAuthorizes p.1.scope (lit "x")))
      (show _ = some (true, false) by decide +kernel)
  obtain ⟨hwide, hnarrow⟩ := Prod.mk.inj hscopes
  exact ⟨root, child, hroot, hchild, hwide, hnarrow⟩

def retained (ttl : Option JsNumber) : DerivationRights := ⟨true, ttl, none, false⟩

theorem limits_narrow_shorter : ∃ root child,
    createDelegation sample noon (lit "0") (rootOptions [lit "x"] (some (retained (some (.ofInt 10))))) = .ok root ∧
    subDelegate sample atNoon (lit "1") (hopOptions root [lit "x"] (some (retained (some (.ofInt 5))))) = .ok child ∧
    NoWider 1 child root := by
  obtain ⟨root, child, hroot, hchild, hshape⟩ :=
    mint_ok [lit "x"] (some (retained (some (.ofInt 10)))) [lit "x"] (some (retained (some (.ofInt 5))))
      (fun p => (p.1.currentDepth, p.1.derivation_rights))
      (show _ = some (zeroOf false, some (retained (some (.ofInt 10)))) by decide +kernel)
  obtain ⟨hdepth, hrights⟩ := Prod.mk.inj hshape
  refine ⟨root, child, hroot, hchild, ?_⟩
  refine ((limits_narrow sample hroot).2 0 atNoon (lit "1") _ child (.refl root) hchild).mpr ⟨?_, ?_, ?_⟩
  · exact ⟨_, Double.one, hdepth, by decide +kernel⟩
  · intro p hp bound hbound
    rw [show (hopOptions root [lit "x"] (some (retained (some (.ofInt 5))))).parentDelegation = root from rfl,
      hrights] at hp
    obtain rfl := Option.some.inj hp
    obtain rfl := Option.some.inj hbound
    exact ⟨by decide +kernel, .ofInt 5, rfl, by decide +kernel⟩
  · intro p hp hsome
    rw [show (hopOptions root [lit "x"] (some (retained (some (.ofInt 5))))).parentDelegation = root from rfl,
      hrights] at hp
    obtain rfl := Option.some.inj hp
    cases hsome

/-- A child that leaves the bound on retention out has none. -/
theorem retention_unbounded : ∃ root child,
    createDelegation sample noon (lit "0") (rootOptions [lit "x"] (some (retained (some (.ofInt 10))))) = .ok root ∧
    subDelegate sample atNoon (lit "1") (hopOptions root [lit "x"] (some (retained none))) = .ok child ∧
    root.derivation_rights = some (retained (some (.ofInt 10))) ∧ child.derivation_rights = some (retained none) ∧
    ¬ NoWider 1 child root := by
  obtain ⟨root, child, hroot, hchild, hshape⟩ :=
    mint_ok [lit "x"] (some (retained (some (.ofInt 10)))) [lit "x"] (some (retained none))
      (fun p => (p.1.derivation_rights, p.2.derivation_rights))
      (show _ = some (some (retained (some (.ofInt 10))), some (retained none)) by decide +kernel)
  obtain ⟨hbound, hnone⟩ := Prod.mk.inj hshape
  refine ⟨root, child, hroot, hchild, hbound, hnone, ?_⟩
  intro hwider
  have hpermits := hwider.permits
  rw [PermitsWithin, hbound] at hpermits
  obtain ⟨c, hc, hwithin⟩ := hpermits
  rw [hnone] at hc
  cases hc
  obtain ⟨ttl, httl, -⟩ := hwithin.ttl _ rfl
  cases httl

end AgentPassport.LegacyNarrowing
