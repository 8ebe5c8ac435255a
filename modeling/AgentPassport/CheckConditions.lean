import AgentPassport.CheckSteps
import Mathlib.Data.Nat.Bitwise

/-! When the check admits an action, said without its steps, and what each outcome
leaves in the counters. -/
namespace AgentPassport.CheckConditions
open ByteBlocks DecisionRecord ActionRecord ResourceTrie ToolRegistry CompiledAuthority CheckSteps

theorem and_shift_ne_zero (n : Nat) {k w : Nat} (hk : k < w) :
    n &&& (1 <<< k % 2 ^ w) ≠ 0 ↔ n.testBit k = true := by
  have hpow : 1 <<< k % 2 ^ w = 2 ^ k := by
    rw [Nat.one_shiftLeft, Nat.mod_eq_of_lt (Nat.pow_lt_pow_right (by decide) hk)]
  rw [hpow, Nat.and_two_pow]
  cases n.testBit k <;> simp

def HasBit (m : BitMap) (bit : Nat) : Prop := (m.words.getD (bit / 64) 0).toNat.testBit (bit % 64)

theorem bitMap_get_iff (m : BitMap) (bit : UInt32) : m.get bit = true ↔ HasBit m bit.toNat := by
  have hk : bit.toNat % 64 < 64 := Nat.mod_lt _ (by decide)
  have hshift : (UInt64.ofNat (bit.toNat % 64)).toNat % 64 = bit.toNat % 64 := by
    rw [UInt64.toNat_ofNat_of_lt' (by simp only [UInt64.size]; omega)]
    omega
  rw [BitMap.get, decide_eq_true_eq, HasBit, ← and_shift_ne_zero _ hk, Ne, Ne,
    ← UInt64.toNat_inj, UInt64.toNat_and, UInt64.toNat_shiftLeft, hshift]
  rfl

theorem bitMap_capacity_of_get {m : BitMap} {bit : Nat} (h : HasBit m bit) :
    bit < m.capacity := by
  by_contra hge
  have hout : m.words.length ≤ bit / 64 := by
    unfold BitMap.capacity at hge
    omega
  simp [HasBit, List.getD_eq_getElem?_getD, List.getElem?_eq_none hout] at h

theorem toolBit_iff (m : BitMap) (bit : UInt32) :
    ¬ (bit.toNat ≥ m.capacity ∨ (!m.get bit) = true) ↔ HasBit m bit.toNat := by
  rw [← bitMap_get_iff]
  constructor
  · intro h
    simpa using (not_or.mp h).2
  · intro h
    have := bitMap_capacity_of_get ((bitMap_get_iff m bit).mp h)
    refine not_or.mpr ⟨by omega, by simpa using h⟩

theorem operationBit_iff (mask : UInt32) (op : UInt16) :
    ¬ (op ≥ 32 ∨ mask &&& (1 <<< op.toUInt32) = 0) ↔ mask.toNat.testBit op.toNat = true := by
  have hlt : op ≥ 32 ↔ 32 ≤ op.toNat := by
    rw [ge_iff_le, UInt16.le_iff_toNat_le]
    rfl
  by_cases hop : op.toNat < 32
  · have hshift : op.toUInt32.toNat % 32 = op.toNat := by
      rw [UInt16.toNat_toUInt32]
      omega
    have hmask : mask &&& (1 <<< op.toUInt32) = 0 ↔
        mask.toNat &&& (1 <<< op.toNat % 2 ^ 32) = 0 := by
      rw [← UInt32.toNat_inj, UInt32.toNat_and, UInt32.toNat_shiftLeft, hshift]
      rfl
    rw [hlt, hmask, ← and_shift_ne_zero _ hop]
    constructor
    · exact fun h => (not_or.mp h).2
    · exact fun h => not_or.mpr ⟨by omega, h⟩
  · have hbit : mask.toNat.testBit op.toNat = false := by
      refine Nat.testBit_lt_two_pow ?_
      calc mask.toNat < 2 ^ 32 := mask.toNat_lt
        _ ≤ 2 ^ op.toNat := Nat.pow_le_pow_right (by decide) (by omega)
    rw [hbit, hlt]
    constructor
    · intro h
      omega
    · intro h
      cases h

variable (B : Blake3)

/-- Everything the check asks before the approval rules. -/
structure Admissible (authority : Authority) (action : ActionDescriptor)
    (ctx : VerifierContext) : Prop where
  hashValid : action.computeActionHash B = action.actionHash
  instanceEqual : authority.verifierInstanceIdHash = ctx.verifierInstanceIdHash
  notExpired : (ctx.clock 0).toNat ≤
    min (authority.expiresAtUnixNs.toNat + authority.maxClockSkewNs.toNat) (2 ^ 64 - 1)
  issued : authority.issuedAtUnixNs.toNat - authority.maxClockSkewNs.toNat ≤ (ctx.clock 0).toNat
  anchorFresh : 3 ≤ action.riskClass →
    (ctx.clock 0).toNat - authority.lastTimeAnchorNs.toNat ≤ 30 * 10 ^ 9
  revocationFresh : authority.revocationEpoch ≤ ctx.revocationEpoch
  tierSufficient : authority.minimumTierRequired ≤ ctx.attestedTier.toU8
  riskCovered : action.riskClass ≤ authority.riskClass
  riskNotStrict : action.riskClass < 4
  toolRegistered : ⟨action.toolDescriptorHash, action.localToolId⟩ ∈ authority.toolRegistry.entries
  toolBit : HasBit authority.allowedToolBitmap action.localToolId.toNat
  operationBit : authority.allowedOpMask.toNat.testBit action.operationId.toNat = true
  resourceInScope : ∃ trie, authority.resourceTrie = some trie ∧
    ∃ scope, trie.Holds scope ∧ scope.Covers (pathOf action)
  aboveFloor : authority.recoveredFloor ≠ 0 → authority.recoveredFloor < action.sequenceId
  sequenceExpected : action.sequenceId = authority.sequenceNext
  sequenceInWindow : action.sequenceId < authority.sequenceEnd
  actionsLeft : 0 < authority.budgetRemainingActions.toNat
  costLeft : action.costUnits.toNat ≤ authority.budgetRemainingCostUnits.toNat

/-- All declarative conditions of an Allow. -/
structure Permitted (authority : Authority) (action : ActionDescriptor)
    (ctx : VerifierContext) : Prop extends Admissible B authority action ctx where
  noRule : ∀ rule ∈ authority.approvalRules, rule.matches action = false

theorem gate_none_iff {p : Prop} [Decidable p] (r : ReasonCode) (rest : Option ReasonCode) :
    (if p then some r else rest) = none ↔ ¬ p ∧ rest = none := by
  split <;> simp_all

theorem bindingGate_none_iff (authority : Authority) (action : ActionDescriptor)
    (ctx : VerifierContext) :
    bindingGate B authority action ctx = none ↔
      action.computeActionHash B = action.actionHash ∧
        authority.verifierInstanceIdHash = ctx.verifierInstanceIdHash := by
  rw [bindingGate, gate_none_iff, gate_none_iff]
  simp [ActionDescriptor.verifyActionHash]

theorem temporalGate_none_iff (authority : Authority) (now : UInt64) :
    temporalGate authority now = none ↔
      now.toNat ≤ min (authority.expiresAtUnixNs.toNat + authority.maxClockSkewNs.toNat)
          (2 ^ 64 - 1) ∧
        authority.issuedAtUnixNs.toNat - authority.maxClockSkewNs.toNat ≤ now.toNat := by
  rw [temporalGate, gate_none_iff, gate_none_iff, ← saturatingAdd_toNat, ← saturatingSub_toNat,
    gt_iff_lt, UInt64.lt_iff_toNat_lt, UInt64.lt_iff_toNat_lt]
  simp only [not_lt, and_true]

theorem anchorGate_none_iff (anchor : UInt64) (action : ActionDescriptor) (now : UInt64) :
    anchorGate anchor action now = none ↔
      (3 ≤ action.riskClass → now.toNat - anchor.toNat ≤ 30 * 10 ^ 9) := by
  have hage : saturatingSub now anchor > r3MaxAnchorAgeNs ↔
      30 * 10 ^ 9 < now.toNat - anchor.toNat := by
    rw [gt_iff_lt, UInt64.lt_iff_toNat_lt, saturatingSub_toNat]
    exact Iff.rfl
  rw [anchorGate, gate_none_iff, hage]
  simp only [ge_iff_le, not_and, not_lt, and_true]

theorem floorGate_none_iff (floor : UInt64) (action : ActionDescriptor) :
    floorGate floor action = none ↔ (floor ≠ 0 → floor < action.sequenceId) := by
  have hpos : floor > 0 ↔ floor ≠ 0 := by
    constructor <;> grind
  rw [floorGate, gate_none_iff, hpos]
  simp only [not_and, UInt64.not_le, and_true]

theorem trieMatch_iff (authority : Authority) (action : ActionDescriptor) :
    trieMatch authority action = true ↔ ∃ trie, authority.resourceTrie = some trie ∧
      ∃ scope, trie.Holds scope ∧ scope.Covers (pathOf action) := by
  unfold trieMatch
  cases authority.resourceTrie with
  | none => simp
  | some trie => simp [matches_iff]

theorem policyGate_none_iff (authority : Authority) (action : ActionDescriptor)
    (ctx : VerifierContext) :
    policyGate authority action ctx = none ↔
      authority.revocationEpoch ≤ ctx.revocationEpoch ∧
      authority.minimumTierRequired ≤ ctx.attestedTier.toU8 ∧
      action.riskClass ≤ authority.riskClass ∧ action.riskClass < 4 ∧
      ⟨action.toolDescriptorHash, action.localToolId⟩ ∈ authority.toolRegistry.entries ∧
      HasBit authority.allowedToolBitmap action.localToolId.toNat ∧
      authority.allowedOpMask.toNat.testBit action.operationId.toNat = true ∧
      ∃ trie, authority.resourceTrie = some trie ∧
        ∃ scope, trie.Holds scope ∧ scope.Covers (pathOf action) := by
  rw [← trieMatch_iff, ← toolBit_iff, ← operationBit_iff, ← getById_iff]
  simp only [policyGate, gate_none_iff, and_true, UInt32.not_lt, UInt8.not_lt, gt_iff_lt,
    ge_iff_le, UInt8.not_le, not_not, ne_eq, Bool.not_eq_true', Bool.not_eq_false]

theorem preSequenceGates_none_iff (authority : Authority) (action : ActionDescriptor)
    (ctx : VerifierContext) (now : UInt64) :
    preSequenceGates authority action ctx now = none ↔
      temporalGate authority now = none ∧ anchorGate authority.lastTimeAnchorNs action now = none ∧
        policyGate authority action ctx = none ∧ floorGate authority.recoveredFloor action = none := by
  unfold preSequenceGates
  cases temporalGate authority now <;> cases anchorGate authority.lastTimeAnchorNs action now <;>
    cases policyGate authority action ctx <;> simp [HOrElse.hOrElse, OrElse.orElse, Option.orElse]

/-- The reasons that stand behind a spent sequence number and a spent budget. -/
def consumes : ReasonCode → Bool
  | .ok | .approvalRequired | .deniedByRule => true
  | _ => false

theorem consumes_iff (r : ReasonCode) :
    r ∈ [ReasonCode.ok, .approvalRequired, .deniedByRule] ↔ consumes r = true := by
  cases r <;> decide

theorem gate_some_imp {p : Prop} [Decidable p] {r r' : ReasonCode} {rest : Option ReasonCode}
    (hr : consumes r = false) (hrest : rest = some r' → consumes r' = false)
    (h : (if p then some r else rest) = some r') : consumes r' = false := by
  split at h
  · cases h
    exact hr
  · exact hrest h

variable {r : ReasonCode}

theorem none_some_imp (h : none = some r) : consumes r = false := by
  cases h

variable {action : ActionDescriptor} {authority : Authority} {ctx : VerifierContext}

theorem bindingGate_reason (h : bindingGate B authority action ctx = some r) : consumes r = false :=
  gate_some_imp rfl (gate_some_imp rfl none_some_imp) h

variable {now : UInt64}

theorem temporalGate_reason (h : temporalGate authority now = some r) : consumes r = false :=
  gate_some_imp rfl (gate_some_imp rfl none_some_imp) h

theorem anchorGate_reason {anchor : UInt64} (h : anchorGate anchor action now = some r) : consumes r = false :=
  gate_some_imp rfl none_some_imp h

theorem floorGate_reason {floor : UInt64} (h : floorGate floor action = some r) : consumes r = false :=
  gate_some_imp rfl none_some_imp h

theorem policyGate_reason (h : policyGate authority action ctx = some r) : consumes r = false := by
  unfold policyGate at h
  refine gate_some_imp rfl (gate_some_imp rfl (gate_some_imp rfl (gate_some_imp rfl ?_))) h
  exact gate_some_imp rfl (gate_some_imp rfl (gate_some_imp rfl (gate_some_imp rfl none_some_imp)))

theorem preSequenceGates_reason (h : preSequenceGates authority action ctx now = some r) : consumes r = false := by
  have hcases : temporalGate authority now = some r ∨
      anchorGate authority.lastTimeAnchorNs action now = some r ∨
      policyGate authority action ctx = some r ∨
      floorGate authority.recoveredFloor action = some r := by
    unfold preSequenceGates at h
    cases ht : temporalGate authority now with
    | some x => exact .inl (by simpa [ht, HOrElse.hOrElse, OrElse.orElse, Option.orElse] using h)
    | none =>
      cases ha : anchorGate authority.lastTimeAnchorNs action now with
      | some x =>
        exact .inr (.inl (by simpa [ht, ha, HOrElse.hOrElse, OrElse.orElse, Option.orElse] using h))
      | none =>
        cases hp : policyGate authority action ctx with
        | some x => simp_all [HOrElse.hOrElse, OrElse.orElse, Option.orElse]
        | none => simp_all [HOrElse.hOrElse, OrElse.orElse, Option.orElse]
  obtain ht | ha | hp | hf := hcases
  · exact temporalGate_reason ht
  · exact anchorGate_reason ha
  · exact policyGate_reason hp
  · exact floorGate_reason hf

theorem tryDecrementBudget_eq (authority : Authority) (costUnits : UInt32) :
    tryDecrementBudget authority costUnits =
      if 0 < authority.budgetRemainingActions.toNat ∧
          costUnits.toNat ≤ authority.budgetRemainingCostUnits.toNat then
        (true, (authority.storeActions (authority.budgetRemainingActions - 1)).storeCost
          (authority.budgetRemainingCostUnits - costUnits.toUInt64))
      else (false, authority) := by
  have hactions : authority.budgetRemainingActions = 0 ↔
      ¬ 0 < authority.budgetRemainingActions.toNat := by
    rw [← UInt32.toNat_inj, Nat.pos_iff_ne_zero, not_not]
    rfl
  have hcost : authority.budgetRemainingCostUnits < costUnits.toUInt64 ↔
      ¬ costUnits.toNat ≤ authority.budgetRemainingCostUnits.toNat := by
    rw [UInt64.lt_iff_toNat_lt, UInt32.toNat_toUInt64, not_le]
  simp only [tryDecrementBudget, Authority.storeActions_cost, Authority.storeActions_actions,
    UInt32.sub_add_cancel, Authority.storeActions_twice, Authority.storeActions_self]
  by_cases ha : authority.budgetRemainingActions = 0
  · rw [if_pos ha, if_neg (fun h => hactions.mp ha h.1)]
  · rw [if_neg ha]
    by_cases hc : authority.budgetRemainingCostUnits < costUnits.toUInt64
    · rw [if_pos hc, if_neg (fun h => hcost.mp hc h.2)]
    · rw [if_neg hc, if_pos ⟨not_not.mp (mt hactions.mpr ha), not_not.mp (mt hcost.mpr hc)⟩]

/-- The authority after a call that got past step 11. -/
def charge (authority : Authority) (action : ActionDescriptor) : Authority :=
  ((authority.storeSequence (authority.sequenceNext + 1)).storeActions
    (authority.budgetRemainingActions - 1)).storeCost
      (authority.budgetRemainingCostUnits - action.costUnits.toUInt64)

def allowDecision (authority : Authority) (action : ActionDescriptor) (ctx : VerifierContext) :
    Decision :=
  finalize B authority action (ctx.clock 1) .allow .ok

theorem apsCheck_admissible (h : Admissible B authority action ctx) : apsCheck B authority action ctx =
      (approveAndEmit B authority action ctx, charge authority action) := by
  have hbind := (bindingGate_none_iff B authority action ctx).mpr ⟨h.hashValid, h.instanceEqual⟩
  have hpre : preSequenceGates authority action ctx (ctx.clock 0) = none := by
    rw [preSequenceGates_none_iff, temporalGate_none_iff, anchorGate_none_iff,
      policyGate_none_iff, floorGate_none_iff]
    exact ⟨⟨h.notExpired, h.issued⟩, h.anchorFresh, ⟨h.revocationFresh, h.tierSufficient,
      h.riskCovered, h.riskNotStrict, h.toolRegistered, h.toolBit, h.operationBit,
      h.resourceInScope⟩, h.aboveFloor⟩
  have hseq : ¬ (action.sequenceId ≠ authority.sequenceNext ∨
      action.sequenceId ≥ authority.sequenceEnd) := by
    refine not_or.mpr ⟨not_not.mpr h.sequenceExpected, ?_⟩
    exact UInt64.not_le.mpr h.sequenceInWindow
  have hbudget : tryDecrementBudget (authority.storeSequence (authority.sequenceNext + 1))
      action.costUnits = (true, charge authority action) := by
    rw [tryDecrementBudget_eq]
    exact if_pos ⟨h.actionsLeft, h.costLeft⟩
  simp only [apsCheck, hbind, hpre, if_neg hseq, hbudget]
  rfl

theorem apsCheck_refused (h : ¬ Admissible B authority action ctx) : ∃ r timestampNs, consumes r = false ∧
      apsCheck B authority action ctx =
        (.decided (finalize B authority action timestampNs .deny r), authority) := by
  cases hbind : bindingGate B authority action ctx with
  | some r =>
    refine ⟨r, ctx.clock 0, bindingGate_reason B hbind, ?_⟩
    simp only [apsCheck, hbind]
  | none =>
    cases hpre : preSequenceGates authority action ctx (ctx.clock 0) with
    | some r =>
      refine ⟨r, ctx.clock 1, preSequenceGates_reason hpre, ?_⟩
      simp only [apsCheck, hbind, hpre]
    | none =>
      by_cases hseq : action.sequenceId ≠ authority.sequenceNext ∨
          action.sequenceId ≥ authority.sequenceEnd
      · refine ⟨.sequenceReplay, ctx.clock 1, rfl, ?_⟩
        simp only [apsCheck, hbind, hpre, if_pos hseq]
      · refine ⟨.budgetExceeded, ctx.clock 1, rfl, ?_⟩
        have hbudget : ¬ (0 < authority.budgetRemainingActions.toNat ∧
            action.costUnits.toNat ≤ authority.budgetRemainingCostUnits.toNat) := by
          rintro ⟨ha, hc⟩
          rw [bindingGate_none_iff] at hbind
          rw [preSequenceGates_none_iff, temporalGate_none_iff, anchorGate_none_iff,
            policyGate_none_iff, floorGate_none_iff] at hpre
          obtain ⟨⟨he, hi⟩, han, ⟨hrev, ht, hrc, hrs, hreg, htb, hop, hres⟩, hfl⟩ := hpre
          obtain ⟨hne, hge⟩ := not_or.mp hseq
          exact h ⟨hbind.1, hbind.2, he, hi, han, hrev, ht, hrc, hrs, hreg, htb, hop, hres, hfl,
            not_not.mp hne, UInt64.not_le.mp hge, ha, hc⟩
        have hdec : tryDecrementBudget (authority.storeSequence (authority.sequenceNext + 1))
            action.costUnits = (false, authority.storeSequence (authority.sequenceNext + 1)) := by
          rw [tryDecrementBudget_eq]
          exact if_neg hbudget
        simp only [apsCheck, hbind, hpre, if_neg hseq, hdec, Authority.storeSequence_sequence,
          if_true, Authority.storeSequence_twice, Authority.storeSequence_self]

/-- What a call past step 11 did: one sequence number and one action are spent, the cost
is taken off without wrapping, and the rest of the authority is untouched. -/
structure Charged (authority : Authority) (action : ActionDescriptor) (after : Authority) :
    Prop where
  sequence : after.sequenceNext.toNat = authority.sequenceNext.toNat + 1
  actions : after.budgetRemainingActions.toNat + 1 = authority.budgetRemainingActions.toNat
  cost : after.budgetRemainingCostUnits.toNat + action.costUnits.toNat =
    authority.budgetRemainingCostUnits.toNat
  rest : after = ((authority.storeSequence after.sequenceNext).storeActions
    after.budgetRemainingActions).storeCost after.budgetRemainingCostUnits

theorem charge_charged (h : Admissible B authority action ctx) :
    Charged authority action (charge authority action) where
  sequence := by
    have hlt := UInt64.lt_iff_toNat_lt.mp h.sequenceInWindow
    have hend := authority.sequenceEnd.toNat_lt
    rw [h.sequenceExpected] at hlt
    change (authority.sequenceNext + 1).toNat = _
    rw [UInt64.toNat_add, show (1 : UInt64).toNat = 1 from rfl]
    exact Nat.mod_eq_of_lt (by omega)
  actions := by
    have hpos := h.actionsLeft
    have hle : (1 : UInt32) ≤ authority.budgetRemainingActions := UInt32.le_iff_toNat_le.mpr hpos
    change (authority.budgetRemainingActions - 1).toNat + 1 = _
    rw [UInt32.toNat_sub_of_le _ _ hle, show (1 : UInt32).toNat = 1 from rfl]
    omega
  cost := by
    have hcost := h.costLeft
    have hle : action.costUnits.toUInt64 ≤ authority.budgetRemainingCostUnits := by
      rw [UInt64.le_iff_toNat_le, UInt32.toNat_toUInt64]
      exact hcost
    change (authority.budgetRemainingCostUnits - action.costUnits.toUInt64).toNat + _ = _
    rw [UInt64.toNat_sub_of_le _ _ hle, UInt32.toNat_toUInt64]
    omega
  rest := rfl

theorem approvalGate_none_iff (authority : Authority) (action : ActionDescriptor) :
    approvalGate authority action = none ↔
      ∀ rule ∈ authority.approvalRules, rule.matches action = false := by
  simp [approvalGate]

theorem approvalGate_some {t : DecisionType} (h : approvalGate authority action = some (t, r)) :
    t ≠ .allow ∧ consumes r = true := by
  obtain ⟨rule, -, hr⟩ := Option.map_eq_some_iff.mp h
  cases hm : rule.onMatch <;> simp [hm] at hr <;> obtain ⟨rfl, rfl⟩ := hr <;> decide

theorem finalize_decisionType (authority : Authority) (action : ActionDescriptor)
    (ts : UInt64) (t : DecisionType) (r : ReasonCode) :
    (finalize B authority action ts t r).decisionType = t := rfl

theorem finalize_reasonCode (authority : Authority) (action : ActionDescriptor)
    (ts : UInt64) (t : DecisionType) (r : ReasonCode) :
    (finalize B authority action ts t r).reasonCode = r := rfl

theorem approveAndEmit_cases (authority : Authority) (action : ActionDescriptor)
    (ctx : VerifierContext) :
    (∃ t r, approvalGate authority action = some (t, r) ∧
      approveAndEmit B authority action ctx =
        .decided (finalize B authority action (ctx.clock 1) t r)) ∨
    (approvalGate authority action = none ∧
      ((∃ o, ctx.receiptSink (allowDecision B authority action ctx) = .ok o ∧
          approveAndEmit B authority action ctx = .decided (allowDecision B authority action ctx)) ∨
        ∃ e, ctx.receiptSink (allowDecision B authority action ctx) = .error e ∧
          approveAndEmit B authority action ctx = .panicked e)) := by
  unfold approveAndEmit emitAllow allowDecision
  cases approvalGate authority action with
  | some x => exact .inl ⟨x.1, x.2, rfl, rfl⟩
  | none =>
    refine .inr ⟨rfl, ?_⟩
    cases ctx.receiptSink (finalize B authority action (ctx.clock 1) .allow .ok) with
    | ok o => exact .inl ⟨o, rfl, rfl⟩
    | error e => exact .inr ⟨e, rfl, rfl⟩

/-- The check returns Allow exactly when every declarative condition holds and the sink
takes the decision; with the conditions met and a refusing sink it panics. The counters
move exactly under a consuming reason or such a panic. -/
theorem apsCheck_decides (authority : Authority) (action : ActionDescriptor)
    (ctx : VerifierContext) :
    ((∃ d, (apsCheck B authority action ctx).1 = .decided d ∧ d.decisionType = .allow) ↔
      Permitted B authority action ctx ∧
        ∃ o, ctx.receiptSink (allowDecision B authority action ctx) = .ok o) ∧
    (∀ e, (apsCheck B authority action ctx).1 = .panicked e ↔
      Permitted B authority action ctx ∧
        ctx.receiptSink (allowDecision B authority action ctx) = .error e) ∧
    (∀ d, (apsCheck B authority action ctx).1 = .decided d →
      (d.reasonCode ∈ [.ok, .approvalRequired, .deniedByRule] →
        Charged authority action (apsCheck B authority action ctx).2) ∧
      (d.reasonCode ∉ [.ok, .approvalRequired, .deniedByRule] →
        (apsCheck B authority action ctx).2 = authority)) ∧
    (∀ e, (apsCheck B authority action ctx).1 = .panicked e →
      Charged authority action (apsCheck B authority action ctx).2) := by
  simp only [consumes_iff]
  by_cases hadm : Admissible B authority action ctx
  · have hcharged := charge_charged B hadm
    have hpermitted : Permitted B authority action ctx ↔ approvalGate authority action = none := by
      rw [approvalGate_none_iff]
      exact ⟨fun h => h.noRule, fun h => ⟨hadm, h⟩⟩
    rw [apsCheck_admissible B hadm, hpermitted]
    obtain ⟨t, r, hgate, hout⟩ | ⟨hgate, ⟨o, hsink, hout⟩ | ⟨e, hsink, hout⟩⟩ :=
      approveAndEmit_cases B authority action ctx
    · obtain ⟨ht, hr⟩ := approvalGate_some hgate
      rw [hout, hgate]
      refine ⟨⟨?_, by simp⟩, by simp, ?_, by simp⟩
      · rintro ⟨d, hd, hallow⟩
        cases hd
        exact absurd hallow ht
      · intro d hd
        cases hd
        exact ⟨fun _ => hcharged, fun hn => absurd hr hn⟩
    · rw [hout, hgate, hsink]
      refine ⟨⟨fun _ => ⟨rfl, o, rfl⟩, fun _ => ⟨_, rfl, rfl⟩⟩, by simp, ?_, by simp⟩
      intro d hd
      cases hd
      exact ⟨fun _ => hcharged, fun hn => absurd rfl hn⟩
    · rw [hout, hgate, hsink]
      refine ⟨by simp, ?_, by simp, fun _ _ => hcharged⟩
      intro e'
      constructor
      · intro he
        cases he
        exact ⟨rfl, rfl⟩
      · rintro ⟨-, he⟩
        cases he
        rfl
  · obtain ⟨r, ts, hr, hout⟩ := apsCheck_refused B hadm
    have hnot : ¬ Permitted B authority action ctx := fun h => hadm h.toAdmissible
    rw [hout]
    refine ⟨⟨?_, fun h => absurd h.1 hnot⟩, ?_, ?_, by simp⟩
    · rintro ⟨d, hd, hallow⟩
      cases hd
      exact absurd hallow (by simp [finalize_decisionType])
    · exact fun e => ⟨by simp, fun h => absurd h.1 hnot⟩
    · intro d hd
      cases hd
      refine ⟨fun hc => ?_, fun _ => rfl⟩
      rw [finalize_reasonCode, hr] at hc
      cases hc

def readAction : ActionDescriptor where
  version := 1
  reserved := Block.zero 3
  passportIdHash := leBlock 32 0xb4fc00e07945cbc004110c31a2665ccb2b9c0e3b9e0ce2c7a9f8e010c8150d62
  toolDescriptorHash :=
    leBlock 32 0x4e3ebfcdc006de8b0bde2d6f2e775cbbca63c20b5e6d6d31578ced5df3918850
  localToolId := 0
  operationId := 0
  resourceType := 0
  riskClass := 1
  resourcePathDepth := 1
  reserved2 := Block.zero 2
  costUnits := 5
  sequenceId := 1
  nonce := Block.zero 16
  resourcePathHashes := ⟨0xbcfc26a5ad527d17 :: List.replicate 7 0, rfl⟩
  actionHash := leBlock 32 0xc43dd1c022c201d9d246721f6bc5c39263bd7b1edcc0f7e75ae2d235e90c6e4a

def readAuthority : Authority where
  expiresAtUnixNs := 5000
  issuedAtUnixNs := 500
  maxClockSkewNs := 100
  revocationEpoch := 3
  riskClass := 2
  minimumTierRequired := 1
  sequenceNext := 1
  sequenceEnd := 10
  budgetRemainingActions := 4
  budgetRemainingCostUnits := 20
  allowedOpMask := 1
  lastTimeAnchorNs := 500
  passportIdHash := readAction.passportIdHash
  verifierInstanceIdHash :=
    leBlock 32 0x315d729e208daab9f212540e57dc9e5ff15a845a84e40e2079703e5aee4ca55d
  allowedToolBitmap := ⟨[1]⟩
  toolRegistry := ⟨[⟨readAction.toolDescriptorHash, 0⟩], by decide, by decide⟩
  resourceTrie := some (.node [(0xbcfc26a5ad527d17, .node [] false true)] false false)
  approvalRules := []
  durabilityMode := .blockingGroupCommit
  receiptStreamKey := Block.zero 32
  recoveredFloor := 0

def fullSinkContext : VerifierContext where
  clock _ := 1000
  verifierInstanceIdHash := readAuthority.verifierInstanceIdHash
  attestedTier := .t2
  revocationEpoch := 3
  receiptSink _ := .error .bufferFull

/-- The BLAKE3 digests that checking `readAction` asks for. -/
def readDigests : Blake3 :=
  let id := leBlock 16 0x2590a44ce84d6847f7c4b52716742e2b
  .ofTable [(readAction.hashedBytes, readAction.actionHash)]
    [((Block.zero 32, readAction.passportIdHash.bytes ++ readAction.actionHash.bytes ++ toLe 8 1 ++
        [0, 0] ++ id.bytes ++ toLe 8 1000),
      leBlock 32 0x1c2c641bc38af89b9694e67f4137b622a26b2ce0f7659bdd3218f8352cb89687)]
    [((decisionIdContext, readAction.passportIdHash.bytes ++ readAction.actionHash.bytes ++ [0, 0]),
      id)]

theorem readAction_permitted : Permitted readDigests readAuthority readAction fullSinkContext where
  hashValid := by decide
  instanceEqual := rfl
  notExpired := by decide
  issued := by decide
  anchorFresh := by decide
  revocationFresh := by decide
  tierSufficient := by decide
  riskCovered := by decide
  riskNotStrict := by decide
  toolRegistered := by decide
  toolBit := rfl
  operationBit := by decide
  resourceInScope := ⟨_, rfl, ⟨[0xbcfc26a5ad527d17], true⟩, ⟨_, rfl, rfl⟩, ⟨[], rfl⟩⟩
  aboveFloor := by decide
  sequenceExpected := rfl
  sequenceInWindow := by decide
  actionsLeft := by decide
  costLeft := by decide
  noRule := by simp [readAuthority]

/-- With every declarative condition met and the sink full, no decision comes back and the
counters have moved. -/
theorem apsCheck_full_sink :
    Permitted readDigests readAuthority readAction fullSinkContext ∧
    apsCheck readDigests readAuthority readAction fullSinkContext =
      (.panicked .bufferFull, charge readAuthority readAction) ∧
    ¬ (∃ d, (apsCheck readDigests readAuthority readAction fullSinkContext).1 = .decided d ∧
      d.decisionType = .allow) := by
  have hrun : apsCheck readDigests readAuthority readAction fullSinkContext =
      (.panicked .bufferFull, charge readAuthority readAction) :=
    apsCheck_admissible readDigests readAction_permitted.toAdmissible
  refine ⟨readAction_permitted, hrun, ?_⟩
  rintro ⟨d, hd, -⟩
  rw [hrun] at hd
  cases hd

end AgentPassport.CheckConditions
