import AgentPassport.CheckConditions
import AgentPassport.Interleaving

/-! Concurrent calls of the check on one authority. A call moves by single loads,
compare-exchanges and fetch-adds; everything between two of them is local. -/
namespace AgentPassport.CheckInterleaving
open DecisionRecord ActionRecord CompiledAuthority CheckSteps CheckConditions Interleaving

structure Call where
  action : ActionDescriptor
  ctx : VerifierContext

/-- The atomic operation a call in `try_decrement_budget` makes next. -/
inductive BudgetPc where
  | loadActions
  | casActions (current : UInt32)
  | loadCost
  | casCost (current : UInt64)
  | refundAction

/-- The atomic operation a call makes next; `expected` is the value step 10 loaded. -/
inductive Pc where
  | start
  | loadAnchor
  | loadFloor
  | loadSequence
  | casSequence (expected : UInt64)
  | budget (expected : UInt64) (stage : BudgetPc)
  | rollback (expected : UInt64)
  | charged
  | done (outcome : Outcome)

variable (B : Blake3)

def Call.deny (c : Call) (authority : Authority) (r : ReasonCode) : Pc :=
  .done (.decided (finalize B authority c.action (c.ctx.clock 1) .deny r))

/-- Steps 4 to 9, up to the load of the recovery floor. -/
def Call.enterPolicy (c : Call) (authority : Authority) : Pc :=
  match policyGate authority c.action c.ctx with
  | some r => c.deny B authority r
  | none => .loadFloor

/-- The head of the first retry loop, with the value just seen. -/
def actionsRound (expected : UInt64) (current : UInt32) : Pc :=
  if current = 0 then .rollback expected else .budget expected (.casActions current)

/-- The head of the second retry loop. -/
def Call.costRound (c : Call) (expected current : UInt64) : Pc :=
  if current < c.action.costUnits.toUInt64 then .budget expected .refundAction
  else .budget expected (.casCost current)

def Call.stepBudget (c : Call) (authority : Authority) (expected : UInt64) :
    BudgetPc → Pc × Authority
  | .loadActions => (actionsRound expected authority.budgetRemainingActions, authority)
  | .casActions current =>
    if authority.budgetRemainingActions = current then
      (.budget expected .loadCost, authority.storeActions (current - 1))
    else (actionsRound expected authority.budgetRemainingActions, authority)
  | .loadCost => (c.costRound expected authority.budgetRemainingCostUnits, authority)
  | .casCost current =>
    if authority.budgetRemainingCostUnits = current then
      (.charged, authority.storeCost (current - c.action.costUnits.toUInt64))
    else (c.costRound expected authority.budgetRemainingCostUnits, authority)
  | .refundAction =>
    (.rollback expected, authority.storeActions (authority.budgetRemainingActions + 1))

/-- Gates 0 to 2, and on to the anchor load or straight to step 4. -/
def Call.enter (c : Call) (authority : Authority) : Pc :=
  match bindingGate B authority c.action c.ctx with
  | some r => .done (.decided (finalize B authority c.action (c.ctx.clock 0) .deny r))
  | none =>
    match temporalGate authority (c.ctx.clock 0) with
    | some r => c.deny B authority r
    | none => if c.action.riskClass ≥ 3 then .loadAnchor else c.enterPolicy B authority

def Call.step (c : Call) (authority : Authority) : Pc → Option (Pc × Authority)
  | .start => some (c.enter B authority, authority)
  | .loadAnchor =>
    match anchorGate authority.lastTimeAnchorNs c.action (c.ctx.clock 0) with
    | some r => some (c.deny B authority r, authority)
    | none => some (c.enterPolicy B authority, authority)
  | .loadFloor =>
    match floorGate authority.recoveredFloor c.action with
    | some r => some (c.deny B authority r, authority)
    | none => some (.loadSequence, authority)
  | .loadSequence =>
    let expected := authority.sequenceNext
    if c.action.sequenceId ≠ expected ∨ c.action.sequenceId ≥ authority.sequenceEnd then
      some (c.deny B authority .sequenceReplay, authority)
    else some (.casSequence expected, authority)
  | .casSequence expected =>
    if authority.sequenceNext = expected then
      some (.budget expected .loadActions, authority.storeSequence (expected + 1))
    else some (c.deny B authority .sequenceReplay, authority)
  | .budget expected stage => some (c.stepBudget authority expected stage)
  | .rollback expected =>
    let restored := if authority.sequenceNext = expected + 1
      then authority.storeSequence expected else authority
    some (c.deny B authority .budgetExceeded, restored)
  | .charged => some (.done (approveAndEmit B authority c.action c.ctx), authority)
  | .done _ => none

theorem runAlone_done (c : Call) (n : Nat) (o : Outcome) (a : Authority) :
    runAlone (c.step B) n (.done o) a = (.done o, a) := runAlone_stop rfl n

theorem runAlone_deny (c : Call) (n : Nat) (r : ReasonCode) (a b : Authority) :
    runAlone (c.step B) n (c.deny B b r) a = (c.deny B b r, a) := runAlone_stop rfl n

theorem runAlone_budget (c : Call) (a : Authority) (e : UInt64) (n : Nat)
    (he : a.sequenceNext = e + 1) :
    runAlone (c.step B) (n + 6) (.budget e .loadActions) a =
      match tryDecrementBudget a c.action.costUnits with
      | (false, held) => (c.deny B a .budgetExceeded, held.storeSequence e)
      | (true, charged) => (.done (approveAndEmit B charged c.action c.ctx), charged) := by
  have hload : runAlone (c.step B) (n + 6) (.budget e .loadActions) a =
      runAlone (c.step B) (n + 5) (actionsRound e a.budgetRemainingActions) a := runAlone_step rfl _
  rw [hload, actionsRound, tryDecrementBudget]
  by_cases ha : a.budgetRemainingActions = 0
  · have hroll : c.step B a (.rollback e) =
        some (c.deny B a .budgetExceeded, a.storeSequence e) := by
      simp only [Call.step, if_pos he]
    rw [if_pos ha, if_pos ha, runAlone_step hroll]
    exact runAlone_deny ..
  · let b := a.storeActions (a.budgetRemainingActions - 1)
    have hcas : c.step B a (.budget e (.casActions a.budgetRemainingActions)) =
        some (.budget e .loadCost, b) := by
      simp only [Call.step, Call.stepBudget, if_pos, b]
    have hcost : c.step B b (.budget e .loadCost) =
        some (c.costRound e b.budgetRemainingCostUnits, b) := rfl
    rw [if_neg ha, if_neg ha, runAlone_step hcas, runAlone_step hcost, Call.costRound]
    by_cases hc : b.budgetRemainingCostUnits < c.action.costUnits.toUInt64
    · let d := b.storeActions (b.budgetRemainingActions + 1)
      have hrefund : c.step B b (.budget e .refundAction) = some (.rollback e, d) := rfl
      have hroll : c.step B d (.rollback e) =
          some (c.deny B d .budgetExceeded, d.storeSequence e) := by
        have hd : d.sequenceNext = e + 1 := he
        simp only [Call.step, if_pos hd]
      rw [if_pos hc, runAlone_step hrefund, runAlone_step hroll, runAlone_deny]
      simp only [b] at hc
      simp only [if_pos hc]
      rfl
    · let d := b.storeCost (b.budgetRemainingCostUnits - c.action.costUnits.toUInt64)
      have hpay : c.step B b (.budget e (.casCost b.budgetRemainingCostUnits)) =
          some (.charged, d) := by
        simp only [Call.step, Call.stepBudget, if_pos, d]
      have hend : c.step B d .charged = some (.done (approveAndEmit B d c.action c.ctx), d) := rfl
      rw [if_neg hc, runAlone_step hpay, runAlone_step hend, runAlone_done]
      simp only [b] at hc
      simp only [if_neg hc]
      rfl

theorem runAlone_floor (c : Call) (a : Authority) (n : Nat) :
    runAlone (c.step B) (n + 9) .loadFloor a =
      match floorGate a.recoveredFloor c.action with
      | some r => (c.deny B a r, a)
      | none =>
        if c.action.sequenceId ≠ a.sequenceNext ∨ c.action.sequenceId ≥ a.sequenceEnd then
          (c.deny B a .sequenceReplay, a)
        else match tryDecrementBudget (a.storeSequence (a.sequenceNext + 1)) c.action.costUnits with
          | (false, held) => (c.deny B a .budgetExceeded, held.storeSequence a.sequenceNext)
          | (true, charged) => (.done (approveAndEmit B charged c.action c.ctx), charged) := by
  cases hf : floorGate a.recoveredFloor c.action with
  | some r =>
    have hstep : c.step B a .loadFloor = some (c.deny B a r, a) := by simp only [Call.step, hf]
    rw [runAlone_step hstep, runAlone_deny]
  | none =>
    have hstep : c.step B a .loadFloor = some (.loadSequence, a) := by simp only [Call.step, hf]
    rw [runAlone_step hstep]
    by_cases hseq : c.action.sequenceId ≠ a.sequenceNext ∨ c.action.sequenceId ≥ a.sequenceEnd
    · have hload : c.step B a .loadSequence = some (c.deny B a .sequenceReplay, a) := by
        simp only [Call.step, if_pos hseq]
      rw [runAlone_step hload, runAlone_deny]
      simp only [if_pos hseq]
    · have hload : c.step B a .loadSequence = some (.casSequence a.sequenceNext, a) := by
        simp only [Call.step, if_neg hseq]
      have hcas : c.step B a (.casSequence a.sequenceNext) = some
          (.budget a.sequenceNext .loadActions, a.storeSequence (a.sequenceNext + 1)) := by
        simp only [Call.step, if_pos]
      rw [runAlone_step hload, runAlone_step hcas, runAlone_budget B c _ _ n rfl]
      simp only [if_neg hseq]
      rfl

theorem runAlone_policy (c : Call) (a : Authority) (n : Nat) :
    runAlone (c.step B) (n + 9) (c.enterPolicy B a) a =
      match policyGate a c.action c.ctx with
      | some r => (c.deny B a r, a)
      | none => runAlone (c.step B) (n + 9) .loadFloor a := by
  unfold Call.enterPolicy
  cases policyGate a c.action c.ctx with
  | some r => exact runAlone_deny ..
  | none => rfl

theorem runAlone_floor_eq (c : Call) (a : Authority) (n : Nat)
    (hb : bindingGate B a c.action c.ctx = none)
    (ht : temporalGate a (c.ctx.clock 0) = none)
    (ha : anchorGate a.lastTimeAnchorNs c.action (c.ctx.clock 0) = none) :
    runAlone (c.step B) (n + 9) (c.enterPolicy B a) a =
      (.done (apsCheck B a c.action c.ctx).1, (apsCheck B a c.action c.ctx).2) := by
  rw [runAlone_policy, runAlone_floor]
  simp only [apsCheck, hb, preSequenceGates, ht, ha]
  cases hp : policyGate a c.action c.ctx with
  | some r => rfl
  | none =>
    cases hf : floorGate a.recoveredFloor c.action with
    | some r => rfl
    | none =>
      by_cases hseq : c.action.sequenceId ≠ a.sequenceNext ∨ c.action.sequenceId ≥ a.sequenceEnd
      · simp only [if_pos hseq]
        rfl
      · have hnext : (tryDecrementBudget (a.storeSequence (a.sequenceNext + 1))
            c.action.costUnits).2.sequenceNext = a.sequenceNext + 1 := by
          rw [tryDecrementBudget_eq]
          split <;> rfl
        simp only [if_neg hseq]
        generalize tryDecrementBudget (a.storeSequence (a.sequenceNext + 1))
          c.action.costUnits = attempt at hnext
        obtain ⟨_ | _, b⟩ := attempt
        · simp only [if_pos (show b.sequenceNext = a.sequenceNext + 1 from hnext)]
          rfl
        · rfl

/-- A call that runs without interference computes the sequential check. -/
theorem runAlone_eq_apsCheck (c : Call) (a : Authority) (n : Nat) :
    runAlone (c.step B) (n + 11) .start a =
      (.done (apsCheck B a c.action c.ctx).1, (apsCheck B a c.action c.ctx).2) := by
  rw [runAlone_step (rfl : c.step B a .start = some (c.enter B a, a)), Call.enter]
  cases hb : bindingGate B a c.action c.ctx with
  | some r =>
    simp only [apsCheck, hb]
    exact runAlone_done ..
  | none =>
    cases ht : temporalGate a (c.ctx.clock 0) with
    | some r =>
      simp only [apsCheck, hb, preSequenceGates, ht]
      exact runAlone_deny ..
    | none =>
      by_cases hr : c.action.riskClass ≥ 3
      · simp only [if_pos hr]
        cases ha : anchorGate a.lastTimeAnchorNs c.action (c.ctx.clock 0) with
        | some r =>
          have hstep : c.step B a .loadAnchor = some (c.deny B a r, a) := by
            simp only [Call.step, ha]
          rw [runAlone_step hstep, runAlone_deny]
          simp only [apsCheck, hb, preSequenceGates, ht, ha]
          rfl
        | none =>
          have hstep : c.step B a .loadAnchor = some (c.enterPolicy B a, a) := by
            simp only [Call.step, ha]
          rw [runAlone_step hstep]
          exact runAlone_floor_eq B c a n hb ht ha
      · have ha : anchorGate a.lastTimeAnchorNs c.action (c.ctx.clock 0) = none :=
          if_neg (fun h => hr h.1)
        simp only [if_neg hr]
        exact runAlone_floor_eq B c a (n + 1) hb ht ha

/-- Decisions past step 11: Allow, ApprovalRequired, DeniedByRule, or the panic of step 13. -/
def Outcome.pastBudget : Outcome → Bool
  | .decided d => consumes d.reasonCode
  | .panicked _ => true

def passed : Pc → Bool
  | .charged => true
  | .done o => Outcome.pastBudget o
  | _ => false

/-- The sequence number a call holds: from its compare-exchange until its rollback, and
for good once it is past the budget. -/
def Call.held (c : Call) : Pc → Option UInt64
  | .budget e _ => some e
  | .rollback e => some e
  | p => if passed p then some c.action.sequenceId else none

/-- The units of the action counter a call has taken and not given back. -/
def taken : Pc → Nat
  | .budget _ .loadCost => 1
  | .budget _ (.casCost _) => 1
  | .budget _ .refundAction => 1
  | p => if passed p then 1 else 0

def Call.paid (c : Call) (p : Pc) : Nat := if passed p then c.action.costUnits.toNat else 0

/-- What the local variables of a call are known to satisfy. -/
def Call.Sound (c : Call) (sequenceEnd : UInt64) : Pc → Prop
  | .casSequence e => c.action.sequenceId = e ∧ e < sequenceEnd
  | .rollback e => c.action.sequenceId = e ∧ e < sequenceEnd
  | .budget e (.casActions current) =>
    (c.action.sequenceId = e ∧ e < sequenceEnd) ∧ current ≠ 0
  | .budget e (.casCost current) =>
    (c.action.sequenceId = e ∧ e < sequenceEnd) ∧ c.action.costUnits.toUInt64 ≤ current
  | .budget e _ => c.action.sequenceId = e ∧ e < sequenceEnd
  | _ => True

/-- Everything one atomic step can do to the shared cells and to a call's holdings. -/
inductive Effect (c : Call) (a : Authority) : Pc → Pc → Authority → Prop
  | quiet {p p' : Pc} (held : c.held p' = c.held p) (taken : taken p' = taken p)
      (paid : passed p' = passed p) : Effect c a p p' a
  | advance (e : UInt64) (h : a.sequenceNext = e) :
      Effect c a (.casSequence e) (.budget e .loadActions) (a.storeSequence (e + 1))
  | take (e : UInt64) (current : UInt32) (h : a.budgetRemainingActions = current) :
      Effect c a (.budget e (.casActions current)) (.budget e .loadCost)
        (a.storeActions (current - 1))
  | pay (e current : UInt64) (h : a.budgetRemainingCostUnits = current) :
      Effect c a (.budget e (.casCost current)) .charged
        (a.storeCost (current - c.action.costUnits.toUInt64))
  | refund (e : UInt64) :
      Effect c a (.budget e .refundAction) (.rollback e)
        (a.storeActions (a.budgetRemainingActions + 1))
  | reopen (e : UInt64) (r : Outcome) (hr : Outcome.pastBudget r = false)
      (h : a.sequenceNext = e + 1) :
      Effect c a (.rollback e) (.done r) (a.storeSequence e)
  | abandon (e : UInt64) (r : Outcome) (hr : Outcome.pastBudget r = false)
      (h : a.sequenceNext ≠ e + 1) :
      Effect c a (.rollback e) (.done r) a

variable {a : Authority} {c : Call}

theorem quiet_of_idle {p p' : Pc} (hp : c.held p = none) (hp' : c.held p' = none) : Effect c a p p' a := by
  have idle : ∀ q : Pc, c.held q = none → taken q = 0 ∧ passed q = false := by
    intro q hq
    unfold Call.held at hq
    split at hq
    · cases hq
    · cases hq
    · rename_i hb hr
      have hq : passed q = false := by simpa using hq
      refine ⟨?_, hq⟩
      unfold taken
      split
      · exact absurd rfl (hb _ _)
      · exact absurd rfl (hb _ _)
      · exact absurd rfl (hb _ _)
      · simp [hq]
  obtain ⟨ht, hpass⟩ := idle p hp
  obtain ⟨ht', hpass'⟩ := idle p' hp'
  exact .quiet (hp'.trans hp.symm) (ht'.trans ht.symm) (hpass'.trans hpass.symm)

theorem held_deny (c : Call) (a : Authority) {r : ReasonCode} (hr : consumes r = false) :
    c.held (c.deny B a r) = none := by
  simp [Call.deny, Call.held, passed, Outcome.pastBudget, finalize_reasonCode, hr]

theorem held_enterPolicy (c : Call) (a : Authority) : c.held (c.enterPolicy B a) = none := by
  unfold Call.enterPolicy
  cases h : policyGate a c.action c.ctx with
  | none => rfl
  | some r => exact held_deny B c a (policyGate_reason h)

theorem held_enter (c : Call) (a : Authority) : c.held (c.enter B a) = none := by
  unfold Call.enter
  cases hb : bindingGate B a c.action c.ctx with
  | some r =>
    simp [Call.held, passed, Outcome.pastBudget, finalize_reasonCode, bindingGate_reason B hb]
  | none =>
    cases ht : temporalGate a (c.ctx.clock 0) with
    | some r => exact held_deny B c a (temporalGate_reason ht)
    | none =>
      by_cases hr : c.action.riskClass ≥ 3
      · simp only [if_pos hr]
        rfl
      · simp only [if_neg hr]
        exact held_enterPolicy B c a

theorem approveAndEmit_pastBudget (a : Authority) (c : Call) :
    Outcome.pastBudget (approveAndEmit B a c.action c.ctx) = true := by
  obtain ⟨t, r, hgate, hout⟩ | ⟨-, ⟨o, -, hout⟩ | ⟨e, -, hout⟩⟩ :=
    approveAndEmit_cases B a c.action c.ctx
  · rw [hout]
    exact (approvalGate_some hgate).2
  · rw [hout]
    rfl
  · rw [hout]
    rfl

variable {p : Pc}

theorem actionsRound_effect (c : Call) (a : Authority) (e : UInt64) (current : UInt32) (hp : c.held p = some e)
    (ht : taken p = 0) (hpass : passed p = false) : Effect c a p (actionsRound e current) a := by
  unfold actionsRound
  split
  · exact .quiet hp.symm ht.symm hpass.symm
  · exact .quiet hp.symm ht.symm hpass.symm

theorem costRound_effect (c : Call) (a : Authority) (e current : UInt64) (hp : c.held p = some e) (ht : taken p = 1)
    (hpass : passed p = false) : Effect c a p (c.costRound e current) a := by
  unfold Call.costRound
  split
  · exact .quiet hp.symm ht.symm hpass.symm
  · exact .quiet hp.symm ht.symm hpass.symm

theorem stepBudget_effect (c : Call) (a : Authority) (e : UInt64) (stage : BudgetPc) :
    Effect c a (.budget e stage) (c.stepBudget a e stage).1 (c.stepBudget a e stage).2 := by
  cases stage with
  | loadActions => exact actionsRound_effect c a e _ rfl rfl rfl
  | casActions current =>
    unfold Call.stepBudget
    by_cases h : a.budgetRemainingActions = current
    · simp only [if_pos h]
      exact .take e current h
    · simp only [if_neg h]
      exact actionsRound_effect c a e _ rfl rfl rfl
  | loadCost => exact costRound_effect c a e _ rfl rfl rfl
  | casCost current =>
    unfold Call.stepBudget
    by_cases h : a.budgetRemainingCostUnits = current
    · simp only [if_pos h]
      exact .pay e current h
    · simp only [if_neg h]
      exact costRound_effect c a e _ rfl rfl rfl
  | refundAction => exact .refund e

theorem step_effect {a a' : Authority} {p p' : Pc} (h : c.step B a p = some (p', a')) : Effect c a p p' a' := by
  cases p with
  | start =>
    cases h
    exact quiet_of_idle rfl (held_enter B c a)
  | loadAnchor =>
    cases hg : anchorGate a.lastTimeAnchorNs c.action (c.ctx.clock 0) with
    | some r =>
      simp only [Call.step, hg] at h
      cases h
      exact quiet_of_idle rfl (held_deny B c a (anchorGate_reason hg))
    | none =>
      simp only [Call.step, hg] at h
      cases h
      exact quiet_of_idle rfl (held_enterPolicy B c a)
  | loadFloor =>
    cases hg : floorGate a.recoveredFloor c.action with
    | some r =>
      simp only [Call.step, hg] at h
      cases h
      exact quiet_of_idle rfl (held_deny B c a (floorGate_reason hg))
    | none =>
      simp only [Call.step, hg] at h
      cases h
      exact quiet_of_idle rfl rfl
  | loadSequence =>
    simp only [Call.step] at h
    split at h
    · cases h
      exact quiet_of_idle rfl (held_deny B c a rfl)
    · cases h
      exact quiet_of_idle rfl rfl
  | casSequence e =>
    simp only [Call.step] at h
    split at h
    · rename_i he
      cases h
      exact .advance e he
    · cases h
      exact quiet_of_idle rfl (held_deny B c a rfl)
  | budget e stage =>
    have heff := stepBudget_effect c a e stage
    rw [Option.some.inj h] at heff
    exact heff
  | rollback e =>
    simp only [Call.step] at h
    by_cases he : a.sequenceNext = e + 1
    · simp only [if_pos he] at h
      cases h
      exact .reopen e _ rfl he
    · simp only [if_neg he] at h
      cases h
      exact .abandon e _ rfl he
  | charged =>
    cases h
    have hpast := approveAndEmit_pastBudget B a c
    exact .quiet (by simp [Call.held, passed, hpast]) (by simp [taken, passed, hpast])
      (by simp [passed, hpast])
  | done o => cases h

theorem effect_sequenceEnd {a a' : Authority} {p p' : Pc} (h : Effect c a p p' a') :
    a'.sequenceEnd = a.sequenceEnd := by
  cases h <;> rfl

theorem actionsRound_sound {sequenceEnd e : UInt64} (h : c.action.sequenceId = e ∧ e < sequenceEnd) (current : UInt32) :
    c.Sound sequenceEnd (actionsRound e current) := by
  unfold actionsRound
  split
  · exact h
  · rename_i hne
    exact ⟨h, hne⟩

theorem costRound_sound {sequenceEnd e : UInt64} (h : c.action.sequenceId = e ∧ e < sequenceEnd) (current : UInt64) :
    c.Sound sequenceEnd (c.costRound e current) := by
  unfold Call.costRound
  split
  · exact h
  · rename_i hge
    exact ⟨h, UInt64.not_lt.mp hge⟩

theorem stepBudget_sound {c : Call} {a : Authority} {sequenceEnd e : UInt64} {stage : BudgetPc}
    (h : c.Sound sequenceEnd (.budget e stage)) :
    c.Sound sequenceEnd (c.stepBudget a e stage).1 := by
  cases stage with
  | loadActions => exact actionsRound_sound h _
  | casActions current =>
    unfold Call.stepBudget
    by_cases hc : a.budgetRemainingActions = current
    · simp only [if_pos hc]
      exact h.1
    · simp only [if_neg hc]
      exact actionsRound_sound h.1 _
  | loadCost => exact costRound_sound h _
  | casCost current =>
    unfold Call.stepBudget
    by_cases hc : a.budgetRemainingCostUnits = current
    · simp only [if_pos hc]
      trivial
    · simp only [if_neg hc]
      exact costRound_sound h.1 _
  | refundAction => exact h

theorem sound_of_idle {sequenceEnd : UInt64} (h : c.held p = none) (hp : ∀ e, p ≠ .casSequence e) :
    c.Sound sequenceEnd p := by
  cases p with
  | casSequence e => exact absurd rfl (hp e)
  | budget e stage => cases h
  | rollback e => cases h
  | _ => trivial

theorem enterPolicy_ne_cas (c : Call) (a : Authority) (e : UInt64) :
    c.enterPolicy B a ≠ .casSequence e := by
  unfold Call.enterPolicy
  split <;> simp [Call.deny]

theorem enter_ne_cas (c : Call) (a : Authority) (e : UInt64) : c.enter B a ≠ .casSequence e := by
  unfold Call.enter
  split
  · simp
  · split
    · simp [Call.deny]
    · split
      · simp
      · exact enterPolicy_ne_cas B c a e

theorem step_sound {a a' : Authority} {p p' : Pc} (hs : c.Sound a.sequenceEnd p) (h : c.step B a p = some (p', a')) :
    c.Sound a.sequenceEnd p' := by
  cases p with
  | start =>
    cases h
    exact sound_of_idle (held_enter B c a) (enter_ne_cas B c a)
  | loadAnchor =>
    simp only [Call.step] at h
    split at h
    · cases h
      trivial
    · cases h
      exact sound_of_idle (held_enterPolicy B c a) (enterPolicy_ne_cas B c a)
  | loadFloor =>
    simp only [Call.step] at h
    split at h <;> cases h <;> trivial
  | loadSequence =>
    simp only [Call.step] at h
    split at h
    · cases h
      trivial
    · rename_i hseq
      obtain ⟨hne, hge⟩ := not_or.mp hseq
      cases h
      have heq : c.action.sequenceId = a.sequenceNext := not_not.mp hne
      exact ⟨heq, heq ▸ UInt64.not_le.mp hge⟩
  | casSequence e =>
    simp only [Call.step] at h
    split at h
    · cases h
      exact hs
    · cases h
      trivial
  | budget e stage =>
    have hb := stepBudget_sound (a := a) hs
    rw [Option.some.inj h] at hb
    exact hb
  | rollback e =>
    cases h
    trivial
  | charged =>
    cases h
    trivial
  | done o => cases h

theorem u32_pred_toNat {n : UInt32} (h : n ≠ 0) : (n - 1).toNat + 1 = n.toNat := by
  have hpos : 0 < n.toNat := by
    refine Nat.pos_of_ne_zero ?_
    intro h0
    exact h (UInt32.toNat_inj.mp h0)
  have hle : (1 : UInt32) ≤ n := UInt32.le_iff_toNat_le.mpr hpos
  rw [UInt32.toNat_sub_of_le _ _ hle, show (1 : UInt32).toNat = 1 from rfl]
  omega

theorem u32_succ_toNat {n : UInt32} (h : n.toNat + 1 < 2 ^ 32) : (n + 1).toNat = n.toNat + 1 := by
  rw [UInt32.toNat_add, show (1 : UInt32).toNat = 1 from rfl, Nat.mod_eq_of_lt h]

theorem u64_succ_toNat {n bound : UInt64} (h : n < bound) : (n + 1).toNat = n.toNat + 1 := by
  have hlt := UInt64.lt_iff_toNat_lt.mp h
  have hb := bound.toNat_lt
  rw [UInt64.toNat_add, show (1 : UInt64).toNat = 1 from rfl, Nat.mod_eq_of_lt (by omega)]

variable {ι : Type}

/-- All calls on one authority, each at its own program counter. -/
abbrev CheckWorld (ι : Type) := World ι Authority Pc

def initialWorld (authority : Authority) : CheckWorld ι := ⟨authority, fun _ => .start⟩

def nextStep (calls : ι → Call) (i : ι) (a : Authority) (p : Pc) : Option (Pc × Authority) :=
  (calls i).step B a p

/-- A sequence number below `sequence_next` has at most one holder and one at or above it has
none, so a late rollback can only reopen its own number. -/
structure SequenceInv (calls : ι → Call) (a₀ : Authority) (w : CheckWorld ι) : Prop where
  unique : ∀ i j e, (calls i).held (w.pc i) = some e → (calls j).held (w.pc j) = some e → i = j
  below : ∀ i e, (calls i).held (w.pc i) = some e →
    a₀.sequenceNext.toNat ≤ e.toNat ∧ e.toNat < w.shared.sequenceNext.toNat
  lower : a₀.sequenceNext.toNat ≤ w.shared.sequenceNext.toNat
  upper : w.shared.sequenceNext.toNat ≤ max a₀.sequenceNext.toNat a₀.sequenceEnd.toNat

variable [DecidableEq ι]

theorem held_move {calls : ι → Call} {w : CheckWorld ι} {i j : ι} {e : UInt64}
    (h : (calls j).held ((w.move i p a).pc j) = some e) :
    (j = i ∧ (calls i).held p = some e) ∨ (j ≠ i ∧ (calls j).held (w.pc j) = some e) := by
  by_cases hj : j = i
  · subst hj
    rw [w.move_pc_self] at h
    exact .inl ⟨rfl, h⟩
  · rw [w.move_pc_ne hj] at h
    exact .inr ⟨hj, h⟩

variable {a₀ : Authority}

theorem sequence_kept {calls : ι → Call} {w : CheckWorld ι} (hinv : SequenceInv calls a₀ w) {i : ι}
    (hnext : a.sequenceNext = w.shared.sequenceNext)
    (hkeep : ∀ e, (calls i).held p = some e → (calls i).held (w.pc i) = some e) :
    SequenceInv calls a₀ (w.move i p a) := by
  have hold : ∀ j e, (calls j).held ((w.move i p a).pc j) = some e →
      (calls j).held (w.pc j) = some e := by
    intro j e h
    obtain ⟨rfl, he⟩ | ⟨-, he⟩ := held_move h
    · exact hkeep e he
    · exact he
  refine ⟨?_, ?_, ?_, ?_⟩
  · intro j k e hj hk
    exact hinv.unique j k e (hold j e hj) (hold k e hk)
  · intro j e hj
    rw [World.move_shared, hnext]
    exact hinv.below j e (hold j e hj)
  · rw [World.move_shared, hnext]
    exact hinv.lower
  · rw [World.move_shared, hnext]
    exact hinv.upper

theorem sequence_advanced {calls : ι → Call} {w : CheckWorld ι} (hinv : SequenceInv calls a₀ w) {i : ι} {e : UInt64}
    (h : w.shared.sequenceNext = e) (hend : e < a₀.sequenceEnd) :
    SequenceInv calls a₀ (w.move i (.budget e .loadActions) (w.shared.storeSequence (e + 1))) := by
  have hsucc := u64_succ_toNat hend
  have hlt := UInt64.lt_iff_toNat_lt.mp hend
  have hlower := hinv.lower
  have hfree : ∀ j, (calls j).held (w.pc j) ≠ some e := by
    intro j hj
    have := (hinv.below j e hj).2
    rw [h] at this
    exact Nat.lt_irrefl _ this
  rw [h] at hlower
  refine ⟨?_, ?_, ?_, ?_⟩
  · intro j k f hj hk
    obtain ⟨rfl, hj'⟩ | ⟨-, hj'⟩ := held_move hj
    · obtain ⟨rfl, -⟩ | ⟨-, hk'⟩ := held_move hk
      · rfl
      · cases hj'
        exact absurd hk' (hfree k)
    · obtain ⟨rfl, hk'⟩ | ⟨-, hk'⟩ := held_move hk
      · cases hk'
        exact absurd hj' (hfree j)
      · exact hinv.unique j k f hj' hk'
  · intro j f hj
    rw [World.move_shared, Authority.storeSequence_sequence, hsucc]
    obtain ⟨rfl, hj⟩ | ⟨-, hj⟩ := held_move hj
    · cases hj
      exact ⟨hlower, Nat.lt_succ_self _⟩
    · have := hinv.below j f hj
      rw [h] at this
      exact ⟨this.1, Nat.lt_succ_of_lt this.2⟩
  · rw [World.move_shared, Authority.storeSequence_sequence, hsucc]
    omega
  · rw [World.move_shared, Authority.storeSequence_sequence, hsucc]
    omega

theorem sequence_reopened {calls : ι → Call} {w : CheckWorld ι} (hinv : SequenceInv calls a₀ w) {i : ι} {e : UInt64}
    (hi : (calls i).held (w.pc i) = some e) (hp : (calls i).held p = none) (h : w.shared.sequenceNext = e + 1)
    (hend : e < a₀.sequenceEnd) : SequenceInv calls a₀ (w.move i p (w.shared.storeSequence e)) := by
  have hsucc := u64_succ_toNat hend
  have hupper := hinv.upper
  have hbelow := hinv.below i e hi
  have hold : ∀ j f, (calls j).held ((w.move i p (w.shared.storeSequence e)).pc j) = some f →
      j ≠ i ∧ (calls j).held (w.pc j) = some f := by
    intro j f hj
    obtain ⟨-, hj⟩ | ⟨hne, hj⟩ := held_move hj
    · rw [hp] at hj
      cases hj
    · exact ⟨hne, hj⟩
  rw [h, hsucc] at hupper
  refine ⟨?_, ?_, ?_, ?_⟩
  · intro j k f hj hk
    exact hinv.unique j k f (hold j f hj).2 (hold k f hk).2
  · intro j f hj
    obtain ⟨hne, hj⟩ := hold j f hj
    have hb := hinv.below j f hj
    have hfe : f.toNat ≠ e.toNat := by
      intro heq
      rw [UInt64.toNat_inj.mp heq] at hj
      exact hne (hinv.unique j i e hj hi)
    rw [h, hsucc] at hb
    rw [World.move_shared, Authority.storeSequence_sequence]
    omega
  · rw [World.move_shared, Authority.storeSequence_sequence]
    exact hbelow.1
  · rw [World.move_shared, Authority.storeSequence_sequence]
    omega

theorem held_done {o : Outcome} (h : Outcome.pastBudget o = false) : c.held (.done o) = none := by
  simp [Call.held, passed, h]

variable [Fintype ι]

/-- What every interleaving keeps. -/
structure Inv (calls : ι → Call) (a₀ : Authority) (w : CheckWorld ι) : Prop
    extends SequenceInv calls a₀ w where
  window : w.shared.sequenceEnd = a₀.sequenceEnd
  sound : ∀ i, (calls i).Sound a₀.sequenceEnd (w.pc i)
  actions : w.shared.budgetRemainingActions.toNat + total (fun _ p => taken p) w =
    a₀.budgetRemainingActions.toNat
  cost : w.shared.budgetRemainingCostUnits.toNat + total (fun i p => (calls i).paid p) w =
    a₀.budgetRemainingCostUnits.toNat

theorem taken_of_passed (h : passed p = true) : taken p = 1 := by
  cases p <;> simp_all [taken, passed]

theorem held_of_passed (c : Call) (h : passed p = true) : c.held p = some c.action.sequenceId := by
  cases p <;> simp_all [Call.held, passed]

theorem taken_done {o : Outcome} (h : Outcome.pastBudget o = false) : taken (.done o) = 0 := by
  simp [taken, passed, h]

theorem actions_preserved {calls : ι → Call} {w : CheckWorld ι} (hinv : Inv calls a₀ w) {i : ι}
    (heff : Effect (calls i) w.shared (w.pc i) p a) :
    a.budgetRemainingActions.toNat + total (fun _ p => taken p) (w.move i p a) =
      a₀.budgetRemainingActions.toNat := by
  have hmove := total_move (fun _ p => taken p) w i p a
  have hshare := le_total (fun _ p => taken p) w i
  have hsum := hinv.actions
  have hsound := hinv.sound i
  generalize w.pc i = q at heff hmove hshare hsound
  cases heff with
  | quiet held ht paid => omega
  | advance e h =>
    have hq : taken (.casSequence e) = 0 := rfl
    have hp : taken (.budget e .loadActions) = 0 := rfl
    rw [Authority.storeSequence_actions]
    omega
  | take e current h =>
    have hpred := u32_pred_toNat hsound.2
    have hq : taken (.budget e (.casActions current)) = 0 := rfl
    have hp : taken (.budget e .loadCost) = 1 := rfl
    rw [Authority.storeActions_actions]
    rw [h] at hsum
    omega
  | pay e current h =>
    have hq : taken (.budget e (.casCost current)) = 1 := rfl
    have hp : taken .charged = 1 := rfl
    rw [Authority.storeCost_actions]
    omega
  | refund e =>
    have hlt := a₀.budgetRemainingActions.toNat_lt
    have hq : taken (.budget e .refundAction) = 1 := rfl
    have hp : taken (.rollback e) = 0 := rfl
    rw [Authority.storeActions_actions, u32_succ_toNat (by omega)]
    omega
  | reopen e r hr h =>
    have hq : taken (.rollback e) = 0 := rfl
    have hp := taken_done hr
    rw [Authority.storeSequence_actions]
    omega
  | abandon e r hr h =>
    have hq : taken (.rollback e) = 0 := rfl
    have hp := taken_done hr
    omega

theorem paid_of_not_passed (c : Call) (h : passed p = false) : c.paid p = 0 := by
  simp [Call.paid, h]

theorem cost_preserved {calls : ι → Call} {w : CheckWorld ι} (hinv : Inv calls a₀ w) {i : ι}
    (heff : Effect (calls i) w.shared (w.pc i) p a) :
    a.budgetRemainingCostUnits.toNat + total (fun i p => (calls i).paid p) (w.move i p a) =
      a₀.budgetRemainingCostUnits.toNat := by
  have hmove := total_move (fun i p => (calls i).paid p) w i p a
  have hsum := hinv.cost
  have hsound := hinv.sound i
  generalize w.pc i = q at heff hmove hsound
  cases heff with
  | quiet held ht paid =>
    have hpaid : (calls i).paid p = (calls i).paid q := by simp only [Call.paid, paid]
    omega
  | advance e h =>
    have hq := paid_of_not_passed (calls i) (p := .casSequence e) rfl
    have hp := paid_of_not_passed (calls i) (p := .budget e .loadActions) rfl
    rw [Authority.storeSequence_cost]
    omega
  | take e current h =>
    have hq := paid_of_not_passed (calls i) (p := .budget e (.casActions current)) rfl
    have hp := paid_of_not_passed (calls i) (p := .budget e .loadCost) rfl
    rw [Authority.storeActions_cost]
    omega
  | pay e current h =>
    have hle := UInt64.le_iff_toNat_le.mp hsound.2
    have hq := paid_of_not_passed (calls i) (p := .budget e (.casCost current)) rfl
    have hp : (calls i).paid .charged = (calls i).action.costUnits.toNat := rfl
    rw [UInt32.toNat_toUInt64] at hle
    rw [Authority.storeCost_cost, UInt64.toNat_sub_of_le _ _ hsound.2, UInt32.toNat_toUInt64]
    rw [h] at hsum
    omega
  | refund e =>
    have hq := paid_of_not_passed (calls i) (p := .budget e .refundAction) rfl
    have hp := paid_of_not_passed (calls i) (p := .rollback e) rfl
    rw [Authority.storeActions_cost]
    omega
  | reopen e r hr h =>
    have hq := paid_of_not_passed (calls i) (p := .rollback e) rfl
    have hp := paid_of_not_passed (calls i) (p := .done r) hr
    rw [Authority.storeSequence_cost]
    omega
  | abandon e r hr h =>
    have hq := paid_of_not_passed (calls i) (p := .rollback e) rfl
    have hp := paid_of_not_passed (calls i) (p := .done r) hr
    omega

theorem sequence_preserved {calls : ι → Call} {w : CheckWorld ι} (hinv : Inv calls a₀ w) {i : ι}
    (heff : Effect (calls i) w.shared (w.pc i) p a) : SequenceInv calls a₀ (w.move i p a) := by
  have hsound := hinv.sound i
  generalize hq : w.pc i = q at heff hsound
  cases heff with
  | quiet held ht paid => exact sequence_kept hinv.toSequenceInv rfl (fun e he => by rw [hq, ← held, he])
  | advance e h => exact sequence_advanced hinv.toSequenceInv h hsound.2
  | take e current h =>
    exact sequence_kept hinv.toSequenceInv rfl (fun f hf => by rw [hq]; exact hf)
  | pay e current h =>
    refine sequence_kept hinv.toSequenceInv rfl ?_
    intro f hf
    rw [hq]
    exact congrArg some (hsound.1.1.symm.trans (Option.some.inj hf))
  | refund e => exact sequence_kept hinv.toSequenceInv rfl (fun f hf => by rw [hq]; exact hf)
  | reopen e r hr h =>
    exact sequence_reopened hinv.toSequenceInv (by rw [hq]; rfl) (held_done hr) h hsound.2
  | abandon e r hr h =>
    refine sequence_kept hinv.toSequenceInv rfl ?_
    intro f hf
    rw [held_done hr] at hf
    cases hf

/-- One atomic step of any call keeps the invariant. -/
theorem inv_step {calls : ι → Call} {w : CheckWorld ι} (hinv : Inv calls a₀ w) {i : ι}
    (h : nextStep B calls i w.shared (w.pc i) = some (p, a)) : Inv calls a₀ (w.move i p a) := by
  have heff := step_effect B h
  refine ⟨sequence_preserved hinv heff, ?_, ?_, actions_preserved hinv heff,
    cost_preserved hinv heff⟩
  · rw [World.move_shared, effect_sequenceEnd heff, hinv.window]
  · intro j
    by_cases hj : j = i
    · subst hj
      have hs := hinv.sound j
      rw [← hinv.window] at hs ⊢
      rw [w.move_pc_self]
      exact step_sound B hs h
    · rw [w.move_pc_ne hj]
      exact hinv.sound j

omit [DecidableEq ι] in
theorem inv_initial (calls : ι → Call) (a₀ : Authority) : Inv calls a₀ (initialWorld a₀) where
  unique _ _ _ h := by cases h
  below _ _ h := by cases h
  lower := Nat.le_refl _
  upper := Nat.le_max_left _ _
  window := rfl
  sound _ := trivial
  actions := by simp [initialWorld, total, taken, passed]
  cost := by simp [initialWorld, total, Call.paid, passed]

/-- Over every interleaving of any number of calls: no two calls past step 11 carry the same
sequence number, their number and their cost stay within the initial counters, each counter
is the initial one less what is taken from it, so it never wraps, and `sequence_next` stays
between its initial value and the end of the window. -/
theorem concurrent_checks (calls : ι → Call) (a₀ : Authority) (w : CheckWorld ι)
    (h : Reachable (nextStep B calls) (initialWorld a₀) w) :
    (∀ i j, passed (w.pc i) = true → passed (w.pc j) = true →
      (calls i).action.sequenceId = (calls j).action.sequenceId → i = j) ∧
    (Finset.univ.filter (fun i => passed (w.pc i) = true)).card ≤
      a₀.budgetRemainingActions.toNat ∧
    ∑ i with passed (w.pc i) = true, (calls i).action.costUnits.toNat ≤
      a₀.budgetRemainingCostUnits.toNat ∧
    w.shared.budgetRemainingActions.toNat + total (fun _ p => taken p) w =
      a₀.budgetRemainingActions.toNat ∧
    w.shared.budgetRemainingCostUnits.toNat +
      ∑ i with passed (w.pc i) = true, (calls i).action.costUnits.toNat =
      a₀.budgetRemainingCostUnits.toNat ∧
    a₀.sequenceNext.toNat ≤ w.shared.sequenceNext.toNat ∧
    w.shared.sequenceNext.toNat ≤ max a₀.sequenceNext.toNat a₀.sequenceEnd.toNat := by
  have hinv : Inv calls a₀ w :=
    h.invariant (Inv calls a₀) (inv_initial calls a₀) (fun _ _ _ _ hw hs => inv_step B hw hs)
  have hpaid : total (fun i p => (calls i).paid p) w =
      ∑ i with passed (w.pc i) = true, (calls i).action.costUnits.toNat := by
    rw [Finset.sum_filter]
    rfl
  have hcount : (Finset.univ.filter (fun i => passed (w.pc i) = true)).card ≤
      total (fun _ p => taken p) w := by
    rw [Finset.card_filter]
    refine Finset.sum_le_sum ?_
    intro i _
    split
    · rename_i hp
      exact (taken_of_passed hp).ge
    · exact Nat.zero_le _
  have hactions := hinv.actions
  have hcost := hinv.cost
  rw [hpaid] at hcost
  refine ⟨?_, by omega, by omega, hactions, hcost, hinv.lower, hinv.upper⟩
  intro i j hi hj heq
  refine hinv.unique i j (calls i).action.sequenceId (held_of_passed _ hi) ?_
  rw [heq]
  exact held_of_passed _ hj

def raceCalls (_ : Fin 2) : Call := ⟨readAction, { fullSinkContext with receiptSink := nullSink }⟩

/-- Both load `sequence_next`, then the first takes the number and pays. -/
def raceWorld : CheckWorld (Fin 2) :=
  runSchedule (nextStep readDigests raceCalls) [0, 1, 0, 1, 0, 1, 0, 0, 0, 0, 0]
    (initialWorld readAuthority)

theorem concurrent_checks_race :
    passed (raceWorld.pc 0) = true ∧
    (∀ i j, passed (raceWorld.pc i) = true → passed (raceWorld.pc j) = true → i = j) ∧
    (Finset.univ.filter (fun i => passed (raceWorld.pc i) = true)).card ≤ 4 := by
  have hrun := concurrent_checks readDigests raceCalls readAuthority raceWorld
    (reachable_runSchedule _ _ _)
  exact ⟨by decide, fun i j hi hj => hrun.1 i j hi hj rfl, hrun.2.1⟩

end AgentPassport.CheckInterleaving
