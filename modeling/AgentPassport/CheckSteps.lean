import AgentPassport.CompiledAuthority

/-! The hot-path check of one action, in the order of its steps, for a caller that has
the authority to itself. -/
namespace AgentPassport.CheckSteps
open ByteBlocks DecisionRecord ActionRecord CompiledAuthority

inductive ReceiptError where
  | bufferFull | logWriteFailed | shutdownInProgress
  deriving DecidableEq

structure EmitOutcome where
  batchId : Option UInt64
  deriving DecidableEq

/-- `clock n` is the reading the `n`-th look at the clock during the call returns. -/
structure VerifierContext where
  clock : Nat → UInt64
  verifierInstanceIdHash : Block 32
  attestedTier : Tier
  revocationEpoch : UInt32
  receiptSink : Decision → Except ReceiptError EmitOutcome

def nullSink (_ : Decision) : Except ReceiptError EmitOutcome := .ok ⟨none⟩

def r3MaxAnchorAgeNs : UInt64 := 30 * 1000000000

def saturatingAdd (a b : UInt64) : UInt64 :=
  if a.toNat + b.toNat < 2 ^ 64 then a + b else UInt64.ofNat (2 ^ 64 - 1)

def saturatingSub (a b : UInt64) : UInt64 := if b ≤ a then a - b else 0

theorem saturatingAdd_toNat (a b : UInt64) :
    (saturatingAdd a b).toNat = min (a.toNat + b.toNat) (2 ^ 64 - 1) := by
  unfold saturatingAdd
  split
  · rename_i h
    rw [UInt64.toNat_add, Nat.mod_eq_of_lt h]
    omega
  · rw [UInt64.toNat_ofNat_of_lt' (by decide)]
    omega

theorem saturatingSub_toNat (a b : UInt64) :
    (saturatingSub a b).toNat = a.toNat - b.toNat := by
  unfold saturatingSub
  split
  · rename_i h
    exact UInt64.toNat_sub_of_le _ _ h
  · rename_i h
    have : a.toNat < b.toNat := UInt64.lt_iff_toNat_lt.mp (UInt64.not_le.mp h)
    rw [show a.toNat - b.toNat = 0 by omega]
    rfl

variable (B : Blake3)

/-- Steps 0 and 1: integrity and instance binding, before the clock is read. -/
def bindingGate (authority : Authority) (action : ActionDescriptor) (ctx : VerifierContext) :
    Option ReasonCode :=
  if !action.verifyActionHash B then some .actionHashInvalid
  else if authority.verifierInstanceIdHash ≠ ctx.verifierInstanceIdHash then
    some .verifierInstanceMismatch
  else none

def temporalGate (authority : Authority) (now : UInt64) : Option ReasonCode :=
  if now > saturatingAdd authority.expiresAtUnixNs authority.maxClockSkewNs then
    some .expiredPassport
  else if now < saturatingSub authority.issuedAtUnixNs authority.maxClockSkewNs then
    some .notYetValid
  else none

/-- Step 3: freshness of the loaded time anchor, from risk class 3 on. -/
def anchorGate (anchor : UInt64) (action : ActionDescriptor) (now : UInt64) :
    Option ReasonCode :=
  if action.riskClass ≥ 3 ∧ saturatingSub now anchor > r3MaxAnchorAgeNs then
    some .clockAnchorStale
  else none

def pathOf (action : ActionDescriptor) : List UInt64 :=
  action.resourcePathHashes.slots.take (min action.resourcePathDepth.toNat 8)

def trieMatch (authority : Authority) (action : ActionDescriptor) : Bool :=
  match authority.resourceTrie with
  | some trie => trie.matches (pathOf action)
  | none => false

/-- Steps 4 to 9: none of them reads a cell that another call could change. -/
def policyGate (authority : Authority) (action : ActionDescriptor) (ctx : VerifierContext) :
    Option ReasonCode :=
  if ctx.revocationEpoch < authority.revocationEpoch then some .staleRevocationEpoch
  else if ctx.attestedTier.toU8 < authority.minimumTierRequired then some .riskTierTooLow
  else if action.riskClass > authority.riskClass then some .riskClassExceeded
  else if action.riskClass ≥ 4 then some .strictModeRequired
  else if authority.toolRegistry.getById action.localToolId ≠ some action.toolDescriptorHash then
    some .registryVersionMismatch
  else if action.localToolId.toNat ≥ authority.allowedToolBitmap.capacity ∨
      !authority.allowedToolBitmap.get action.localToolId then some .toolNotAllowed
  else if action.operationId ≥ 32 ∨
      authority.allowedOpMask &&& (1 <<< action.operationId.toUInt32) = 0 then
    some .operationNotAllowed
  else if !trieMatch authority action then some .resourceOutOfScope
  else none

/-- Step 10a: the loaded recovery floor; 0 switches the gate off. -/
def floorGate (floor : UInt64) (action : ActionDescriptor) : Option ReasonCode :=
  if floor > 0 ∧ action.sequenceId ≤ floor then some .sequenceRecoveryInvalid else none

/-- Step 12: the first rule that matches decides. -/
def approvalGate (authority : Authority) (action : ActionDescriptor) :
    Option (DecisionType × ReasonCode) :=
  (authority.approvalRules.find? (·.matches action)).map (fun rule =>
    match rule.onMatch with
    | .escalate => (.escalate, .approvalRequired)
    | .deny => (.deny, .deniedByRule))

/-- Steps 2 to 10a, with the anchor and the floor the authority holds now. -/
def preSequenceGates (authority : Authority) (action : ActionDescriptor) (ctx : VerifierContext)
    (now : UInt64) : Option ReasonCode :=
  temporalGate authority now <|> anchorGate authority.lastTimeAnchorNs action now <|>
    policyGate authority action ctx <|> floorGate authority.recoveredFloor action

/-- With one caller each compare-exchange meets the value just loaded, so both retry
loops end in their first round. -/
def tryDecrementBudget (authority : Authority) (costUnits : UInt32) : Bool × Authority :=
  let currentActions := authority.budgetRemainingActions
  if currentActions = 0 then (false, authority)
  else
    let taken := authority.storeActions (currentActions - 1)
    let cost := costUnits.toUInt64
    let currentCost := taken.budgetRemainingCostUnits
    if currentCost < cost then
      (false, taken.storeActions (taken.budgetRemainingActions + 1))
    else (true, taken.storeCost (currentCost - cost))

def finalize (authority : Authority) (action : ActionDescriptor) (timestampNs : UInt64)
    (t : DecisionType) (r : ReasonCode) : Decision :=
  let decision : Decision := {
    decisionType := t
    reasonCode := r
    reserved := Block.zero 6
    sequenceId := action.sequenceId
    decisionId := deriveDecisionId B authority.passportIdHash action.actionHash t r
    eventMac := Block.zero 32
    timestampUnixNs := timestampNs }
  decision.finalizeMac B authority.receiptStreamKey authority.passportIdHash action.actionHash
    timestampNs

/-- A call returns a decision, or panics because the receipt sink refused it. -/
inductive Outcome where
  | decided (decision : Decision)
  | panicked (error : ReceiptError)
  deriving DecidableEq

/-- Step 13: the decision is returned only once the sink has taken it. -/
def emitAllow (ctx : VerifierContext) (decision : Decision) : Outcome :=
  match ctx.receiptSink decision with
  | .ok _ => .decided decision
  | .error e => .panicked e

/-- Steps 12 and 13: a matching rule decides, otherwise the sink has the last word. -/
def approveAndEmit (authority : Authority) (action : ActionDescriptor)
    (ctx : VerifierContext) : Outcome :=
  match approvalGate authority action with
  | some (t, r) => .decided (finalize B authority action (ctx.clock 1) t r)
  | none => emitAllow ctx (finalize B authority action (ctx.clock 1) .allow .ok)

def apsCheck (authority : Authority) (action : ActionDescriptor) (ctx : VerifierContext) :
    Outcome × Authority :=
  match bindingGate B authority action ctx with
  | some r => (.decided (finalize B authority action (ctx.clock 0) .deny r), authority)
  | none =>
    let now := ctx.clock 0
    let decide (t : DecisionType) (r : ReasonCode) := finalize B authority action (ctx.clock 1) t r
    match preSequenceGates authority action ctx now with
    | some r => (.decided (decide .deny r), authority)
    | none =>
      let expected := authority.sequenceNext
      if action.sequenceId ≠ expected ∨ action.sequenceId ≥ authority.sequenceEnd then
        (.decided (decide .deny .sequenceReplay), authority)
      else
        let advanced := authority.storeSequence (expected + 1)
        match tryDecrementBudget advanced action.costUnits with
        | (false, held) =>
          let restored := if held.sequenceNext = expected + 1
            then held.storeSequence expected else held
          (.decided (decide .deny .budgetExceeded), restored)
        | (true, charged) => (approveAndEmit B charged action ctx, charged)

end AgentPassport.CheckSteps
