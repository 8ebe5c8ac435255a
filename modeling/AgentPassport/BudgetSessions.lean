import AgentPassport.RecoveryWindow

/-! Sessions of one verifier with crashes in between. Checks are submitted one after the
other; the sink is the blocking group commit, which returns once the entry is in the log. -/
namespace AgentPassport.BudgetSessions
open ByteBlocks DecisionRecord ReceiptLog ActionRecord ToolRegistry CompiledAuthority CheckSteps
open CheckConditions RecoveryWindow

structure Session where
  authority : Authority
  writer : LogWriter
  allowed : Nat
  cost : Nat

/-- `allowed` and `cost` count the Allow decisions returned by all sessions so far. -/
structure Run where
  log : Option (List UInt8)
  session : Option Session
  restarts : Nat
  allowed : Nat
  cost : Nat

inductive Event where
  | restart
  | check (action : ActionDescriptor) (ctx : VerifierContext)
  /-- The process dies; `torn` is what an interrupted append left in the file. -/
  | crash (torn : List UInt8)

def Run.start : Run := ⟨none, none, 0, 0, 0⟩

variable (B : Blake3) (passport : RuntimePassport) (registry : Registry) (macKey : Block 32)

/-- Recovery, then the suffix it found corrupt is discarded and the log opened for append. -/
def openSession (log : Option (List UInt8)) : Option Session :=
  match fromPassportWithRecovery B passport registry log macKey with
  | .error _ => none
  | .ok (authority, report) =>
    match LogWriter.openLog B (log.map (·.take report.validThroughOffset)) macKey with
    | .error _ => none
    | .ok writer => some ⟨authority, writer, 0, 0⟩

def allowCount : Outcome → Nat
  | .decided d => if d.decisionType = .allow then 1 else 0
  | .panicked _ => 0

/-- The log after a check: an Allow is appended before it is returned. -/
def commit (writer : LogWriter) : Outcome → LogWriter
  | .decided d => if d.decisionType = .allow then writer.append B d else writer
  | .panicked _ => writer

def Session.check (s : Session) (action : ActionDescriptor) (ctx : VerifierContext) :
    Session × Nat :=
  let (outcome, authority) := apsCheck B s.authority action ctx
  let count := allowCount outcome
  (⟨authority, commit B s.writer outcome, s.allowed + count,
    s.cost + count * action.costUnits.toNat⟩, count)

def Run.step (r : Run) : Event → Run
  | .restart =>
    match r.session with
    | some _ => r
    | none =>
      match openSession B passport registry macKey r.log with
      | none => r
      | some s => { r with
          log := some s.writer.file
          session := some s
          restarts := r.restarts + 1 }
  | .check action ctx =>
    match r.session with
    | none => r
    | some s =>
      let (s', count) := s.check B action ctx
      { r with
        log := some s'.writer.file
        session := some s'
        allowed := r.allowed + count
        cost := r.cost + count * action.costUnits.toNat }
  | .crash torn =>
    match r.session with
    | none => r
    | some s => { r with log := some (s.writer.file ++ torn), session := none }

def Run.after (r : Run) (events : List Event) : Run :=
  events.foldl (Run.step B passport registry macKey) r

theorem allowCount_approveAndEmit_le (authority : Authority) (action : ActionDescriptor)
    (ctx : VerifierContext) : allowCount (approveAndEmit B authority action ctx) ≤ 1 := by
  cases approveAndEmit B authority action ctx with
  | decided d =>
    change (if d.decisionType = .allow then 1 else 0) ≤ 1
    split
    · exact Nat.le_refl 1
    · exact Nat.zero_le 1
  | panicked e => exact Nat.zero_le 1

theorem apsCheck_spends (authority : Authority) (action : ActionDescriptor)
    (ctx : VerifierContext) :
    (apsCheck B authority action ctx).2.budgetRemainingActions.toNat +
        allowCount (apsCheck B authority action ctx).1 ≤
      authority.budgetRemainingActions.toNat ∧
    (apsCheck B authority action ctx).2.budgetRemainingCostUnits.toNat +
        allowCount (apsCheck B authority action ctx).1 * action.costUnits.toNat ≤
      authority.budgetRemainingCostUnits.toNat := by
  by_cases hadm : Admissible B authority action ctx
  · have hc := charge_charged B hadm
    have hactions := hc.actions
    have hcost := hc.cost
    have hle := allowCount_approveAndEmit_le B authority action ctx
    have hmul := Nat.mul_le_mul_right action.costUnits.toNat hle
    rw [apsCheck_admissible B hadm]
    dsimp only
    constructor
    · omega
    · omega
  · obtain ⟨r, ts, -, hout⟩ := apsCheck_refused B hadm
    have h0 : allowCount (.decided (finalize B authority action ts .deny r)) = 0 := rfl
    rw [hout]
    dsimp only
    rw [h0]
    omega

theorem openSession_lease {log : Option (List UInt8)} {s : Session}
    (h : openSession B passport registry macKey log = some s) :
    s.authority.budgetRemainingActions = leaseActions passport.budgetLease.maxActions ∧
    s.authority.budgetRemainingCostUnits = passport.budgetLease.maxCostUnits ∧
    s.allowed = 0 ∧ s.cost = 0 := by
  unfold openSession at h
  cases hrec : fromPassportWithRecovery B passport registry log macKey with
  | error e =>
    rw [hrec] at h
    cases h
  | ok result =>
    obtain ⟨authority, report⟩ := result
    obtain ⟨-, base, hbase, hcase⟩ := fromPassportWithRecovery_ok B macKey hrec
    obtain ⟨-, -, -, hactions, hcost⟩ := fromPassport_fields B hbase
    simp only [hrec] at h
    split at h
    · cases h
    · cases h
      obtain ⟨-, rfl⟩ | ⟨-, -, -, rfl⟩ := hcase
      · exact ⟨hactions, hcost, rfl, rfl⟩
      · exact ⟨hactions, hcost, rfl, rfl⟩

theorem leaseActions_le (n : UInt64) : (leaseActions n).toNat ≤ n.toNat := by
  unfold leaseActions
  split
  · rename_i h
    rw [UInt64.toNat_toUInt32]
    exact Nat.mod_le _ _
  · rw [UInt32.toNat_ofNat_of_lt' (by decide)]
    omega

/-- What one lease allows, for `n` sessions. -/
structure Within (n : Nat) (r : Run) : Prop where
  session : ∀ s, r.session = some s →
    s.allowed + s.authority.budgetRemainingActions.toNat ≤ passport.budgetLease.maxActions.toNat ∧
    s.cost + s.authority.budgetRemainingCostUnits.toNat ≤
      passport.budgetLease.maxCostUnits.toNat ∧
    r.allowed + s.authority.budgetRemainingActions.toNat ≤
      n * passport.budgetLease.maxActions.toNat ∧
    r.cost + s.authority.budgetRemainingCostUnits.toNat ≤
      n * passport.budgetLease.maxCostUnits.toNat
  allowed : r.allowed ≤ n * passport.budgetLease.maxActions.toNat
  cost : r.cost ≤ n * passport.budgetLease.maxCostUnits.toNat

variable {r : Run}

theorem restart_within (h : Within passport r.restarts r) :
    Within passport (r.step B passport registry macKey .restart).restarts
      (r.step B passport registry macKey .restart) := by
  unfold Run.step
  cases hs : r.session with
  | some s => exact h
  | none =>
    cases ho : openSession B passport registry macKey r.log with
    | none => simpa only [hs, ho] using h
    | some s =>
      obtain ⟨hactions, hcost, ha, hc⟩ := openSession_lease B passport registry macKey ho
      have hlease := leaseActions_le passport.budgetLease.maxActions
      have hra := h.allowed
      have hrc := h.cost
      have hma := Nat.succ_mul r.restarts passport.budgetLease.maxActions.toNat
      have hmc := Nat.succ_mul r.restarts passport.budgetLease.maxCostUnits.toNat
      refine ⟨?_, ?_, ?_⟩
      · intro s' hs'
        cases hs'
        rw [hactions, hcost, ha, hc]
        refine ⟨by omega, by omega, ?_, ?_⟩ <;> simp only [Nat.succ_eq_add_one] at * <;> omega
      · simp only [Nat.succ_eq_add_one] at *
        omega
      · simp only [Nat.succ_eq_add_one] at *
        omega

theorem check_within (h : Within passport r.restarts r) (action : ActionDescriptor) (ctx : VerifierContext) :
    Within passport (r.step B passport registry macKey (.check action ctx)).restarts
      (r.step B passport registry macKey (.check action ctx)) := by
  unfold Run.step
  cases hs : r.session with
  | none => simpa only [hs] using h
  | some s =>
    obtain ⟨hsa, hsc, hra, hrc⟩ := h.session s hs
    obtain ⟨ha, hc⟩ := apsCheck_spends B s.authority action ctx
    simp only [Session.check]
    generalize apsCheck B s.authority action ctx = result at ha hc ⊢
    obtain ⟨outcome, authority⟩ := result
    dsimp only at ha hc ⊢
    refine ⟨?_, ?_, ?_⟩
    · intro s' hs'
      cases hs'
      dsimp only
      omega
    · dsimp only
      omega
    · dsimp only
      omega

theorem crash_within (h : Within passport r.restarts r) (torn : List UInt8) :
    Within passport (r.step B passport registry macKey (.crash torn)).restarts
      (r.step B passport registry macKey (.crash torn)) := by
  unfold Run.step
  cases hs : r.session with
  | none => simpa only [hs] using h
  | some s =>
    refine ⟨?_, h.allowed, h.cost⟩
    intro s' hs'
    cases hs'

theorem run_within (events : List Event) (h : Within passport r.restarts r) :
    Within passport (r.after B passport registry macKey events).restarts
      (r.after B passport registry macKey events) := by
  induction events generalizing r with
  | nil => exact h
  | cons e events ih =>
    refine ih ?_
    cases e with
    | restart => exact restart_within B passport registry macKey h
    | check action ctx => exact check_within B passport registry macKey h action ctx
    | crash torn => exact crash_within B passport registry macKey h torn

/-- The lease binds each session. A restart grants it anew in full, so over a run it binds
only through the number of restarts. -/
theorem lease_per_session (events : List Event) :
    let r := Run.start.after B passport registry macKey events
    (∀ s, r.session = some s →
      s.allowed ≤ passport.budgetLease.maxActions.toNat ∧
      s.cost ≤ passport.budgetLease.maxCostUnits.toNat) ∧
    r.allowed ≤ r.restarts * passport.budgetLease.maxActions.toNat ∧
    r.cost ≤ r.restarts * passport.budgetLease.maxCostUnits.toNat ∧
    (∀ log s, openSession B passport registry macKey log = some s →
      s.authority.budgetRemainingActions = leaseActions passport.budgetLease.maxActions ∧
      s.authority.budgetRemainingCostUnits = passport.budgetLease.maxCostUnits) := by
  intro r
  have hstart : Within passport Run.start.restarts Run.start := by
    refine ⟨?_, Nat.zero_le _, Nat.zero_le _⟩
    intro s hs
    cases hs
  have h := run_within B passport registry macKey events hstart
  refine ⟨?_, h.allowed, h.cost, ?_⟩
  · intro s hs
    obtain ⟨ha, hc, -, -⟩ := h.session s hs
    exact ⟨by omega, by omega⟩
  · intro log s hs
    obtain ⟨ha, hc, -, -⟩ := openSession_lease B passport registry macKey hs
    exact ⟨ha, hc⟩

/-- The reads numbered 1000 and 1001 under `leasePassport`. -/
def firstRead : ActionDescriptor :=
  { readAction with
    sequenceId := 1000
    actionHash := leBlock 32 0x3ef1e72d989a39a99601234ef9219bf7b07d12c905dff1c8b377b15a5dbf4f29 }

def secondRead : ActionDescriptor :=
  { readAction with
    sequenceId := 1001
    actionHash := leBlock 32 0xf09ae19991540ac141172a167a355549b1295984a8a2c01c073b42ee6c8f80c8 }

def committingContext : VerifierContext where
  clock _ := 1767225610000000000
  verifierInstanceIdHash := readAuthority.verifierInstanceIdHash
  attestedTier := .t2
  revocationEpoch := 3
  receiptSink := nullSink

def secondDecision : Decision :=
  { firstDecision with
    sequenceId := 1001
    decisionId := leBlock 16 0x7e03a8a76e6bf03b403f6ceedc89f5c9
    eventMac := leBlock 32 0x432bb499fef7163e8bd624c874209fc7a846d6141d59802bd3e7033632fc2269 }

def allowEvent (action : ActionDescriptor) (d : Decision) : List UInt8 :=
  packCanonicalEvent d action.passportIdHash action.actionHash d.timestampUnixNs

def allowIdInput (action : ActionDescriptor) : List UInt8 :=
  action.passportIdHash.bytes ++ action.actionHash.bytes ++ [0, 0]

def firstRollingMac : Block 32 :=
  leBlock 32 0x4a3b07e721b71c31f97af15a0de6e1424259ac94953081245d9377bdbeb72911

/-- The BLAKE3 digests two allowed reads ask for, with the rolling MACs of the log they are written to. -/
def twoReadDigests (rollingMacs : List ((Block 32 × List UInt8) × Block 32)) : Blake3 :=
  .ofTable
    (compileDigests ++
      [(firstRead.hashedBytes, firstRead.actionHash),
       (secondRead.hashedBytes, secondRead.actionHash)])
    ([((Block.zero 32, allowEvent firstRead firstDecision), firstDecision.eventMac),
     ((Block.zero 32, allowEvent secondRead secondDecision), secondDecision.eventMac)] ++ rollingMacs)
    [((decisionIdContext, allowIdInput firstRead), firstDecision.decisionId),
     ((decisionIdContext, allowIdInput secondRead), secondDecision.decisionId)]

def sessionDigests : Blake3 :=
  twoReadDigests
    [((Block.zero 32, (Block.zero 32).bytes ++ firstDecision.toBytes.bytes), firstRollingMac),
     ((Block.zero 32, firstRollingMac.bytes ++ secondDecision.toBytes.bytes),
      leBlock 32 0x7decb0aba6d4915068ab04c7c6b8fe987f0de3b5fab8715e4033ba613d67a354)]

set_option maxRecDepth 20000 in
/-- One action is leased; a crash between two sessions lets two through. -/
theorem two_sessions_overspend :
    let r := Run.start.after sessionDigests leasePassport leaseRegistry (Block.zero 32)
      [.restart, .check firstRead committingContext, .crash [], .restart,
        .check secondRead committingContext]
    leasePassport.budgetLease.maxActions.toNat = 1 ∧ r.allowed = 2 ∧
      leasePassport.budgetLease.maxCostUnits.toNat = 5 ∧ r.cost = 10 := by
  decide

end AgentPassport.BudgetSessions
