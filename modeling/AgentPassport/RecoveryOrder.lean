import AgentPassport.BudgetSessions

/-! What recovery tells of a log whose entries are not in the order of their numbers. -/
namespace AgentPassport.RecoveryOrder
open ByteBlocks DecisionRecord ReceiptLog ToolRegistry CompiledAuthority CheckSteps CheckInterleaving
open Interleaving RecoveryWindow BudgetSessions

def Denied (o : Outcome) : Prop := ∃ d, o = .decided d ∧ d.decisionType = .deny

section
variable (B : Blake3)

variable {o : Outcome}

theorem deny_denied (c : Call) (a : Authority) (r : ReasonCode) (h : c.deny B a r = .done o) : Denied o := by
  rw [Call.deny, Pc.done.injEq] at h
  exact ⟨_, h.symm, rfl⟩

theorem enterPolicy_denied (c : Call) (a : Authority) (h : c.enterPolicy B a = .done o) : Denied o := by
  rw [Call.enterPolicy] at h
  cases hgate : policyGate a c.action c.ctx with
  | some r =>
    rw [hgate] at h
    exact deny_denied B c a r h
  | none =>
    rw [hgate] at h
    cases h

theorem enter_denied (c : Call) (a : Authority) (h : c.enter B a = .done o) : Denied o := by
  rw [Call.enter] at h
  cases hbinding : bindingGate B a c.action c.ctx with
  | some r =>
    rw [hbinding] at h
    exact ⟨_, (Pc.done.inj h).symm, rfl⟩
  | none =>
    rw [hbinding] at h
    cases htemporal : temporalGate a (c.ctx.clock 0) with
    | some r =>
      rw [htemporal] at h
      exact deny_denied B c a r h
    | none =>
      rw [htemporal] at h
      by_cases hrisk : c.action.riskClass ≥ 3
      · simp only [if_pos hrisk] at h
        cases h
      · simp only [if_neg hrisk] at h
        exact enterPolicy_denied B c a h

theorem actionsRound_not_done (e : UInt64) (current : UInt32) (o : Outcome) : actionsRound e current ≠ .done o := by
  rw [actionsRound]
  by_cases h : current = 0
  · rw [if_pos h]
    exact fun h => by cases h
  · rw [if_neg h]
    exact fun h => by cases h

theorem costRound_not_done (c : Call) (e current : UInt64) (o : Outcome) : c.costRound e current ≠ .done o := by
  rw [Call.costRound]
  by_cases h : current < c.action.costUnits.toUInt64
  · rw [if_pos h]
    exact fun h => by cases h
  · rw [if_neg h]
    exact fun h => by cases h

theorem stepBudget_not_done (c : Call) (a : Authority) (e : UInt64) (stage : BudgetPc) (o : Outcome) :
    (c.stepBudget a e stage).1 ≠ .done o := by
  cases stage with
  | loadActions => exact actionsRound_not_done e _ o
  | casActions current =>
    rw [Call.stepBudget]
    by_cases h : a.budgetRemainingActions = current
    · rw [if_pos h]
      exact fun h => by cases h
    · rw [if_neg h]
      exact actionsRound_not_done e _ o
  | loadCost => exact costRound_not_done c e _ o
  | casCost current =>
    rw [Call.stepBudget]
    by_cases h : a.budgetRemainingCostUnits = current
    · rw [if_pos h]
      exact fun h => by cases h
    · rw [if_neg h]
      exact costRound_not_done c e _ o
  | refundAction => exact fun h => by cases h

theorem step_done {c : Call} {a a' : Authority} {p : Pc} (h : c.step B a p = some (.done o, a')) :
    Outcome.pastBudget o = true ∨ Denied o := by
  cases p with
  | start => exact .inr (enter_denied B c a (Prod.mk.inj (Option.some.inj h)).1)
  | loadAnchor =>
    cases hgate : anchorGate a.lastTimeAnchorNs c.action (c.ctx.clock 0) with
    | some r =>
      simp only [Call.step, hgate, Option.some.injEq, Prod.mk.injEq] at h
      exact .inr (deny_denied B c a r h.1)
    | none =>
      simp only [Call.step, hgate, Option.some.injEq, Prod.mk.injEq] at h
      exact .inr (enterPolicy_denied B c a h.1)
  | loadFloor =>
    cases hgate : floorGate a.recoveredFloor c.action with
    | some r =>
      simp only [Call.step, hgate, Option.some.injEq, Prod.mk.injEq] at h
      exact .inr (deny_denied B c a r h.1)
    | none =>
      simp only [Call.step, hgate, Option.some.injEq, Prod.mk.injEq] at h
      cases h.1
  | loadSequence =>
    by_cases hreplay : c.action.sequenceId ≠ a.sequenceNext ∨ c.action.sequenceId ≥ a.sequenceEnd
    · simp only [Call.step, if_pos hreplay, Option.some.injEq, Prod.mk.injEq] at h
      exact .inr (deny_denied B c a _ h.1)
    · simp only [Call.step, if_neg hreplay, Option.some.injEq, Prod.mk.injEq] at h
      cases h.1
  | casSequence e =>
    by_cases hcas : a.sequenceNext = e
    · simp only [Call.step, if_pos hcas, Option.some.injEq, Prod.mk.injEq] at h
      cases h.1
    · simp only [Call.step, if_neg hcas, Option.some.injEq, Prod.mk.injEq] at h
      exact .inr (deny_denied B c a _ h.1)
  | budget e stage => exact absurd (congrArg Prod.fst (Option.some.inj h)) (stepBudget_not_done c a e stage o)
  | rollback e => exact .inr (deny_denied B c a _ (Prod.mk.inj (Option.some.inj h)).1)
  | charged =>
    have hout := Pc.done.inj (Prod.mk.inj (Option.some.inj h)).1
    exact .inl (hout ▸ approveAndEmit_pastBudget B a c)
  | done o' => cases h

variable {ι : Type} [DecidableEq ι]

theorem run_done {calls : ι → Call} {a₀ : Authority} {w : CheckWorld ι}
    (hw : Reachable (nextStep B calls) (initialWorld a₀) w) (i : ι) (o : Outcome) (h : w.pc i = .done o) :
    Outcome.pastBudget o = true ∨ Denied o := by
  refine hw.invariant (fun w => ∀ i o, w.pc i = .done o → Outcome.pastBudget o = true ∨ Denied o) ?_ ?_ i o h
  · exact fun _ _ h => nomatch h
  · intro w i p s hall hstep j o hdone
    by_cases hj : j = i
    · subst hj
      rw [World.move_pc_self] at hdone
      subst hdone
      exact step_done B hstep
    · rw [World.move_pc_ne _ hj] at hdone
      exact hall j o hdone

variable [Fintype ι]

theorem denied_below {calls : ι → Call} {a₀ : Authority} {w : CheckWorld ι}
    (hw : Reachable (nextStep B calls) (initialWorld a₀) w) {i : ι}
    (hlow : (calls i).action.sequenceId < a₀.sequenceNext) :
    passed (w.pc i) = false ∧ ∀ o, w.pc i = .done o → Denied o := by
  have hinv : Inv calls a₀ w := hw.invariant (Inv calls a₀) (inv_initial calls a₀) (fun _ _ _ _ hw hs => inv_step B hw hs)
  have hpassed : passed (w.pc i) = false := by
    refine eq_false_of_ne_true (fun hpassed => ?_)
    have hbelow := (hinv.below i _ (held_of_passed (calls i) hpassed)).1
    rw [UInt64.lt_iff_toNat_lt] at hlow
    omega
  refine ⟨hpassed, ?_⟩
  intro o ho
  rw [ho] at hpassed
  refine (run_done B hw i o ho).resolve_left (fun hpast => ?_)
  exact Bool.noConfusion (hpassed.symm.trans hpast)

end

section
variable (B : Blake3) (macKey : Block 32)

/-- What is documented of a report: its number is the highest of all validated entries, zero without
any, and after the recovery no action with a number in the log goes through. -/
structure CoversLog (logPath : Option (List UInt8)) (ds : List Decision) (r : RecoveryReport) : Prop where
  highest : (∀ d ∈ ds, d.sequenceId ≤ r.lastCommittedSequenceId) ∧
    ((ds = [] ∧ r.lastCommittedSequenceId = 0) ∨ ∃ d ∈ ds, d.sequenceId = r.lastCommittedSequenceId)
  denied : ∀ (passport : RuntimePassport) (registry : Registry) (auth : Authority),
    fromPassportWithRecovery B passport registry logPath macKey = .ok (auth, r) →
    ∀ (ι : Type) [Fintype ι] [DecidableEq ι] (calls : ι → Call) (w : CheckWorld ι),
      Reachable (nextStep B calls) (initialWorld auth) w →
      ∀ i, (∃ d ∈ ds, d.sequenceId = (calls i).action.sequenceId) →
        passed (w.pc i) = false ∧ ∀ o, w.pc i = .done o → Denied o

theorem last_of_report {logPath : Option (List UInt8)} {ds : List Decision} {r : RecoveryReport}
    (hrec : recoverLog B logPath macKey = .ok r) (hds : Committed B macKey (logPath.getD []) ds) :
    r.lastCommittedSequenceId = lastSequence 0 ds ∧ (ds ≠ [] → r.status ≠ .freshStart) := by
  by_cases hempty : logPath.getD [] = []
  · rw [recoverLog_empty B macKey hempty] at hrec
    cases hrec
    cases ds with
    | nil => exact ⟨rfl, fun h => absurd rfl h⟩
    | cons d ds =>
      obtain ⟨⟨rest, hfile, -⟩⟩ := hds
      rw [hempty, frames] at hfile
      have hlen := congrArg List.length hfile
      simp only [List.length_nil, List.length_append, entryFrame_length] at hlen
      omega
  · cases logPath with
    | none => exact absurd rfl hempty
    | some file =>
      obtain ⟨es, hes, hseq, -, hstatus⟩ := recoverLog_committed B macKey hempty hrec
      exact ⟨hseq.trans (lastSequence_congr (committed_unique B macKey hes hds) 0), fun _ => hstatus⟩

/-- Recovery covers a log when no entry has a number above that of the last one. -/
theorem recovery_covers_iff {logPath : Option (List UInt8)} {ds : List Decision} {r : RecoveryReport}
    (hrec : recoverLog B logPath macKey = .ok r) (hds : Committed B macKey (logPath.getD []) ds) :
    CoversLog B macKey logPath ds r ↔ ∀ l ∈ ds.getLast?, ∀ d ∈ ds, d.sequenceId ≤ l.sequenceId := by
  obtain ⟨hlast, hstatus⟩ := last_of_report B macKey hrec hds
  have hnumber : ∀ l, ds.getLast? = some l → r.lastCommittedSequenceId = l.sequenceId :=
    fun l hl => hlast.trans (lastSequence_of_getLast hl 0)
  constructor
  · intro h l hl d hd
    exact hnumber l hl ▸ h.highest.1 d hd
  · intro h
    have hbelow : ∀ d ∈ ds, d.sequenceId ≤ r.lastCommittedSequenceId := by
      intro d hd
      obtain ⟨l, hl⟩ : ∃ l, ds.getLast? = some l := ⟨_, List.getLast?_eq_some_getLast (List.ne_nil_of_mem hd)⟩
      rw [hnumber l hl]
      exact h l hl d hd
    refine ⟨⟨hbelow, ?_⟩, ?_⟩
    · cases hl : ds.getLast? with
      | none =>
        have hnil := List.getLast?_eq_none_iff.mp hl
        exact .inl ⟨hnil, by rw [hlast, hnil, lastSequence]⟩
      | some l => exact .inr ⟨l, List.mem_of_getLast? hl, (hnumber l hl).symm⟩
    · intro passport registry auth hauth ι _ _ calls w hw i hi
      obtain ⟨d, hd, hseq⟩ := hi
      obtain ⟨-, base, -, ⟨hfresh, -⟩ | ⟨-, -, hhigh, rfl⟩⟩ := fromPassportWithRecovery_ok B macKey hauth
      · exact absurd hfresh (hstatus (List.ne_nil_of_mem hd))
      · refine denied_below B hw ?_
        have hle := hbelow d hd
        rw [hseq, UInt64.le_iff_toNat_le] at hle
        rw [Authority.storeSequence_sequence, UInt64.lt_iff_toNat_lt, u64_succ_toNat hhigh]
        omega

end

/-- The lease of `leasePassport` for two reads. -/
def twoReadPassport : RuntimePassport := { leasePassport with budgetLease := ⟨2, 10⟩ }

def secondRollingMac : Block 32 :=
  leBlock 32 0x47c16a714eac72739320010e22356599711e7f8040a97df9ac4a4fbe53a7f2c4

def orderDigests : Blake3 :=
  twoReadDigests
    [((Block.zero 32, (Block.zero 32).bytes ++ secondDecision.toBytes.bytes), secondRollingMac),
     ((Block.zero 32, secondRollingMac.bytes ++ firstDecision.toBytes.bytes),
      leBlock 32 0xe512cd193791bc1e5cd7d70f09184223da01ed3e4211d878f084f525f8adede0)]

def twoReads : Fin 2 → Call
  | 0 => ⟨firstRead, committingContext⟩
  | 1 => ⟨secondRead, committingContext⟩

/-- The first call takes its number and pays, then the second does and reaches the sink first. -/
def overtaking : List (Fin 2) := List.replicate 8 ⟨0, Nat.two_pos⟩ ++ List.replicate 9 ⟨1, Nat.one_lt_two⟩

def overtakenLog : List UInt8 :=
  frames orderDigests (Block.zero 32) (Block.zero 32) [secondDecision, firstDecision]

set_option maxRecDepth 20000 in
theorem committed_overtakenLog :
    Committed orderDigests (Block.zero 32) overtakenLog [secondDecision, firstDecision] := by
  refine ⟨[], (List.append_nil _).symm, ?_⟩
  intro h
  obtain ⟨d, rest, h⟩ := h
  have hlen := congrArg List.length h
  rw [List.length_nil, List.length_append, entryFrame_length] at hlen
  omega

set_option maxRecDepth 20000 in
/-- The second call is past the sink while the first has only paid. The log they leave gives 1000 for
its highest number, and the read with the number 1001 goes through again. -/
theorem overtaken_log_replays :
    (∃ auth, fromPassport orderDigests twoReadPassport leaseRegistry = .ok auth ∧
      passed ((runSchedule (nextStep orderDigests twoReads) overtaking (initialWorld auth)).pc 0) = true ∧
      (runSchedule (nextStep orderDigests twoReads) overtaking (initialWorld auth)).pc 1 =
        .done (.decided secondDecision)) ∧
    ∃ auth report, fromPassportWithRecovery orderDigests twoReadPassport leaseRegistry (some overtakenLog)
        (Block.zero 32) = .ok (auth, report) ∧
      recoverLog orderDigests (some overtakenLog) (Block.zero 32) = .ok report ∧
      Committed orderDigests (Block.zero 32) overtakenLog [secondDecision, firstDecision] ∧
      report.lastCommittedSequenceId = 1000 ∧ secondDecision.sequenceId = secondRead.sequenceId ∧
      (apsCheck orderDigests auth secondRead committingContext).1 = .decided secondDecision ∧
      ¬ CoversLog orderDigests (Block.zero 32) (some overtakenLog) [secondDecision, firstDecision] report := by
  refine ⟨⟨_, rfl, rfl, rfl⟩, _, _, rfl, rfl, committed_overtakenLog, rfl, rfl, rfl, ?_⟩
  intro h
  exact absurd (h.highest.1 secondDecision List.mem_cons_self) (by decide)

set_option maxRecDepth 20000 in
theorem recovery_covers_first :
    CoversLog sessionDigests (Block.zero 32)
      (some (frames sessionDigests (Block.zero 32) (Block.zero 32) [firstDecision, secondDecision]))
      [firstDecision, secondDecision]
      ⟨1001, leBlock 32 0x7decb0aba6d4915068ab04c7c6b8fe987f0de3b5fab8715e4033ba613d67a354, 2, 200, .cleanRecovery⟩ := by
  refine (recovery_covers_iff sessionDigests (Block.zero 32) rfl ⟨[], (List.append_nil _).symm, ?_⟩).mpr (by decide)
  intro h
  obtain ⟨d, rest, h⟩ := h
  have hlen := congrArg List.length h
  rw [List.length_nil, List.length_append, entryFrame_length] at hlen
  omega

end AgentPassport.RecoveryOrder
