import AgentPassport.CheckConditions

/-! The freshness of the gateway's time anchor (`clock.rs`) against the check's own third step. -/
namespace AgentPassport.TimeAnchor
open ByteBlocks DecisionRecord ActionRecord CompiledAuthority CheckSteps CheckConditions

/-- `R3_MAX_ANCHOR_AGE_NS` of the clock module, which the check defines again. -/
def clockMaxAnchorAgeNs : UInt64 := 30 * 1000000000

inductive FreshnessVerdict where
  | fresh
  | stale
  | notRequired
  deriving DecidableEq

def timeAnchorFreshness (lastAnchorNs nowNs : UInt64) (riskClass : UInt8) : FreshnessVerdict :=
  if riskClass ≤ 2 then .notRequired
  else if riskClass = 3 then
    if saturatingSub nowNs lastAnchorNs < clockMaxAnchorAgeNs then .fresh else .stale
  else .stale

def anchorAge (anchor now : UInt64) : Nat := now.toNat - anchor.toNat

def DeniesStale (outcome : Outcome) : Prop :=
  ∃ decision, outcome = .decided decision ∧ decision.decisionType = .deny ∧ decision.reasonCode = .clockAnchorStale

theorem fresh_r3_iff (anchor now : UInt64) :
    timeAnchorFreshness anchor now 3 = .fresh ↔ anchorAge anchor now < 30 * 10 ^ 9 := by
  have hage : saturatingSub now anchor < clockMaxAnchorAgeNs ↔ anchorAge anchor now < 30 * 10 ^ 9 := by
    rw [UInt64.lt_iff_toNat_lt, saturatingSub_toNat]
    exact Iff.rfl
  rw [← hage]
  show (if saturatingSub now anchor < clockMaxAnchorAgeNs then FreshnessVerdict.fresh else .stale) = .fresh ↔ _
  split
  · rename_i hlt
    exact iff_of_true rfl hlt
  · rename_i hge
    exact iff_of_false (by decide) hge

theorem policyGate_ne_stale (authority : Authority) (action : ActionDescriptor) (ctx : VerifierContext) :
    policyGate authority action ctx ≠ some .clockAnchorStale := by
  unfold policyGate
  repeat' split
  all_goals decide

theorem floorGate_ne_stale (floor : UInt64) (action : ActionDescriptor) :
    floorGate floor action ≠ some .clockAnchorStale := by
  unfold floorGate
  split
  all_goals decide

variable (B : Blake3) {authority : Authority} {action : ActionDescriptor} {ctx : VerifierContext}

theorem finalize_denies {timestampNs : UInt64} {t : DecisionType} {r : ReasonCode} (h : r ≠ .clockAnchorStale) :
    ¬ DeniesStale (.decided (finalize B authority action timestampNs t r)) := by
  rintro ⟨decision, hdecision, -, hreason⟩
  cases hdecision
  exact h hreason

theorem approveAndEmit_not_stale (authority : Authority) (action : ActionDescriptor) (ctx : VerifierContext) :
    ¬ DeniesStale (approveAndEmit B authority action ctx) := by
  obtain ⟨t, r, hgate, hout⟩ | ⟨-, ⟨o, -, hout⟩ | ⟨e, -, hout⟩⟩ := approveAndEmit_cases B authority action ctx
  · rw [hout]
    refine finalize_denies B ?_
    rintro rfl
    cases (approvalGate_some hgate).2
  · rw [hout, allowDecision]
    exact finalize_denies B (by decide)
  · rw [hout]
    rintro ⟨decision, hdecision, -⟩
    cases hdecision

theorem apsCheck_not_stale (hbinding : bindingGate B authority action ctx = none)
    (htemporal : temporalGate authority (ctx.clock 0) = none)
    (hanchor : anchorGate authority.lastTimeAnchorNs action (ctx.clock 0) = none) :
    ¬ DeniesStale (apsCheck B authority action ctx).1 := by
  have hgates : preSequenceGates authority action ctx (ctx.clock 0) =
      (policyGate authority action ctx <|> floorGate authority.recoveredFloor action) := by
    rw [preSequenceGates, htemporal, hanchor]
    rfl
  rw [apsCheck, hbinding]
  dsimp only
  rw [hgates]
  cases hpolicy : policyGate authority action ctx with
  | some r =>
    refine finalize_denies B ?_
    rintro rfl
    exact policyGate_ne_stale _ _ _ hpolicy
  | none =>
    cases hfloor : floorGate authority.recoveredFloor action with
    | some r =>
      refine finalize_denies B ?_
      rintro rfl
      exact floorGate_ne_stale _ _ hfloor
    | none =>
      dsimp only [Option.orElse_eq_orElse, Option.orElse]
      split
      · exact finalize_denies B (by decide)
      · split
        · exact finalize_denies B (by decide)
        · exact approveAndEmit_not_stale B _ action ctx

theorem apsCheck_stale (hbinding : bindingGate B authority action ctx = none)
    (htemporal : temporalGate authority (ctx.clock 0) = none)
    (hanchor : anchorGate authority.lastTimeAnchorNs action (ctx.clock 0) = some .clockAnchorStale) :
    DeniesStale (apsCheck B authority action ctx).1 := by
  have hgates : preSequenceGates authority action ctx (ctx.clock 0) = some .clockAnchorStale := by
    rw [preSequenceGates, htemporal, hanchor]
    rfl
  rw [apsCheck, hbinding]
  dsimp only
  rw [hgates]
  exact ⟨_, rfl, rfl, rfl⟩

theorem apsCheck_stale_iff (hrisk : action.riskClass = 3) (hbinding : bindingGate B authority action ctx = none)
    (htemporal : temporalGate authority (ctx.clock 0) = none) :
    DeniesStale (apsCheck B authority action ctx).1 ↔
      30 * 10 ^ 9 < anchorAge authority.lastTimeAnchorNs (ctx.clock 0) := by
  have hnone := anchorGate_none_iff authority.lastTimeAnchorNs action (ctx.clock 0)
  rw [hrisk] at hnone
  by_cases hold : 30 * 10 ^ 9 < anchorAge authority.lastTimeAnchorNs (ctx.clock 0)
  · refine iff_of_true ?_ hold
    cases hgate : anchorGate authority.lastTimeAnchorNs action (ctx.clock 0) with
    | none => exact absurd (hnone.mp hgate (UInt8.le_refl 3)) (not_le.mpr hold)
    | some r =>
      have hreason : r = .clockAnchorStale := by
        unfold anchorGate at hgate
        split at hgate
        · cases hgate
          rfl
        · cases hgate
      rw [hreason] at hgate
      exact apsCheck_stale B hbinding htemporal hgate
  · refine iff_of_false ?_ hold
    exact apsCheck_not_stale B hbinding htemporal (hnone.mpr (fun _ => not_lt.mp hold))

/-- At an R3 action that reaches the third step the two rules agree exactly when the anchor is not thirty seconds old to
the nanosecond. -/
theorem anchor_rules_agree_iff (B : Blake3) (authority : Authority) (action : ActionDescriptor) (ctx : VerifierContext)
    (hrisk : action.riskClass = 3) (hbinding : bindingGate B authority action ctx = none)
    (htemporal : temporalGate authority (ctx.clock 0) = none) :
    (DeniesStale (apsCheck B authority action ctx).1 ↔
      timeAnchorFreshness authority.lastTimeAnchorNs (ctx.clock 0) action.riskClass ≠ .fresh) ↔
    anchorAge authority.lastTimeAnchorNs (ctx.clock 0) ≠ 30 * 10 ^ 9 := by
  rw [apsCheck_stale_iff B hrisk hbinding htemporal, hrisk, ne_eq, fresh_r3_iff, not_lt]
  constructor
  · intro h heq
    exact absurd (h.mpr heq.ge) (not_lt.mpr heq.le)
  · intro hne
    exact ⟨le_of_lt, fun hle => lt_of_le_of_ne hle hne.symm⟩

def r3Action : ActionDescriptor :=
  { readAction with
    riskClass := 3
    actionHash := leBlock 32 0xda3e9111f12dfc04d1132a1908ee0914cd3890fbf2177a1428d313726d32d607 }

def r3Authority : Authority :=
  { readAuthority with riskClass := 3, expiresAtUnixNs := 100000000000, lastTimeAnchorNs := 1000000000 }

def contextAt (now : UInt64) : VerifierContext := { fullSinkContext with clock := fun _ => now, receiptSink := nullSink }

/-- The BLAKE3 digests that checking `r3Action` asks for at the two times. -/
def r3Digests : Blake3 :=
  let allowId := leBlock 16 0xd4a044083e2a67987a46fb6cb5a47103
  let denyId := leBlock 16 0xa4b9abb438e61b8b704e2f4ee6fc1ebc
  let event := readAction.passportIdHash.bytes ++ r3Action.actionHash.bytes
  .ofTable [(r3Action.hashedBytes, r3Action.actionHash)]
    [((Block.zero 32, event ++ toLe 8 1 ++ [0, 0] ++ allowId.bytes ++ toLe 8 31000000000),
        leBlock 32 0x2c9a59f13205fe4479787bdb5f55b3a24b9ed26841eb4b334d6b81f7132a3280),
      ((Block.zero 32, event ++ toLe 8 1 ++ [1, 0x11] ++ denyId.bytes ++ toLe 8 32000000000),
        leBlock 32 0x40a6361601740e858c864e5142eb4d9a0b2d4610637564e9ac187468ec41ed96)]
    [((decisionIdContext, event ++ [0, 0]), allowId), ((decisionIdContext, event ++ [1, 0x11]), denyId)]

theorem r3Action_bound (now : UInt64) : bindingGate r3Digests r3Authority r3Action (contextAt now) = none := by
  refine (bindingGate_none_iff r3Digests r3Authority r3Action (contextAt now)).mpr ⟨by decide, rfl⟩

theorem anchor_rules_agree_thirty_one : DeniesStale (apsCheck r3Digests r3Authority r3Action (contextAt 32000000000)).1 ↔
    timeAnchorFreshness 1000000000 32000000000 3 ≠ .fresh :=
  (anchor_rules_agree_iff r3Digests r3Authority r3Action (contextAt 32000000000) rfl (r3Action_bound _)
    (by decide)).mpr (by decide)

/-- An anchor of exactly thirty seconds is stale for the clock module and not for the check. -/
theorem anchor_at_limit_not_denied : r3Action.riskClass = 3 ∧
    bindingGate r3Digests r3Authority r3Action (contextAt 31000000000) = none ∧
    temporalGate r3Authority ((contextAt 31000000000).clock 0) = none ∧
    ¬ (DeniesStale (apsCheck r3Digests r3Authority r3Action (contextAt 31000000000)).1 ↔
      timeAnchorFreshness r3Authority.lastTimeAnchorNs ((contextAt 31000000000).clock 0) r3Action.riskClass ≠
        .fresh) := by
  refine ⟨rfl, r3Action_bound _, by decide, ?_⟩
  rw [apsCheck_stale_iff r3Digests rfl (r3Action_bound _) (by decide)]
  decide

end AgentPassport.TimeAnchor
