import AgentPassport.CheckConditions
import AgentPassport.WireFormats

/-! Which passport an Allow is bound to: the one the authority was compiled from. The passport a
descriptor names is covered by its hash, and no gate compares it with anything. -/
namespace AgentPassport.PassportBinding
open ByteBlocks DecisionRecord ActionRecord CompiledAuthority CheckSteps CheckConditions WireFormats

/-- The descriptor made out for another passport, with its hash computed again. -/
def reissued (B : Blake3) (action : ActionDescriptor) (passport : Block 32) : ActionDescriptor :=
  { action with
    passportIdHash := passport
    actionHash := { action with passportIdHash := passport }.computeActionHash B }

section
variable {B : Blake3} {authority : Authority} {action : ActionDescriptor} {ctx : VerifierContext}

theorem reissued_hash (B : Blake3) (action : ActionDescriptor) (passport : Block 32) :
    (reissued B action passport).computeActionHash B = (reissued B action passport).actionHash := by
  rw [computeActionHash_eq, reissued, computeActionHash_eq]
  rfl

theorem permitted_reissued (h : Permitted B authority action ctx) (passport : Block 32) :
    Permitted B authority (reissued B action passport) ctx where
  hashValid := reissued_hash B action passport
  instanceEqual := h.instanceEqual
  notExpired := h.notExpired
  issued := h.issued
  anchorFresh := h.anchorFresh
  revocationFresh := h.revocationFresh
  tierSufficient := h.tierSufficient
  riskCovered := h.riskCovered
  riskNotStrict := h.riskNotStrict
  toolRegistered := h.toolRegistered
  toolBit := h.toolBit
  operationBit := h.operationBit
  resourceInScope := h.resourceInScope
  aboveFloor := h.aboveFloor
  sequenceExpected := h.sequenceExpected
  sequenceInWindow := h.sequenceInWindow
  actionsLeft := h.actionsLeft
  costLeft := h.costLeft
  noRule := h.noRule

theorem allow_eq {d : Decision} (h : (apsCheck B authority action ctx).1 = .decided d)
    (hallow : d.decisionType = .allow) : d = allowDecision B authority action ctx := by
  by_cases hadm : Admissible B authority action ctx
  · rw [apsCheck_admissible B hadm] at h
    obtain ⟨t, r, hgate, hout⟩ | ⟨-, ⟨o, -, hout⟩ | ⟨e, -, hout⟩⟩ := approveAndEmit_cases B authority action ctx
    · rw [hout] at h
      cases h
      exact absurd hallow (approvalGate_some hgate).1
    · rw [hout] at h
      cases h
      rfl
    · rw [hout] at h
      cases h
  · obtain ⟨r, timestampNs, -, hout⟩ := apsCheck_refused B hadm
    rw [hout] at h
    cases h
    cases hallow

theorem allowDecision_passport (B : Blake3) (authority : Authority) (action : ActionDescriptor) (ctx : VerifierContext) :
    (allowDecision B authority action ctx).decisionId =
        deriveDecisionId B authority.passportIdHash action.actionHash .allow .ok ∧
      (allowDecision B authority action ctx).eventMac =
        (allowDecision B authority action ctx).computeEventMac B authority.receiptStreamKey authority.passportIdHash
          action.actionHash (allowDecision B authority action ctx).timestampUnixNs :=
  ⟨rfl, rfl⟩

end

/-- An Allow is for a descriptor with a valid hash and carries the id and the MAC of the authority's
passport and that hash. The same descriptor made out for any other passport passes the same gates. -/
theorem allow_bound_to_authority (B : Blake3) (authority : Authority) (action : ActionDescriptor)
    (ctx : VerifierContext) (d : Decision) (h : (apsCheck B authority action ctx).1 = .decided d)
    (hallow : d.decisionType = .allow) :
    action.verifyActionHash B = true ∧
    d.decisionId = deriveDecisionId B authority.passportIdHash action.actionHash .allow .ok ∧
    d.eventMac = d.computeEventMac B authority.receiptStreamKey authority.passportIdHash action.actionHash
      d.timestampUnixNs ∧
    (∀ passport actionHash timestampNs d',
      packCanonicalEvent d authority.passportIdHash action.actionHash d.timestampUnixNs =
        packCanonicalEvent d' passport actionHash timestampNs → passport = authority.passportIdHash) ∧
    ∀ passport, (∃ o, ctx.receiptSink (allowDecision B authority (reissued B action passport) ctx) = .ok o) →
      ∃ d', (apsCheck B authority (reissued B action passport) ctx).1 = .decided d' ∧ d'.decisionType = .allow := by
  have hallowed := ((apsCheck_decides B authority action ctx).1.mp ⟨d, h, hallow⟩).1
  obtain ⟨hid, hmac⟩ := allowDecision_passport B authority action ctx
  rw [← allow_eq h hallow] at hid hmac
  refine ⟨decide_eq_true hallowed.hashValid, hid, hmac, ?_, ?_⟩
  · intro passport actionHash timestampNs d' hbytes
    exact (packCanonicalEvent_inj hbytes).passport.symm
  · intro passport hsink
    exact (apsCheck_decides B authority (reissued B action passport) ctx).1.mpr
      ⟨permitted_reissued hallowed passport, hsink⟩

/-- The authority of `readAuthority`, compiled from the passport `rp_other`. -/
def otherAuthority : Authority :=
  { readAuthority with
    passportIdHash := leBlock 32 0xfa2edceb7d729c0f316d14e1b98f3b25354576c3d827eea59d471fefdf88483c }

def nullContext : VerifierContext := { fullSinkContext with receiptSink := nullSink }

/-- The BLAKE3 digests that checking `readAction` under `otherAuthority` asks for. -/
def otherDigests : Blake3 :=
  let id := leBlock 16 0x26be9e6cc05b9472bcb2b5f9f24bee2c
  .ofTable [(readAction.hashedBytes, readAction.actionHash)]
    [((Block.zero 32, otherAuthority.passportIdHash.bytes ++ readAction.actionHash.bytes ++ toLe 8 1 ++
        [0, 0] ++ id.bytes ++ toLe 8 1000),
      leBlock 32 0x67cf6597a6d2b6faa4e56d90c81c4cb5afd3eb12d151abcadcd6f71d15c70205)]
    [((decisionIdContext, otherAuthority.passportIdHash.bytes ++ readAction.actionHash.bytes ++ [0, 0]), id)]

theorem otherAuthority_allows :
    (apsCheck otherDigests otherAuthority readAction nullContext).1 =
      .decided (allowDecision otherDigests otherAuthority readAction nullContext) := by
  decide

theorem allow_bound_to_authority_sample :
    (apsCheck otherDigests otherAuthority readAction nullContext).1 =
      .decided (allowDecision otherDigests otherAuthority readAction nullContext) ∧
    (allowDecision otherDigests otherAuthority readAction nullContext).decisionId =
      deriveDecisionId otherDigests otherAuthority.passportIdHash readAction.actionHash .allow .ok :=
  ⟨otherAuthority_allows,
    (allow_bound_to_authority otherDigests otherAuthority readAction nullContext _ otherAuthority_allows rfl).2.1⟩

/-- A descriptor of one passport is allowed under another. -/
theorem allow_of_other_passport :
    ¬ ∀ (B : Blake3) (authority : Authority) (action : ActionDescriptor) (ctx : VerifierContext) (d : Decision),
      (apsCheck B authority action ctx).1 = .decided d → d.decisionType = .allow →
      action.passportIdHash = authority.passportIdHash := by
  intro h
  have heq := h otherDigests otherAuthority readAction nullContext _ otherAuthority_allows rfl
  exact absurd heq (by decide)

end AgentPassport.PassportBinding
