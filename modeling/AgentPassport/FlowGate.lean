import AgentPassport.CrossChain

/-! Runs of an execution frame through accesses and rotations, and what the gate knows of them. A
rotation moves the principals of the frame into its residue, and the gate does not read the residue. -/
namespace AgentPassport.FlowGate
open JsText Js CrossChain Outcome

inductive FrameCall where
  | recordAccess (taint : TaintLabel)
  | rotateFrame (frameId now : Str) (ttlMinutes : Option JsNumber)

/-- The frames sealed so far, oldest first, and the one in use. -/
structure FrameRun where
  sealedFrames : List ExecutionFrame
  current : ExecutionFrame

def FrameRun.frames (run : FrameRun) : List ExecutionFrame := run.sealedFrames ++ [run.current]

def FrameRun.start (frameId now agentId : Str) (opts : FrameOptions) : FrameRun :=
  ⟨[], createExecutionFrame frameId now agentId opts⟩

section
variable (R : Runtime)

def FrameRun.step (run : FrameRun) : FrameCall → Except FrameError FrameRun
  | .recordAccess taint => do
    let current ← CrossChain.recordAccess R run.current taint
    return { run with current }
  | .rotateFrame frameId now ttlMinutes =>
    let (sealedFrame, fresh) := CrossChain.rotateFrame frameId now run.current ttlMinutes
    return ⟨run.sealedFrames ++ [sealedFrame], fresh⟩

def FrameRun.run (run : FrameRun) (calls : List FrameCall) : Except FrameError FrameRun :=
  calls.foldlM (FrameRun.step R) run

end

/-- The principals whose data a label stands for: its own, or those a MULTI_PRINCIPAL label lists. -/
def namedBy (label : TaintLabel) : List Str :=
  if label.principalId = MULTI_PRINCIPAL then
    match label.sourcePrincipals with
    | some (source :: rest) => source :: rest
    | _ => [label.principalId]
  else [label.principalId]

/-- Data of `q` was accessed in this frame. -/
def AccessedIn (frame : ExecutionFrame) (q : Str) : Prop := ∃ label ∈ frame.accessedContexts, q ∈ namedBy label

/-- Data of `q` was accessed in an epoch of the run, or before it as the first frame was told. -/
def Accessed (opts : FrameOptions) (run : FrameRun) (q : Str) : Prop :=
  q ∈ opts.residuePrincipals.getD [] ∨ ∃ frame ∈ run.frames, AccessedIn frame q

/-- The same, before the epoch in use. -/
def AccessedBefore (opts : FrameOptions) (run : FrameRun) (q : Str) : Prop :=
  q ∈ opts.residuePrincipals.getD [] ∨ ∃ frame ∈ run.sealedFrames, AccessedIn frame q

/-- Only MULTI_PRINCIPAL labels list principals. -/
def ListsProperly (label : TaintLabel) : Prop :=
  label.principalId ≠ MULTI_PRINCIPAL → label.sourcePrincipals.getD [] = []

/-- The taint of every frame is that of its accesses, and the residue has what was named before. -/
structure Tracked (opts : FrameOptions) (run : FrameRun) : Prop where
  taint : ∀ frame ∈ run.frames, frame.frameTaint = mergeTaints frame.accessedContexts
  residue : ∀ q, q ∈ run.current.residuePrincipals ↔
    q ∈ opts.residuePrincipals.getD [] ∨
      ∃ frame ∈ run.sealedFrames, ∃ label ∈ frame.accessedContexts, label.principalId = q

section
variable {R : Runtime} {opts : FrameOptions} {run run' : FrameRun}

theorem recordAccess_eq {frame frame' : ExecutionFrame} {taint : TaintLabel}
    (h : CrossChain.recordAccess R frame taint = .ok frame') :
    ∃ stepHash, computeStepHashForWrite R (frame.chainHead.getD []) taint frame.stepCount = .ok stepHash ∧
      frame' = { frame with
        accessedContexts := frame.accessedContexts ++ [taint]
        frameTaint := mergeTaints (frame.accessedContexts ++ [taint])
        chainHead := some stepHash
        stepCount := frame.stepCount + 1 } := by
  by_cases hactive : (!frame.active) = true
  · rw [CrossChain.recordAccess, if_pos hactive] at h
    cases h
  · rw [CrossChain.recordAccess, if_neg hactive] at h
    obtain ⟨stepHash, hstep, hframe⟩ := bind_eq_ok.mp h
    exact ⟨stepHash, hstep, (Except.ok.inj hframe).symm⟩

theorem step_cases {call : FrameCall} (h : run.step R call = .ok run') :
    (∃ taint stepHash, call = .recordAccess taint ∧
      computeStepHashForWrite R (run.current.chainHead.getD []) taint run.current.stepCount = .ok stepHash ∧
      run' = ⟨run.sealedFrames, { run.current with
        accessedContexts := run.current.accessedContexts ++ [taint]
        frameTaint := mergeTaints (run.current.accessedContexts ++ [taint])
        chainHead := some stepHash
        stepCount := run.current.stepCount + 1 }⟩) ∨
    ∃ frameId now ttlMinutes, call = .rotateFrame frameId now ttlMinutes ∧
      run' = ⟨run.sealedFrames ++ [closeFrame now run.current],
        (CrossChain.rotateFrame frameId now run.current ttlMinutes).2⟩ := by
  cases call with
  | recordAccess taint =>
    obtain ⟨current, hcurrent, hrun⟩ := bind_eq_ok.mp h
    obtain ⟨stepHash, hstep, rfl⟩ := recordAccess_eq hcurrent
    exact .inl ⟨taint, stepHash, rfl, hstep, (Except.ok.inj hrun).symm⟩
  | rotateFrame frameId now ttlMinutes =>
    exact .inr ⟨frameId, now, ttlMinutes, rfl, (Except.ok.inj h).symm⟩

/-- An invariant of the steps holds after every run. -/
theorem run_induction {P : FrameRun → Prop} {calls : List FrameCall}
    (hstep : ∀ run call run', P run → FrameRun.step R run call = .ok run' → P run') (hstart : P run)
    (h : run.run R calls = .ok run') : P run' := by
  induction calls generalizing run with
  | nil =>
    cases h
    exact hstart
  | cons call rest ih =>
    obtain ⟨next, hnext, hrest⟩ := bind_eq_ok.mp h
    exact ih (hstep run call next hstart hnext) hrest

theorem Tracked.start (frameId now agentId : Str) : Tracked opts (.start frameId now agentId opts) where
  taint := by
    intro frame hframe
    rw [List.mem_singleton.mp hframe]
    rfl
  residue := by
    intro q
    constructor
    · exact .inl
    · intro h
      obtain hresidue | ⟨frame, hframe, -⟩ := h
      · exact hresidue
      · cases hframe

theorem Tracked.step {call : FrameCall} (ht : Tracked opts run) (h : run.step R call = .ok run') :
    Tracked opts run' := by
  obtain ⟨taint, stepHash, -, -, rfl⟩ | ⟨frameId, now, ttlMinutes, -, rfl⟩ := step_cases h
  · refine ⟨?_, ht.residue⟩
    intro frame hframe
    obtain hsealed | hcurrent := List.mem_append.mp hframe
    · exact ht.taint frame (List.mem_append_left _ hsealed)
    · rw [List.mem_singleton.mp hcurrent]
  · have hcurrent := ht.taint run.current (List.mem_append_right _ (List.mem_singleton_self _))
    constructor
    · intro frame hframe
      obtain hsealed | hfresh := List.mem_append.mp hframe
      · obtain hbefore | hclosed := List.mem_append.mp hsealed
        · exact ht.taint frame (List.mem_append_left _ hbefore)
        · rw [List.mem_singleton.mp hclosed]
          exact hcurrent
      · rw [List.mem_singleton.mp hfresh]
        rfl
    · intro q
      have hkept : q ∈ (CrossChain.rotateFrame frameId now run.current ttlMinutes).2.residuePrincipals ↔
          q ∈ run.current.frameTaint.principals ∨ q ∈ run.current.residuePrincipals :=
        List.mem_eraseDups.trans List.mem_append
      rw [hkept, hcurrent, mem_principals, ht.residue]
      simp only [List.mem_append, List.mem_singleton, or_and_right, exists_or, exists_eq_left]
      exact or_left_comm.trans (or_congr_right or_comm)

theorem Tracked.of_run {frameId now agentId : Str} {calls : List FrameCall}
    (h : (FrameRun.start frameId now agentId opts).run R calls = .ok run) : Tracked opts run :=
  run_induction (fun _ _ _ ht hstep => ht.step hstep) (.start frameId now agentId) h

/-- `q` is the acting principal, or its data may flow into the action. -/
def Guarded (R : Runtime) (now : Int) (request : FlowRequest) (q : Str) : Prop :=
  q = request.actionPrincipalId ∨ ∃ permit ∈ request.permits, Authorizes R now request q permit

/-- What an action that was let through relies on. -/
def FlowGuarded (R : Runtime) (now : Int) (opts : FrameOptions) (run : FrameRun) (request : FlowRequest) : Prop :=
  (∀ q, Accessed opts run q → Guarded R now request q) ∧
  (∀ label ∈ request.inputTaint.labels, ∀ q ∈ namedBy label, Guarded R now request q) ∧
  ∀ label ∈ request.inputTaint.labels ++ run.current.frameTaint.labels, label.usage ≠ .readOnly

theorem namedBy_cases {actionPrincipalId q : Str} {label : TaintLabel} (hsentinel : actionPrincipalId ≠ MULTI_PRINCIPAL)
    (hlists : ListsProperly label) (hq : q ∈ namedBy label) :
    q = actionPrincipalId ∨
      label.principalId ≠ actionPrincipalId ∧ q ∈ foreignSources actionPrincipalId label := by
  by_cases hown : q = actionPrincipalId
  · exact .inl hown
  · refine .inr ?_
    by_cases hmulti : label.principalId = MULTI_PRINCIPAL
    · refine ⟨fun h => hsentinel (h.symm.trans hmulti), ?_⟩
      rw [namedBy, if_pos hmulti] at hq
      cases hsources : label.sourcePrincipals with
      | none =>
        rw [hsources] at hq
        rw [foreignSources, hsources]
        exact hq
      | some sources =>
        cases sources with
        | nil =>
          rw [hsources] at hq
          rw [foreignSources, hsources]
          exact hq
        | cons source rest =>
          rw [hsources] at hq
          rw [foreignSources, hsources]
          exact List.mem_filter.mpr ⟨hq, decide_eq_true hown⟩
    · have hempty := hlists hmulti
      rw [namedBy, if_neg hmulti] at hq
      have hself := List.mem_singleton.mp hq
      refine ⟨fun h => hown (hself.trans h), ?_⟩
      rw [foreignSources]
      cases hsources : label.sourcePrincipals with
      | none => exact hq
      | some sources =>
        rw [hsources] at hempty
        rw [show sources = [] from hempty]
        exact hq

/-- An action that is let through by a check with the frame in use is guarded, as far as the check
sees: whoever was accessed before this epoch must be named again by a label of the input or the frame. -/
theorem gate_guards {frameId started agentId : Str} {calls : List FrameCall} {now : Int} {request : FlowRequest}
    (hrun : (FrameRun.start frameId started agentId opts).run R calls = .ok run)
    (hframe : request.frame = some run.current) (hverdict : (checkDataFlow R now request).verdict ≠ .blocked)
    (hsentinel : request.actionPrincipalId ≠ MULTI_PRINCIPAL)
    (hlists : ∀ label ∈ request.inputTaint.labels ++ run.current.accessedContexts, ListsProperly label)
    (hcarried : ∀ q, AccessedBefore opts run q → q = request.actionPrincipalId ∨
      ∃ label ∈ request.inputTaint.labels ++ run.current.accessedContexts, q ∈ namedBy label) :
    FlowGuarded R now opts run request := by
  have htracked := Tracked.of_run hrun
  have htaint := htracked.taint run.current (List.mem_append_right _ (List.mem_singleton_self _))
  have hlabels : ∀ label, label ∈ effectiveLabels request ↔
      label ∈ request.inputTaint.labels ++ run.current.accessedContexts := by
    intro label
    rw [mem_effectiveLabels hframe, htaint, mem_mergeTaints, List.mem_append]
  have hopen := mt blocked_iff.mpr hverdict
  have hnamed : ∀ label ∈ request.inputTaint.labels ++ run.current.accessedContexts, ∀ q ∈ namedBy label,
      Guarded R now request q := by
    intro label hlabel q hq
    obtain hown | ⟨hother, hsource⟩ := namedBy_cases hsentinel (hlists label hlabel) hq
    · exact .inl hown
    · by_contra hnot
      refine hopen (.inr ⟨label, (hlabels label).mpr hlabel, hother, q, hsource, ?_⟩)
      intro hpermitted
      obtain ⟨permit, hpermit, hselects⟩ := hpermitted
      exact hnot (.inr ⟨permit, hpermit, selectsPermit_iff.mp hselects⟩)
  refine ⟨?_, ?_, ?_⟩
  · intro q hq
    have hcurrent : AccessedIn run.current q → Guarded R now request q := by
      intro haccess
      obtain ⟨label, hlabel, hname⟩ := haccess
      exact hnamed label (List.mem_append_right _ hlabel) q hname
    have hbefore : AccessedBefore opts run q → Guarded R now request q := by
      intro hbefore
      obtain hown | ⟨label, hlabel, hname⟩ := hcarried q hbefore
      · exact .inl hown
      · exact hnamed label hlabel q hname
    obtain hresidue | ⟨frame, hframe, haccess⟩ := hq
    · exact hbefore (.inl hresidue)
    · obtain hsealed | hlast := List.mem_append.mp hframe
      · exact hbefore (.inr ⟨frame, hsealed, haccess⟩)
      · rw [List.mem_singleton.mp hlast] at haccess
        exact hcurrent haccess
  · intro label hlabel q hq
    exact hnamed label (List.mem_append_left _ hlabel) q hq
  · intro label hlabel husage
    rw [htaint, List.mem_append, mem_mergeTaints, ← List.mem_append] at hlabel
    exact hopen (.inl ⟨label, (hlabels label).mpr hlabel, husage⟩)

end

/-! Data of one principal is read, the frame is rotated, and another principal acts. -/

def sampleLabel : TaintLabel :=
  ⟨0, lit "alice", lit "chain-a", lit "del-a", .sameContextOnly, lit "2026-01-01T00:00:00.000Z", none⟩

def alicePublicKey : Str := lit "8a88e3dd7409f195fd52db2d3cba5d72ca6709bf1d94121bf3748801b40f6f5c"

def bobPublicKey : Str := lit "8139770ea87d175f56a35466c34c7ecccb8d8a91b4ee37a25df60f5b8fc9b394"

def samplePayload : Str :=
  lit "\x7b\"createdAt\":\"2026-01-01T00:00:00.000Z\",\"destinationContext\":\x7b\"allowedScopes\":" ++
    lit "[\"email\"],\"principalId\":\"bob\",\"principalPublicKey\":\"8139770ea87d175f56a35466c34c7ec" ++
    lit "ccb8d8a91b4ee37a25df60f5b8fc9b394\"\x7d,\"expiresAt\":\"2026-01-02T00:00:00.000Z\",\"purpose" ++
    lit "\":\"replies\",\"sourceContext\":\x7b\"dataClasses\":[\"*\"],\"principalId\":\"alice\",\"pri" ++
    lit "ncipalPublicKey\":\"8a88e3dd7409f195fd52db2d3cba5d72ca6709bf1d94121bf3748801b40f6f5c\"\x7d" ++
    lit "\x7d"

def aliceSignature : Str :=
  lit "e50cd9cabac8a692b8eeaf976d69cb34c03d66111424739b52741b7d6dbbc25994098385bdb9ee103e90541190ac" ++
    lit "a21fa24134adbf9a1a6469344e93000d6f07"

def bobSignature : Str :=
  lit "cbe45e9497b1b192bc3c1c8177122ac49a4c3ab16965383bbb14aaa932431d64fbe50d0ceee920cba8a07ca85fa1" ++
    lit "707e9d3cbabcc7e198c8084625bd07212604"

/-- From alice to bob, for everything under `email`. -/
def samplePermit : CrossChainPermit where
  permitId := lit "ccp-1"
  sourceContext := ⟨lit "alice", alicePublicKey, [lit "*"]⟩
  destinationContext := ⟨lit "bob", bobPublicKey, [lit "email"]⟩
  purpose := lit "replies"
  destinationConstraints := none
  createdAt := lit "2026-01-01T00:00:00.000Z"
  expiresAt := lit "2026-01-02T00:00:00.000Z"
  revoked := false
  sourceSignature := aliceSignature
  destinationSignature := bobSignature

/-- The two signatures of the permit are the ones that verify. -/
def sampleRuntime : Runtime where
  numText _ := []
  sha256 := Sha256.ofTable []
  sign _ _ := none
  verify message signature key := message = samplePayload &&
    (signature = aliceSignature && key = alicePublicKey || signature = bobSignature && key = bobPublicKey)

def sampleOptions : FrameOptions := ⟨none, none, none, none⟩

def sampleRequest (labels : List TaintLabel) (permits : List CrossChainPermit) (frame : ExecutionFrame) : FlowRequest :=
  ⟨mergeTaints labels, lit "bob", lit "email:send", permits, some frame⟩

def sampleStart : FrameRun := .start (lit "frame-1") (lit "2026-01-01T00:00:00.000Z") (lit "agent") sampleOptions

def sampleCalls : List FrameCall :=
  [.recordAccess sampleLabel, .rotateFrame (lit "frame-2") (lit "2026-01-01T00:01:00.000Z") none]

theorem sample_principals : lit "bob" ≠ MULTI_PRINCIPAL ∧ lit "alice" ≠ lit "bob" := by decide

theorem sample_run : ∃ run, sampleStart.run sampleRuntime sampleCalls = .ok run ∧
    run.sealedFrames.map (·.accessedContexts) = [[sampleLabel]] ∧ run.current.accessedContexts = [] := by
  have hran : ((sampleStart.run sampleRuntime sampleCalls).toOption.map (fun run =>
      (run.sealedFrames.map (·.accessedContexts), run.current.accessedContexts))) = some ([[sampleLabel]], []) := by
    decide
  obtain ⟨run, hrun, hfields⟩ := exists_ok_of_map hran
  exact ⟨run, hrun, (Prod.mk.inj hfields).1, (Prod.mk.inj hfields).2⟩

theorem sample_labels {run : FrameRun} (hrun : sampleStart.run sampleRuntime sampleCalls = .ok run)
    (hcurrent : run.current.accessedContexts = []) (labels : List TaintLabel) (permits : List CrossChainPermit)
    (label : TaintLabel) : label ∈ effectiveLabels (sampleRequest labels permits run.current) ↔ label ∈ labels := by
  have htracked : Tracked sampleOptions run := Tracked.of_run hrun
  have htaint := htracked.taint run.current (List.mem_append_right _ (List.mem_singleton_self _))
  rw [@mem_effectiveLabels (sampleRequest labels permits run.current) run.current rfl, htaint, hcurrent, mem_mergeTaints]
  exact (or_congr_left mem_mergeTaints).trans (or_iff_left List.not_mem_nil)

theorem sample_before {run : FrameRun} (hsealed : run.sealedFrames.map (·.accessedContexts) = [[sampleLabel]])
    (q : Str) : AccessedBefore sampleOptions run q ↔ q = lit "alice" := by
  obtain ⟨frame, hframes, hcontexts⟩ := List.map_eq_singleton_iff.mp hsealed
  have hname : namedBy sampleLabel = [lit "alice"] := by decide
  rw [AccessedBefore, hframes]
  simp [AccessedIn, hcontexts, hname, sampleOptions]

theorem gate_guards_sample : ∃ run, sampleStart.run sampleRuntime sampleCalls = .ok run ∧
    FlowGuarded sampleRuntime 1767225660000 sampleOptions run
      (sampleRequest [sampleLabel] [samplePermit] run.current) := by
  obtain ⟨run, hrun, hsealed, hcurrent⟩ := sample_run
  refine ⟨run, hrun, gate_guards hrun rfl ?_ sample_principals.1 ?_ ?_⟩
  · intro hblocked
    have hselects : selectsPermit sampleRuntime 1767225660000 (sampleRequest [sampleLabel] [samplePermit] run.current)
        (lit "alice") samplePermit = true := by
      have hfree : ∀ frame, selectsPermit sampleRuntime 1767225660000
          (sampleRequest [sampleLabel] [samplePermit] frame) (lit "alice") samplePermit =
        selectsPermit sampleRuntime 1767225660000
          ⟨⟨[], [], false⟩, lit "bob", lit "email:send", [], none⟩ (lit "alice") samplePermit := fun _ => rfl
      rw [hfree]
      decide +kernel
    obtain ⟨label, hlabel, husage⟩ | ⟨label, hlabel, -, q, hq, hnot⟩ := blocked_iff.mp hblocked
    · rw [sample_labels hrun hcurrent, List.mem_singleton] at hlabel
      rw [hlabel] at husage
      cases husage
    · rw [sample_labels hrun hcurrent, List.mem_singleton] at hlabel
      rw [hlabel] at hq
      rw [List.mem_singleton.mp hq] at hnot
      exact hnot ⟨samplePermit, List.mem_singleton_self _, hselects⟩
  · intro label hlabel
    rw [hcurrent, List.append_nil] at hlabel
    rw [List.mem_singleton.mp (mem_mergeTaints.mp hlabel)]
    exact fun _ => rfl
  · intro q hq
    rw [(sample_before hsealed q).mp hq]
    refine .inr ⟨sampleLabel, List.mem_append_left _ (mem_mergeTaints.mpr (List.mem_singleton_self _)), ?_⟩
    decide

/-- Rotation opens a clean window: after it an action of bob is let through although alice's data was
read and there is no permit. -/
theorem clean_window :
    ¬ ∀ (R : Runtime) (opts : FrameOptions) (frameId started agentId : Str) (calls : List FrameCall) (run : FrameRun)
      (now : Int) (request : FlowRequest), (FrameRun.start frameId started agentId opts).run R calls = .ok run →
      request.frame = some run.current → (checkDataFlow R now request).verdict ≠ .blocked →
      request.actionPrincipalId ≠ MULTI_PRINCIPAL →
      (∀ label ∈ request.inputTaint.labels ++ run.current.accessedContexts, ListsProperly label) →
      FlowGuarded R now opts run request := by
  intro h
  obtain ⟨run, hrun, hsealed, hcurrent⟩ := sample_run
  have hnone : ∀ label, label ∉ effectiveLabels (sampleRequest [] [] run.current) := by
    intro label hlabel
    exact List.not_mem_nil ((sample_labels hrun hcurrent [] [] label).mp hlabel)
  have hopen : (checkDataFlow sampleRuntime 1767225660000 (sampleRequest [] [] run.current)).verdict ≠ .blocked := by
    intro hblocked
    obtain ⟨label, hlabel, -⟩ | ⟨label, hlabel, -⟩ := blocked_iff.mp hblocked
    · exact hnone label hlabel
    · exact hnone label hlabel
  have hlists : ∀ label ∈ (sampleRequest [] [] run.current).inputTaint.labels ++ run.current.accessedContexts,
      ListsProperly label := by
    intro label hlabel
    rw [hcurrent] at hlabel
    exact absurd hlabel List.not_mem_nil
  obtain ⟨haccessed, -⟩ := h sampleRuntime sampleOptions _ _ _ _ run 1767225660000 _ hrun rfl hopen
    sample_principals.1 hlists
  have hbefore := (sample_before hsealed (lit "alice")).mpr rfl
  have hguarded := haccessed (lit "alice") (hbefore.imp id (fun ⟨frame, hframe, h⟩ =>
    ⟨frame, List.mem_append_left _ hframe, h⟩))
  obtain hown | ⟨permit, hpermit, -⟩ := hguarded
  · exact absurd hown sample_principals.2
  · exact List.not_mem_nil hpermit

end AgentPassport.FlowGate
