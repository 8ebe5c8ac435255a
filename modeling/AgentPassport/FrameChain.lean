import AgentPassport.FlowGate

/-! The hash chain of a frame and the chain of its epochs. A step's input can be read back: the hash
before it ends where the label's brace opens, and the index begins after the last brace. -/
namespace AgentPassport.FrameChain
open JsText Js ByteBlocks Sha256 Utf8 LegacyCanonical CrossChain FlowGate Outcome

theorem split_first {β : Type*} {mark : β} {a a' b b' : List β} (ha : mark ∉ a) (ha' : mark ∉ a')
    (h : a ++ mark :: b = a' ++ mark :: b') : a = a' ∧ b = b' := by
  induction a generalizing a' with
  | nil =>
    cases a' with
    | nil => exact ⟨rfl, (List.cons.inj h).2⟩
    | cons c a' =>
      rw [(List.cons.inj h).1] at ha'
      exact absurd List.mem_cons_self ha'
  | cons c a ih =>
    cases a' with
    | nil =>
      rw [(List.cons.inj h).1] at ha
      exact absurd List.mem_cons_self ha
    | cons c' a' =>
      obtain ⟨hc, hrest⟩ := List.cons.inj h
      obtain ⟨hfirst, hsecond⟩ := ih (fun hm => ha (List.mem_cons_of_mem _ hm))
        (fun hm => ha' (List.mem_cons_of_mem _ hm)) hrest
      exact ⟨by rw [hc, hfirst], hsecond⟩

theorem split_last {β : Type*} {mark : β} {a a' b b' : List β} (hb : mark ∉ b) (hb' : mark ∉ b')
    (h : a ++ mark :: b = a' ++ mark :: b') : a = a' ∧ b = b' := by
  have hreverse := congrArg List.reverse h
  simp only [List.reverse_append, List.reverse_cons, List.append_assoc, List.singleton_append] at hreverse
  obtain ⟨hsecond, hfirst⟩ := split_first (fun hm => hb (List.mem_reverse.mp hm))
    (fun hm => hb' (List.mem_reverse.mp hm)) hreverse
  exact ⟨List.reverse_injective hfirst, List.reverse_injective hsecond⟩

theorem insertionSort_of_strict {β : Type*} {r : β → β → Prop} [DecidableRel r] {sorted listed : List β}
    (hsorted : sorted.Pairwise (fun a b => r a b ∧ ¬ r b a)) (h : listed.Perm sorted) :
    listed.insertionSort r = sorted := by
  induction listed generalizing sorted with
  | nil => exact (List.nil_perm.mp h).symm
  | cons x rest ih =>
    obtain ⟨before, after, rfl⟩ := List.append_of_mem (h.mem_iff.mp List.mem_cons_self)
    have hrest : rest.Perm (before ++ after) := (h.trans List.perm_middle).cons_inv
    obtain ⟨hbefore, hafter, hacross⟩ := List.pairwise_append.mp hsorted
    obtain ⟨hx, hafter'⟩ := List.pairwise_cons.mp hafter
    have hkept := List.pairwise_append.mpr ⟨hbefore, hafter',
      fun a ha b hb => hacross a ha b (List.mem_cons_of_mem _ hb)⟩
    rw [List.insertionSort_cons, ih hkept hrest]
    have hlow : ∀ a ∈ before, ¬ r x a := fun a ha => (hacross a ha x List.mem_cons_self).2
    clear hsorted h hrest hkept ih hbefore hacross
    induction before with
    | nil =>
      cases after with
      | nil => rfl
      | cons b after => exact List.orderedInsert_cons_of_le _ _ (hx b List.mem_cons_self).1
    | cons a before ih =>
      rw [List.cons_append, List.orderedInsert_of_not_le _ _ (hlow a List.mem_cons_self),
        ih (fun b hb => hlow b (List.mem_cons_of_mem _ hb)), List.cons_append]

section
variable (R : Runtime)

def labelText (label : TaintLabel) : Str :=
  match canonicalize R.numText (labelValue label) with
  | .ok text => text.getD []
  | .error _ => []

def stepHash (previousStepHash : Str) (taint : TaintLabel) (stepIndex : Nat) : Str :=
  hex (R.sha256 (stepInput previousStepHash (labelText R taint) stepIndex))

/-- The head after the accesses from position `i` on. -/
def headAfter (i : Nat) (head : Str) : List TaintLabel → Str
  | [] => head
  | taint :: rest => headAfter (i + 1) (stepHash R head taint i) rest

def chainInputs (i : Nat) (head : Str) : List TaintLabel → List (List UInt8)
  | [] => []
  | taint :: rest =>
    stepInput head (labelText R taint) i :: chainInputs (i + 1) (stepHash R head taint i) rest

end

section
variable {R : Runtime}

theorem labelText_eq (label : TaintLabel) :
    (∃ inner, WellFormed inner ∧ labelText R label = lit "\x7b" ++ inner ++ lit "\x7d") ∧
    canonicalize R.numText (labelValue label) = .ok (some (labelText R label)) ∧
    ∀ path, canonicalizeForWrite R.numText path (labelValue label) = .ok (some (labelText R label)) := by
  obtain ⟨inner, hinner, hread, hwrite⟩ := label_written R.numText label
  have htext : labelText R label = lit "\x7b" ++ inner ++ lit "\x7d" := by
    rw [labelText, hread]
    rfl
  rw [htext]
  exact ⟨⟨inner, hinner, rfl⟩, hread, hwrite⟩

theorem computeStepHash_ok (previousStepHash : Str) (taint : TaintLabel) (stepIndex : Nat) :
    computeStepHash R previousStepHash taint stepIndex = .ok (stepHash R previousStepHash taint stepIndex) ∧
    computeStepHashForWrite R previousStepHash taint stepIndex = .ok (stepHash R previousStepHash taint stepIndex) := by
  obtain ⟨-, hread, hwrite⟩ := labelText_eq (R := R) taint
  rw [computeStepHash, computeStepHashForWrite, hread, hwrite, stepHash]
  generalize labelText R taint = text
  exact ⟨rfl, rfl⟩

theorem replay_ok (i : Nat) (head : Str) (taints : List TaintLabel) :
    replay R i head taints = .ok (headAfter R i head taints) := by
  induction taints generalizing i head with
  | nil => rfl
  | cons taint rest ih =>
    rw [replay, (computeStepHash_ok head taint i).1]
    exact ih (i + 1) (stepHash R head taint i)

theorem headAfter_concat (i : Nat) (head : Str) (taints : List TaintLabel) (taint : TaintLabel) :
    headAfter R i head (taints ++ [taint]) = stepHash R (headAfter R i head taints) taint (i + taints.length) := by
  induction taints generalizing i head with
  | nil => rfl
  | cons first rest ih =>
    rw [List.cons_append, headAfter, ih, headAfter, List.length_cons, Nat.add_right_comm, Nat.add_assoc]

theorem chainInputs_concat (i : Nat) (head : Str) (taints : List TaintLabel) (taint : TaintLabel) :
    chainInputs R i head (taints ++ [taint]) =
      chainInputs R i head taints ++
        [stepInput (headAfter R i head taints) (labelText R taint) (i + taints.length)] := by
  induction taints generalizing i head with
  | nil => rfl
  | cons first rest ih =>
    rw [List.cons_append, chainInputs, ih, chainInputs, headAfter, List.length_cons, List.cons_append,
      Nat.add_right_comm, Nat.add_assoc]

theorem headAfter_cases (taints : List TaintLabel) :
    taints = [] ∧ headAfter R 0 [] taints = [] ∨ ∃ digest : Block 32, headAfter R 0 [] taints = hex digest := by
  induction taints using List.reverseRecOn with
  | nil => exact .inl ⟨rfl, rfl⟩
  | append_singleton rest taint _ =>
    rw [headAfter_concat]
    exact .inr ⟨_, rfl⟩

theorem headAfter_hex (taints : List TaintLabel) : ∀ c ∈ headAfter R 0 [] taints, isLowerHex c = true := by
  obtain ⟨-, hnil⟩ | ⟨digest, hhex⟩ := headAfter_cases (R := R) taints
  · rw [hnil]
    exact fun c hc => absurd hc List.not_mem_nil
  · rw [hhex]
    exact lower_of_bytesToHex digest.bytes

theorem digit_lowerHex {c : UInt16} (h : isDigit c = true) : isLowerHex c = true := by
  rw [isLowerHex, h, Bool.true_or]

theorem notMem_of_lowerHex {s : Str} {mark : UInt16} (hmark : 0x67 ≤ mark.toNat)
    (h : ∀ c ∈ s, isLowerHex c = true) : mark ∉ s :=
  fun hmem => Nat.not_lt.mpr hmark (lowerHex_lt (h mark hmem))

theorem decimal_lowerHex (i : Nat) : ∀ c ∈ decimal i, isLowerHex c = true :=
  fun _ hc => digit_lowerHex (decimal_digits hc)

theorem stepInput_eq {head inner : Str} (hhead : WellFormed head) (hinner : WellFormed inner) (i : Nat) :
    stepInput head (lit "\x7b" ++ inner ++ lit "\x7d") i =
      utf8 (head ++ 0x7B :: (inner ++ 0x7D :: decimal i)) := by
  have htext : WellFormed (lit "\x7b" ++ inner ++ lit "\x7d") :=
    wellFormed_append (wellFormed_append (by decide) hinner) (by decide)
  have hsplit : head ++ 0x7B :: (inner ++ 0x7D :: decimal i) =
      head ++ ((lit "\x7b" ++ inner ++ lit "\x7d") ++ decimal i) := by
    rw [List.append_assoc, List.append_assoc]
    rfl
  rw [stepInput, hsplit, utf8_append hhead, utf8_append htext, List.append_assoc]

theorem wellFormed_step {head inner : Str} (hhead : WellFormed head) (hinner : WellFormed inner) (i : Nat) :
    WellFormed (head ++ 0x7B :: (inner ++ 0x7D :: decimal i)) := by
  have hopen : WellFormed [0x7B] := by decide
  have hclose : WellFormed [0x7D] := by decide
  have hdecimal := wellFormed_of_lowerHex (decimal_lowerHex i)
  exact wellFormed_append hhead (wellFormed_append hopen (wellFormed_append hinner (wellFormed_append hclose hdecimal)))

theorem stepInput_inj {head head' : Str} {label label' : TaintLabel} {i i' : Nat}
    (hhead : ∀ c ∈ head, isLowerHex c = true) (hhead' : ∀ c ∈ head', isLowerHex c = true)
    (h : stepInput head (labelText R label) i = stepInput head' (labelText R label') i') :
    head = head' ∧ labelText R label = labelText R label' ∧ i = i' := by
  obtain ⟨⟨inner, hinner, htext⟩, -⟩ := labelText_eq (R := R) label
  obtain ⟨⟨inner', hinner', htext'⟩, -⟩ := labelText_eq (R := R) label'
  have hwell := wellFormed_of_lowerHex hhead
  have hwell' := wellFormed_of_lowerHex hhead'
  rw [htext, htext', stepInput_eq hwell hinner, stepInput_eq hwell' hinner'] at h
  have htexts := utf8_inj (wellFormed_step hwell hinner i) (wellFormed_step hwell' hinner' i') h
  obtain ⟨hheads, hrest⟩ := split_first (notMem_of_lowerHex (by decide) hhead) (notMem_of_lowerHex (by decide) hhead')
    htexts
  obtain ⟨hinners, hindex⟩ := split_last (notMem_of_lowerHex (by decide) (decimal_lowerHex i))
    (notMem_of_lowerHex (by decide) (decimal_lowerHex i')) hrest
  refine ⟨hheads, ?_, decimal_injective hindex⟩
  rw [htext, htext', hinners]

theorem labels_of_head {taints taints' : List TaintLabel}
    (hfree : CollisionFree R.sha256 (chainInputs R 0 [] taints ++ chainInputs R 0 [] taints'))
    (h : headAfter R 0 [] taints = headAfter R 0 [] taints') :
    taints.map (labelText R) = taints'.map (labelText R) := by
  induction taints using List.reverseRecOn generalizing taints' with
  | nil =>
    obtain ⟨rfl, -⟩ | ⟨digest, hhex⟩ := headAfter_cases (R := R) taints'
    · rfl
    · have hlength := congrArg List.length (h.trans hhex)
      rw [hex, Multibase.bytesToHex_length, digest.size] at hlength
      cases hlength
  | append_singleton rest taint ih =>
    induction taints' using List.reverseRecOn with
    | nil =>
      rw [headAfter_concat] at h
      have hlength := congrArg List.length h
      rw [stepHash, hex, Multibase.bytesToHex_length, (R.sha256 _).size] at hlength
      cases hlength
    | append_singleton rest' taint' _ =>
      rw [headAfter_concat, headAfter_concat] at h
      rw [chainInputs_concat, chainInputs_concat] at hfree
      obtain ⟨hheads, htext, -⟩ := stepInput_inj (headAfter_hex rest) (headAfter_hex rest') (hfree _
        (List.mem_append_left _ (List.mem_append_right _ (List.mem_singleton_self _))) _
        (List.mem_append_right _ (List.mem_append_right _ (List.mem_singleton_self _))) (hex_inj h))
      have hrest := ih (hfree.mono ?_) hheads
      · rw [List.map_append, List.map_append, hrest, List.map_singleton, List.map_singleton, htext]
      · intro x hx
        obtain hx | hx := List.mem_append.mp hx
        · exact List.mem_append_left _ (List.mem_append_left _ hx)
        · exact List.mem_append_right _ (List.mem_append_left _ hx)

/-- The head and the step count are those of the accesses. -/
def ChainValid (R : Runtime) (frame : ExecutionFrame) : Prop :=
  headAfter R 0 [] frame.accessedContexts = frame.chainHead.getD [] ∧
    frame.stepCount = frame.accessedContexts.length

theorem verifyFrameChain_iff {frame : ExecutionFrame} :
    verifyFrameChain R frame = .ok ⟨true, none⟩ ↔ ChainValid R frame := by
  rw [verifyFrameChain, replay_ok, ChainValid]
  by_cases hhead : headAfter R 0 [] frame.accessedContexts = frame.chainHead.getD []
  · by_cases hcount : frame.stepCount = frame.accessedContexts.length
    · simp [bind, Except.bind, hhead, hcount, pure, Except.pure]
    · simp [bind, Except.bind, hhead, hcount, pure, Except.pure]
  · simp [bind, Except.bind, hhead, pure, Except.pure]

/-- An epoch follows another when its frame was made by rotating the other's. -/
def Follows (prev curr : ExecutionFrame) : Prop :=
  curr.epoch = prev.epoch.add (.finite .one) ∧ curr.previousFrameChainHead = headOrUndefined prev.chainHead

/-- Every frame of the run has its chain, and every epoch follows the one before it. -/
structure Linked (R : Runtime) (run : FrameRun) : Prop where
  valid : ∀ frame ∈ run.frames, ChainValid R frame
  follows : run.frames.IsChain Follows

theorem Linked.start (frameId now agentId : Str) (opts : FrameOptions) : Linked R (.start frameId now agentId opts) where
  valid := by
    intro frame hframe
    rw [List.mem_singleton.mp hframe]
    exact ⟨rfl, rfl⟩
  follows := List.isChain_singleton _

theorem Linked.step {run run' : FrameRun} {call : FrameCall} (hl : Linked R run) (h : run.step R call = .ok run') :
    Linked R run' := by
  have hcurrent := hl.valid run.current (List.mem_append_right _ (List.mem_singleton_self _))
  have hsealed : ∀ frame ∈ run.sealedFrames, ChainValid R frame :=
    fun frame hframe => hl.valid frame (List.mem_append_left _ hframe)
  obtain ⟨hbefore, -, hlast⟩ := List.isChain_append.mp hl.follows
  obtain ⟨taint, stepHash', -, hstep, rfl⟩ | ⟨frameId, now, ttlMinutes, -, rfl⟩ := step_cases h
  · rw [(computeStepHash_ok _ taint _).2] at hstep
    cases hstep
    constructor
    · refine List.forall_mem_append.mpr ⟨hsealed, List.forall_mem_singleton.mpr ⟨?_, ?_⟩⟩
      · rw [headAfter_concat, hcurrent.1, hcurrent.2, Nat.zero_add]
        rfl
      · rw [List.length_append, hcurrent.2]
        rfl
    · refine List.isChain_append.mpr ⟨hbefore, List.isChain_singleton _, ?_⟩
      intro x hx y hy
      cases hy
      exact hlast x hx run.current rfl
  · constructor
    · refine List.forall_mem_append.mpr ⟨List.forall_mem_append.mpr ⟨hsealed, ?_⟩, ?_⟩
      · exact List.forall_mem_singleton.mpr hcurrent
      · exact List.forall_mem_singleton.mpr ⟨rfl, rfl⟩
    · refine List.isChain_append.mpr ⟨List.isChain_append.mpr ⟨hbefore, List.isChain_singleton _, ?_⟩,
        List.isChain_singleton _, ?_⟩
      · intro x hx y hy
        cases hy
        exact hlast x hx run.current rfl
      · intro x hx y hy
        rw [List.getLast?_concat] at hx
        cases hx
        cases hy
        exact ⟨rfl, rfl⟩

variable {frameId now agentId : Str} {calls : List FrameCall} {run : FrameRun} {opts : FrameOptions}

theorem Linked.of_run (h : (FrameRun.start frameId now agentId opts).run R calls = .ok run) : Linked R run :=
  run_induction (fun _ _ _ hl hstep => hl.step hstep) (.start frameId now agentId opts) h

def Raised (frame : ExecutionFrame) : Prop := frame.epoch.lt (frame.epoch.add (.finite .one)) = true

theorem verifyLinks_ok {prev : ExecutionFrame} {rest : List ExecutionFrame}
    (hvalid : ∀ frame ∈ prev :: rest, ChainValid R frame) (hfollows : (prev :: rest).IsChain Follows)
    (hraised : ∀ frame ∈ (prev :: rest).dropLast, Raised frame) : verifyLinks R prev rest = .ok ⟨true, none⟩ := by
  induction rest generalizing prev with
  | nil =>
    rw [verifyLinks, verifyFrameChain_iff.mpr (hvalid prev List.mem_cons_self)]
    rfl
  | cons curr rest ih =>
    obtain ⟨hprev, hrest⟩ := List.forall_mem_cons.mp hvalid
    obtain ⟨hfollow, hchain⟩ := List.isChain_cons_cons.mp hfollows
    rw [List.dropLast_cons_cons] at hraised
    obtain ⟨hraise, hraises⟩ := List.forall_mem_cons.mp hraised
    have hepoch : curr.epoch.eq (prev.epoch.add (.finite .one)) = true := by
      rw [hfollow.1]
      exact JsNumber.eq_of_lt hraise
    have hhead : curr.previousFrameChainHead.getD [] = prev.chainHead.getD [] := by
      rw [hfollow.2, headOrUndefined]
      cases prev.chainHead with
      | none => rfl
      | some head =>
        rw [Option.filter_some]
        by_cases hnil : head = []
        · rw [hnil]
          rfl
        · rw [if_pos (decide_eq_true hnil)]
    rw [verifyLinks, hepoch, Bool.not_true, if_neg Bool.false_ne_true, if_neg (not_not.mpr hhead),
      verifyFrameChain_iff.mpr hprev]
    exact ih hrest hchain hraises

theorem epochs_sorted {frames : List ExecutionFrame} (hfollows : frames.IsChain Follows)
    (hraised : ∀ frame ∈ frames.dropLast, Raised frame) :
    frames.Pairwise (fun a b => notAfter a b = true ∧ ¬ notAfter b a = true) := by
  have htrans : IsTrans ExecutionFrame (fun a b => a.epoch.lt b.epoch = true) := ⟨fun _ _ _ => JsNumber.lt_trans⟩
  have hrising : frames.IsChain (fun a b => a.epoch.lt b.epoch = true) := by
    induction frames with
    | nil => exact List.isChain_nil
    | cons prev rest ih =>
      cases rest with
      | nil => exact List.isChain_singleton _
      | cons curr rest =>
        obtain ⟨hfollow, hchain⟩ := List.isChain_cons_cons.mp hfollows
        rw [List.dropLast_cons_cons] at hraised
        obtain ⟨hraise, hraises⟩ := List.forall_mem_cons.mp hraised
        refine List.isChain_cons_cons.mpr ⟨?_, ih hchain hraises⟩
        rw [hfollow.1]
        exact hraise
  refine (List.isChain_iff_pairwise.mp hrising).imp ?_
  intro a b hlt
  rw [notAfter, notAfter, JsNumber.sub_pos, JsNumber.sub_pos, hlt, JsNumber.lt_asymm hlt]
  decide

theorem verifyEpochChain_ok (hl : Linked R run) (hraised : ∀ frame ∈ run.sealedFrames, Raised frame)
    {listed : List ExecutionFrame} (h : listed.Perm run.frames) : verifyEpochChain R listed = .ok ⟨true, none⟩ := by
  have hdrop : run.frames.dropLast = run.sealedFrames := List.dropLast_concat
  have hsorted := insertionSort_of_strict (epochs_sorted hl.follows (hdrop.symm ▸ hraised)) h
  rw [verifyEpochChain, hsorted]
  cases hframes : run.frames with
  | nil => rfl
  | cons first rest =>
    rw [hframes] at hdrop
    exact verifyLinks_ok (hframes ▸ hl.valid) (hframes ▸ hl.follows) (hdrop.symm ▸ hraised)

theorem raised_of_count {frames : List ExecutionFrame} {k : Nat} (hfollows : frames.IsChain Follows)
    (hfirst : ∀ frame ∈ frames.head?, frame.epoch.IsNat k) (hbound : k + frames.length < 2 ^ 53) :
    ∀ frame ∈ frames, Raised frame := by
  induction frames generalizing k with
  | nil => exact fun frame hframe => absurd hframe List.not_mem_nil
  | cons frame rest ih =>
    rw [List.length_cons] at hbound
    have hepoch := hfirst frame rfl
    have hnext := hepoch.succ (by omega : k + 1 < 2 ^ 53)
    refine List.forall_mem_cons.mpr ⟨hepoch.lt hnext (Nat.lt_succ_self k), ?_⟩
    cases rest with
    | nil => exact fun frame hframe => absurd hframe List.not_mem_nil
    | cons curr rest =>
      obtain ⟨hfollow, hchain⟩ := List.isChain_cons_cons.mp hfollows
      refine @ih (k + 1) hchain ?_ (by omega)
      intro f hf
      cases hf
      rw [hfollow.1]
      exact hnext

theorem first_epoch (h : (FrameRun.start frameId now agentId opts).run R calls = .ok run) :
    run.frames.head?.map (·.epoch) = some (opts.epoch.getD (zeroOf false)) := by
  refine run_induction (P := fun run => run.frames.head?.map (·.epoch) = some (opts.epoch.getD (zeroOf false)))
    ?_ rfl h
  intro run call run' hfirst hstep
  obtain ⟨taint, stepHash', -, -, rfl⟩ | ⟨frameId', now', ttlMinutes, -, rfl⟩ := step_cases hstep
  · rw [← hfirst, FrameRun.frames, FrameRun.frames]
    cases run.sealedFrames <;> rfl
  · rw [← hfirst, FrameRun.frames, FrameRun.frames]
    cases run.sealedFrames <;> rfl

theorem raised_of_default (hdefault : opts.epoch = none)
    (h : (FrameRun.start frameId now agentId opts).run R calls = .ok run) (hcount : run.frames.length < 2 ^ 32) :
    ∀ frame ∈ run.frames, Raised frame := by
  refine @raised_of_count run.frames 0 (Linked.of_run h).follows ?_ (by omega)
  intro frame hframe
  have hepoch := first_epoch h
  rw [hdefault, Option.mem_def.mp hframe] at hepoch
  have hzero : frame.epoch = zeroOf false := Option.some.inj hepoch
  rw [hzero]
  exact isNat_zero

/-- The head of a frame commits to its accesses, and the frames of a run to each other. -/
theorem frame_chain (R : Runtime) :
    (∀ (frameId now agentId : Str) (opts : FrameOptions) (calls : List FrameCall) (run : FrameRun),
      (FrameRun.start frameId now agentId opts).run R calls = .ok run →
      (∀ frame ∈ run.frames, verifyFrameChain R frame = .ok ⟨true, none⟩) ∧
      (((∀ frame ∈ run.sealedFrames, Raised frame) ∨ opts.epoch = none ∧ run.frames.length < 2 ^ 32) →
        ∀ listed, listed.Perm run.frames → verifyEpochChain R listed = .ok ⟨true, none⟩)) ∧
    ∀ frame frame' : ExecutionFrame,
      CollisionFree R.sha256 (chainInputs R 0 [] frame.accessedContexts ++ chainInputs R 0 [] frame'.accessedContexts) →
      verifyFrameChain R frame = .ok ⟨true, none⟩ → verifyFrameChain R frame' = .ok ⟨true, none⟩ →
      frame.chainHead = frame'.chainHead →
      frame.accessedContexts.length = frame'.accessedContexts.length ∧
      frame.accessedContexts.map (fun label => canonicalize R.numText (labelValue label)) =
        frame'.accessedContexts.map (fun label => canonicalize R.numText (labelValue label)) := by
  refine ⟨?_, ?_⟩
  · intro frameId now agentId opts calls run hrun
    have hlinked := Linked.of_run hrun
    refine ⟨fun frame hframe => verifyFrameChain_iff.mpr (hlinked.valid frame hframe), ?_⟩
    intro hraised listed hperm
    refine verifyEpochChain_ok hlinked ?_ hperm
    obtain hall | ⟨hdefault, hcount⟩ := hraised
    · exact hall
    · intro frame hframe
      exact raised_of_default hdefault hrun hcount frame (List.mem_append_left _ hframe)
  · intro frame frame' hfree hvalid hvalid' hhead
    obtain ⟨hchain, -⟩ := verifyFrameChain_iff.mp hvalid
    obtain ⟨hchain', -⟩ := verifyFrameChain_iff.mp hvalid'
    have hlabels := labels_of_head hfree (by rw [hchain, hchain', hhead])
    have hlength := congrArg List.length hlabels
    rw [List.length_map, List.length_map] at hlength
    refine ⟨hlength, ?_⟩
    have hwritten : (fun label => canonicalize R.numText (labelValue label)) =
        (fun text => (.ok (some text) : Except LegacyError (Option Str))) ∘ labelText R :=
      funext (fun label => (labelText_eq label).2.1)
    rw [hwritten, ← List.map_map, ← List.map_map, hlabels]

end

/-! Two accesses, a rotation, and the frames listed latest first. -/

def firstHead : Str := lit "3acca83b51a70920519763e8b935eb1e16c830028abb405ee3b2ff80fb20696f"

def sampleHead : Str := lit "8ccb6e828ab9839bb8427ac0a5217b52a753fb4dc6820205b53aec1d98e4e52c"

def swappedFirst : Str := lit "d525dc61ba6830f3e6662cc0b107da85518ba815a428041bd4d8def49046c216"

def otherLabel : TaintLabel := { sampleLabel with ref := 2, principalId := lit "bob" }

def sampleText (principalId : Str) : Str :=
  lit "\x7b\"chainId\":\"chain-a\",\"delegationId\":\"del-a\",\"principalId\":\"" ++ principalId ++
    lit "\",\"taintedAt\":\"2026-01-01T00:00:00.000Z\",\"usage\":\"same-context-only\"\x7d"

/-- The digests of the steps, in the order of the accesses and in the other. -/
def sampleRuntime : Runtime where
  numText _ := []
  sha256 := Sha256.ofTable [
    (utf8 (sampleText (lit "alice") ++ lit "0"), firstHead),
    (utf8 (firstHead ++ sampleText (lit "bob") ++ lit "1"), sampleHead),
    (utf8 (sampleText (lit "bob") ++ lit "0"), swappedFirst),
    (utf8 (swappedFirst ++ sampleText (lit "alice") ++ lit "1"),
      lit "72351fe47cb3cf22d9f853fb2c5671f07d03dbb4a0f3ae63df799aa631156fbf")]
  sign _ _ := none
  verify _ _ _ := false

def sampleRun (epoch : Option JsNumber) : Except FrameError FrameRun :=
  (FrameRun.start (lit "frame-1") (lit "2026-01-01T00:00:00.000Z") (lit "agent") ⟨none, epoch, none, none⟩).run
    sampleRuntime [.recordAccess sampleLabel, .recordAccess otherLabel,
      .rotateFrame (lit "frame-2") (lit "2026-01-01T00:01:00.000Z") none]

def sampleFrame : ExecutionFrame :=
  { createExecutionFrame (lit "frame-1") [] [] ⟨none, none, none, none⟩ with
    accessedContexts := [sampleLabel, otherLabel]
    chainHead := some sampleHead
    stepCount := 2 }

/-- The frames of the run are a chain, and no frame of the same accesses in the other order has the head. -/
theorem frame_chain_sample :
    (∃ run, sampleRun none = .ok run ∧ verifyEpochChain sampleRuntime run.frames.reverse = .ok ⟨true, none⟩) ∧
    verifyFrameChain sampleRuntime sampleFrame = .ok ⟨true, none⟩ ∧
    ∀ frame : ExecutionFrame, frame.accessedContexts = [otherLabel, sampleLabel] →
      verifyFrameChain sampleRuntime frame = .ok ⟨true, none⟩ → frame.chainHead ≠ some sampleHead := by
  obtain ⟨hruns, hheads⟩ := frame_chain sampleRuntime
  have hlength : (sampleRun none).toOption.map (fun run => run.frames.length) = some 2 := by decide +kernel
  obtain ⟨run, hrun, hlength⟩ := exists_ok_of_map hlength
  have hcount : run.frames.length < 2 ^ 32 := by
    rw [hlength]
    decide
  have hepochs := (hruns _ _ _ _ _ run hrun).2 (.inr ⟨rfl, hcount⟩) run.frames.reverse (List.reverse_perm _)
  have hvalid : verifyFrameChain sampleRuntime sampleFrame = .ok ⟨true, none⟩ := by decide +kernel
  refine ⟨⟨run, hrun, hepochs⟩, hvalid, ?_⟩
  intro frame hswapped hchain hhead
  have hfree : CollisionFree sampleRuntime.sha256 (chainInputs sampleRuntime 0 [] [sampleLabel, otherLabel] ++
      chainInputs sampleRuntime 0 [] [otherLabel, sampleLabel]) := by
    decide +kernel
  have hlabels := (hheads sampleFrame frame (by rw [hswapped]; exact hfree) hvalid hchain hhead.symm).2
  rw [hswapped] at hlabels
  exact absurd (List.cons.inj hlabels).1 (by decide +kernel)

/-- An epoch number that adding one does not raise leaves the epochs without an order. -/
theorem unraised_epoch_rejected :
    ¬ ∀ (R : Runtime) (frameId now agentId : Str) (opts : FrameOptions) (calls : List FrameCall) (run : FrameRun),
      (FrameRun.start frameId now agentId opts).run R calls = .ok run →
      ∀ listed, listed.Perm run.frames → verifyEpochChain R listed = .ok ⟨true, none⟩ := by
  intro h
  have hrejects : (sampleRun (some .nan)).toOption.map (fun run =>
      (verifyEpochChain sampleRuntime run.frames).toOption.map (·.valid)) = some (some false) := by
    decide +kernel
  obtain ⟨run, hrun, hrejects⟩ := exists_ok_of_map hrejects
  rw [h sampleRuntime _ _ _ _ _ run hrun run.frames (.refl _)] at hrejects
  cases hrejects

end AgentPassport.FrameChain
