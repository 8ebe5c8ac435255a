import AgentPassport.ReceiptLog

/-! Writer and readers agree on every prefix of a written log. The MAC is an arbitrary
function of the chain, so only the framing and the chaining are used. -/
namespace AgentPassport.ReceiptLog
open ByteBlocks DecisionRecord

variable (B : Blake3) (macKey : Block 32)

/-- The hundred bytes one `append` writes when the chain stands at `prevMac`. -/
def entryFrame (prevMac : Block 32) (d : Decision) : List UInt8 :=
  toLe 4 logEntryPayload ++
    (d.toBytes.bytes ++ (computeRollingMac B macKey prevMac d.toBytes).bytes)

def frames : Block 32 → List Decision → List UInt8
  | _, [] => []
  | prevMac, d :: ds =>
    entryFrame B macKey prevMac d ++ frames (computeRollingMac B macKey prevMac d.toBytes) ds

def chainMac : Block 32 → List Decision → Block 32
  | prevMac, [] => prevMac
  | prevMac, d :: ds => chainMac (computeRollingMac B macKey prevMac d.toBytes) ds

def lastSequence : UInt64 → List Decision → UInt64
  | seq, [] => seq
  | _, d :: ds => lastSequence d.sequenceId ds

theorem lastSequence_eq (ds : List Decision) (seq : UInt64) :
    lastSequence seq ds = (ds.getLast?.map (·.sequenceId)).getD seq := by
  induction ds generalizing seq with
  | nil => rfl
  | cons d ds ih =>
    rw [lastSequence, ih]
    cases ds with
    | nil => rfl
    | cons e es =>
      rw [List.getLast?_cons_cons, List.getLast?_cons]
      rfl

def LogWriter.appendAll (w : LogWriter) (ds : List Decision) : LogWriter :=
  ds.foldl (LogWriter.append B) w

/-- A log that was just created: no bytes, the zero MAC. -/
def LogWriter.fresh : LogWriter := ⟨[], Block.zero 32, macKey, 0⟩

theorem appendAll_eq (ds : List Decision) (w : LogWriter) (hw : w.macKey = macKey) :
    w.appendAll B ds = ⟨w.file ++ frames B macKey w.prevMac ds,
      chainMac B macKey w.prevMac ds, macKey, w.entriesWritten + ds.length⟩ := by
  induction ds generalizing w with
  | nil =>
    subst hw
    simp [LogWriter.appendAll, frames, chainMac]
  | cons d ds ih =>
    have h := ih (w.append B d) hw
    simp only [LogWriter.appendAll, List.foldl_cons] at h ⊢
    rw [h]
    subst hw
    simp [LogWriter.append, frames, chainMac, entryFrame, Nat.add_assoc, Nat.add_comm 1]

@[simp] theorem entryFrame_length (prevMac : Block 32) (d : Decision) :
    (entryFrame B macKey prevMac d).length = 100 := by
  simp [entryFrame]

theorem frames_length (ds : List Decision) (prevMac : Block 32) :
    (frames B macKey prevMac ds).length = 100 * ds.length := by
  induction ds generalizing prevMac with
  | nil => rfl
  | cons d ds ih =>
    simp only [frames, List.length_append, entryFrame_length, ih, List.length_cons]
    omega

theorem ofLe_payload : ofLe (toLe 4 logEntryPayload) = logEntryPayload :=
  ofLe_toLe 4 logEntryPayload (by decide)

theorem entryFrame_read (prevMac : Block 32) (d : Decision) (rest : List UInt8) :
    let file := entryFrame B macKey prevMac d ++ rest
    file.take entryFrameHeader = toLe 4 logEntryPayload ∧
    (file.drop entryFrameHeader).take logEntryPayload =
      d.toBytes.bytes ++ (computeRollingMac B macKey prevMac d.toBytes).bytes ∧
    file.drop logEntryBytes = rest := by
  intro file
  have hf : file = toLe 4 logEntryPayload ++ ((d.toBytes.bytes ++
      (computeRollingMac B macKey prevMac d.toBytes).bytes) ++ rest) := by
    simp [file, entryFrame]
  refine ⟨?_, ?_, ?_⟩
  · rw [hf]
    exact List.take_left' (by simp [entryFrameHeader])
  · rw [hf, List.drop_left' (by simp [entryFrameHeader])]
    exact List.take_left' (by simp [logEntryPayload, decisionSize, rollingMacSize])
  · exact List.drop_left' (entryFrame_length B macKey prevMac d)

theorem entry_slices {payload : List UInt8} (a : Block 64) (m : Block 32)
    (hp : payload = a.bytes ++ m.bytes) (h : payload.length = 96) :
    (⟨payload, h⟩ : Block 96).slice 0 64 (by decide) = a ∧
    (⟨payload, h⟩ : Block 96).slice 64 32 (by decide) = m := by
  constructor
  · exact Block.slice_append _ a [] m.bytes _ rfl (by simpa using hp)
  · exact Block.slice_append _ m a.bytes [] _ (by simp) (by simpa using hp)

theorem header_checks {file : List UInt8}
    (hh : file.take entryFrameHeader = toLe 4 logEntryPayload) :
    (file.take entryFrameHeader).length = entryFrameHeader ∧
    ofLe (file.take entryFrameHeader) = logEntryPayload := by
  rw [hh, toLe_length]
  exact ⟨rfl, ofLe_payload⟩

theorem recoverFrom_entry (fuel : Nat) (prevMac : Block 32) (seq : UInt64)
    (entries offset : Nat) (d : Decision) (rest : List UInt8) :
    recoverFrom B macKey (fuel + 1) prevMac seq entries offset
        (entryFrame B macKey prevMac d ++ rest) =
      recoverFrom B macKey fuel (computeRollingMac B macKey prevMac d.toBytes) d.sequenceId
        (entries + 1) (offset + 100) rest := by
  obtain ⟨hh, hp, hr⟩ := entryFrame_read B macKey prevMac d rest
  obtain ⟨h4, h96⟩ := header_checks hh
  have hlen : (((entryFrame B macKey prevMac d ++ rest).drop entryFrameHeader).take
      logEntryPayload).length = 96 := by
    rw [hp]
    simp
  obtain ⟨ha, hm⟩ := entry_slices d.toBytes _ hp hlen
  rw [recoverFrom]
  simp only [h4, h96, hr]
  rw [if_neg (by decide), if_neg (by decide), if_neg (not_not_intro rfl), dif_pos hlen, ha, hm,
    if_neg (not_not_intro rfl), Decision.fromBytes_toBytes]
  rfl

theorem scanFrom_entry (fuel : Nat) (prevMac : Block 32) (entries : Nat) (d : Decision)
    (rest : List UInt8) :
    scanFrom B macKey (fuel + 1) prevMac entries (entryFrame B macKey prevMac d ++ rest) =
      scanFrom B macKey fuel (computeRollingMac B macKey prevMac d.toBytes) (entries + 1)
        rest := by
  obtain ⟨hh, hp, hr⟩ := entryFrame_read B macKey prevMac d rest
  obtain ⟨h4, h96⟩ := header_checks hh
  have hlen : (((entryFrame B macKey prevMac d ++ rest).drop entryFrameHeader).take
      logEntryPayload).length = 96 := by
    rw [hp]
    simp
  obtain ⟨ha, hm⟩ := entry_slices d.toBytes _ hp hlen
  rw [scanFrom]
  simp only [h4, h96, hr]
  rw [if_neg (by decide), if_neg (not_not_intro rfl), if_neg (not_not_intro rfl), dif_pos hlen,
    ha, hm, if_neg (not_not_intro rfl)]

theorem torn_read (prevMac : Block 32) (d : Decision) (rest : List UInt8) (j : Nat)
    (hj : j < 100) :
    let file := (entryFrame B macKey prevMac d ++ rest).take j
    (j < 4 → (file.take entryFrameHeader).length = j) ∧
    (4 ≤ j → file.take entryFrameHeader = toLe 4 logEntryPayload) ∧
    ((file.drop entryFrameHeader).take logEntryPayload).length ≠ 96 := by
  intro file
  have hl : file.length = j := by
    simp only [file, List.length_take, List.length_append, entryFrame_length]
    omega
  refine ⟨?_, ?_, ?_⟩
  · intro h4
    simp only [List.length_take, hl, entryFrameHeader]
    omega
  · intro h4
    have hh := (entryFrame_read B macKey prevMac d rest).1
    simpa [file, List.take_take, entryFrameHeader, Nat.min_eq_left h4] using hh
  · simp only [List.length_take, List.length_drop, hl, entryFrameHeader, logEntryPayload]
    omega

theorem recoverFrom_torn (fuel : Nat) (prevMac : Block 32) (seq : UInt64)
    (entries offset : Nat) (d : Decision) (rest : List UInt8) (j : Nat)
    (h0 : j ≠ 0) (hj : j < 100) :
    recoverFrom B macKey (fuel + 1) prevMac seq entries offset
        ((entryFrame B macKey prevMac d ++ rest).take j) =
      .ok ⟨seq, prevMac, entries, offset, .partialRecovery offset .incompleteEntry⟩ := by
  obtain ⟨hs, hh, hp⟩ := torn_read B macKey prevMac d rest j hj
  rw [recoverFrom]
  by_cases hlt : j < 4
  · simp only [hs hlt]
    rw [if_neg h0, if_pos (show j < entryFrameHeader from hlt)]
  · obtain ⟨h4, h96⟩ := header_checks (hh (by omega))
    simp only [h4, h96]
    rw [if_neg (by decide), if_neg (by decide), if_neg (not_not_intro rfl), dif_neg hp]

theorem scanFrom_torn (fuel : Nat) (prevMac : Block 32) (entries : Nat) (d : Decision)
    (rest : List UInt8) (j : Nat) (h0 : j ≠ 0) (hj : j < 100) :
    ∃ e, scanFrom B macKey (fuel + 1) prevMac entries
      ((entryFrame B macKey prevMac d ++ rest).take j) = .error e := by
  obtain ⟨hs, hh, hp⟩ := torn_read B macKey prevMac d rest j hj
  rw [scanFrom]
  by_cases hlt : j < 4
  · have hne : j ≠ entryFrameHeader := by
      simp only [entryFrameHeader]
      omega
    simp only [hs hlt]
    rw [if_neg h0, if_pos hne]
    exact ⟨_, rfl⟩
  · obtain ⟨h4, h96⟩ := header_checks (hh (by omega))
    refine ⟨.unexpectedEof, ?_⟩
    simp only [h4, h96]
    rw [if_neg (by decide), if_neg (not_not_intro rfl), if_neg (not_not_intro rfl), dif_neg hp]

theorem frames_take (prevMac : Block 32) (d : Decision) (ds : List Decision) {k : Nat} (hk : 100 ≤ k) :
    (frames B macKey prevMac (d :: ds)).take k = entryFrame B macKey prevMac d ++
      (frames B macKey (computeRollingMac B macKey prevMac d.toBytes) ds).take (k - 100) := by
  rw [frames, List.take_append, entryFrame_length, List.take_of_length_le (by rw [entryFrame_length]; omega)]

/-- How a walk over whole frames followed by `r` torn bytes ends. -/
def tailStatus (offset r : Nat) : RecoveryStatus :=
  if r = 0 then .cleanRecovery else .partialRecovery offset .incompleteEntry

/-- `recover_log` over the first `k` bytes of written frames: the whole frames are
recovered, and the remainder decides the status. Induction on the decisions. -/
theorem recoverFrom_take (ds : List Decision) :
    ∀ (prevMac : Block 32) (seq : UInt64) (entries offset fuel k : Nat),
      k ≤ 100 * ds.length → k / 100 < fuel →
      recoverFrom B macKey fuel prevMac seq entries offset
          ((frames B macKey prevMac ds).take k) =
        .ok ⟨lastSequence seq (ds.take (k / 100)), chainMac B macKey prevMac (ds.take (k / 100)),
          entries + k / 100, offset + 100 * (k / 100),
          tailStatus (offset + 100 * (k / 100)) (k % 100)⟩ := by
  induction ds with
  | nil =>
    intro prevMac seq entries offset fuel k hk hf
    have h0 : k = 0 := by simpa using hk
    obtain ⟨f, rfl⟩ : ∃ f, fuel = f + 1 := ⟨fuel - 1, by omega⟩
    subst h0
    simp [recoverFrom, lastSequence, chainMac, tailStatus]
  | cons d ds ih =>
    intro prevMac seq entries offset fuel k hk hf
    obtain ⟨f, rfl⟩ : ∃ f, fuel = f + 1 := ⟨fuel - 1, by omega⟩
    simp only [List.length_cons] at hk
    by_cases hlt : k < 100
    · have hq : k / 100 = 0 := by omega
      have hm : k % 100 = k := by omega
      simp only [hq, hm, List.take_zero, lastSequence, chainMac, frames, tailStatus]
      by_cases h0 : k = 0
      · subst h0
        simp [recoverFrom]
      · simp [recoverFrom_torn B macKey f prevMac seq entries offset d _ k h0 hlt, h0]
    · have hq : k / 100 = (k - 100) / 100 + 1 := by omega
      have hm : k % 100 = (k - 100) % 100 := by omega
      have h := ih (computeRollingMac B macKey prevMac d.toBytes) d.sequenceId (entries + 1)
        (offset + 100) f (k - 100) (by omega) (by omega)
      rw [frames_take B macKey _ _ _ (Nat.not_lt.mp hlt), recoverFrom_entry, h, hq, hm]
      simp only [List.take_succ_cons, lastSequence, chainMac]
      have ho : offset + 100 + 100 * ((k - 100) / 100) =
          offset + 100 * ((k - 100) / 100 + 1) := by omega
      have he : entries + 1 + (k - 100) / 100 = entries + ((k - 100) / 100 + 1) := by omega
      rw [ho, he]

theorem scanFrom_take (ds : List Decision) :
    ∀ (prevMac : Block 32) (entries fuel k : Nat),
      k ≤ 100 * ds.length → k / 100 < fuel →
      (k % 100 = 0 → scanFrom B macKey fuel prevMac entries
          ((frames B macKey prevMac ds).take k) =
        .ok (chainMac B macKey prevMac (ds.take (k / 100)), entries + k / 100)) ∧
      (k % 100 ≠ 0 → ∃ e, scanFrom B macKey fuel prevMac entries
          ((frames B macKey prevMac ds).take k) = .error e) := by
  induction ds with
  | nil =>
    intro prevMac entries fuel k hk hf
    have h0 : k = 0 := by simpa using hk
    obtain ⟨f, rfl⟩ : ∃ f, fuel = f + 1 := ⟨fuel - 1, by omega⟩
    subst h0
    simp [scanFrom, chainMac]
  | cons d ds ih =>
    intro prevMac entries fuel k hk hf
    obtain ⟨f, rfl⟩ : ∃ f, fuel = f + 1 := ⟨fuel - 1, by omega⟩
    simp only [List.length_cons] at hk
    by_cases hlt : k < 100
    · have hq : k / 100 = 0 := by omega
      have hm : k % 100 = k := by omega
      rw [hq, hm]
      constructor
      · intro h0
        subst h0
        simp [scanFrom, chainMac]
      · intro h0
        exact scanFrom_torn B macKey f prevMac entries d _ k h0 hlt
    · have hq : k / 100 = (k - 100) / 100 + 1 := by omega
      have hm : k % 100 = (k - 100) % 100 := by omega
      have he : entries + 1 + (k - 100) / 100 = entries + ((k - 100) / 100 + 1) := by omega
      have h := ih (computeRollingMac B macKey prevMac d.toBytes) (entries + 1) f (k - 100)
        (by omega) (by omega)
      rw [frames_take B macKey _ _ _ (Nat.not_lt.mp hlt), scanFrom_entry, hq, hm]
      simpa only [List.take_succ_cons, chainMac, he] using h

/-- The status a reader reports after `k` bytes of a written log. -/
def prefixStatus (k : Nat) : RecoveryStatus :=
  if k = 0 then .freshStart
  else if k % 100 = 0 then .cleanRecovery
  else .partialRecovery (100 * (k / 100)) .incompleteEntry

/-- Log round trip under truncation. Every decision is written as a hundred bytes. Cutting the log
after any `k` bytes leaves `k / 100` whole entries: `recover_log` reports exactly those, with the
writer's MAC after them and the sequence of the last, and `scan_existing` succeeds, with the same
MAC and count, exactly when nothing is torn. -/
theorem truncated_log_recovery (ds : List Decision)
    (cut : Fin (((LogWriter.fresh macKey).appendAll B ds).file.length + 1)) :
    let k := cut.val
    let file := ((LogWriter.fresh macKey).appendAll B ds).file.take k
    let kept := (LogWriter.fresh macKey).appendAll B (ds.take (k / 100))
    ((LogWriter.fresh macKey).appendAll B ds).file.length = 100 * ds.length ∧
    recoverLog B (some file) macKey = .ok {
      lastCommittedSequenceId := ((ds.take (k / 100)).getLast?.map (·.sequenceId)).getD 0
      lastRollingMac := kept.prevMac
      entriesRecovered := k / 100
      validThroughOffset := 100 * (k / 100)
      status := prefixStatus k } ∧
    ∀ r, scanExisting B file macKey = .ok r ↔
      (r = (kept.prevMac, k / 100) ∧
        (prefixStatus k = .freshStart ∨ prefixStatus k = .cleanRecovery)) := by
  intro k file kept
  have hk : k ≤ ((LogWriter.fresh macKey).appendAll B ds).file.length :=
    Nat.le_of_lt_succ cut.isLt
  have hw : (LogWriter.fresh macKey).appendAll B ds = ⟨frames B macKey (Block.zero 32) ds,
      chainMac B macKey (Block.zero 32) ds, macKey, 0 + ds.length⟩ :=
    appendAll_eq B macKey ds _ rfl
  have hkept : kept.prevMac = chainMac B macKey (Block.zero 32) (ds.take (k / 100)) := by
    simp only [kept, appendAll_eq B macKey (ds.take (k / 100)) (LogWriter.fresh macKey) rfl]
    rfl
  have hfile : file = (frames B macKey (Block.zero 32) ds).take k := by
    simp only [file, hw]
  have hwritten : ((LogWriter.fresh macKey).appendAll B ds).file.length = 100 * ds.length := by
    rw [hw, frames_length]
  rw [hwritten] at hk
  have hlen : file.length = k := by
    rw [hfile, List.length_take, frames_length]
    omega
  have hfuel : k / 100 < file.length + 1 := by
    rw [hlen]
    omega
  refine ⟨hwritten, ?_, ?_⟩
  · by_cases h0 : k = 0
    · simp [recoverLog, hlen, h0, hkept, prefixStatus, RecoveryReport.freshStart, chainMac]
    · rw [recoverLog, if_neg (by rwa [hlen])]
      rw [hfile] at hfuel ⊢
      rw [recoverFrom_take B macKey ds _ 0 0 0 _ k hk hfuel, hkept, lastSequence_eq]
      simp [tailStatus, prefixStatus, h0]
  · intro r
    have hs := scanFrom_take B macKey ds (Block.zero 32) 0 (file.length + 1) k hk hfuel
    rw [← hfile] at hs
    have hclean : (prefixStatus k = .freshStart ∨ prefixStatus k = .cleanRecovery) ↔
        k % 100 = 0 := by
      unfold prefixStatus
      by_cases h0 : k = 0
      · simp [h0]
      · by_cases hm : k % 100 = 0 <;> simp [h0, hm]
    rw [hclean, hkept, scanExisting]
    by_cases hm : k % 100 = 0
    · rw [hs.1 hm]
      simp [hm, eq_comm]
    · obtain ⟨e, he⟩ := hs.2 hm
      rw [he]
      simp [hm]

end AgentPassport.ReceiptLog
