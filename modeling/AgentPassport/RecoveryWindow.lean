import AgentPassport.Outcome
import AgentPassport.ReceiptRoundTrip
import AgentPassport.CheckInterleaving

/-! Which entries of an arbitrary log file recovery takes over, and when the authority it
builds stays inside the passport's sequence window. -/
namespace AgentPassport.RecoveryWindow
open Outcome ByteBlocks DecisionRecord ReceiptLog ToolRegistry ResourceTrie CompiledAuthority CheckConditions
open CheckInterleaving Interleaving

variable (B : Blake3) (macKey : Block 32)

/-- The file starts with an intact entry of the chain standing at `prevMac`. -/
def StartsWithEntry (prevMac : Block 32) (file : List UInt8) : Prop :=
  ∃ d rest, file = entryFrame B macKey prevMac d ++ rest

/-- `ds` are the entries of the longest valid chain the file starts with. -/
structure Committed (file : List UInt8) (ds : List Decision) : Prop where
  chain : ∃ rest, file = frames B macKey (Block.zero 32) ds ++ rest ∧
    ¬ StartsWithEntry B macKey (chainMac B macKey (Block.zero 32) ds) rest

variable {file : List UInt8}

variable {prevMac : Block 32} {d : Decision}

theorem frame_of_checks (hlen : (file.take entryFrameHeader).length = 4)
    (hword : ofLe (file.take entryFrameHeader) = logEntryPayload)
    (h96 : ((file.drop entryFrameHeader).take logEntryPayload).length = 96)
    (hmac : computeRollingMac B macKey prevMac ((⟨_, h96⟩ : Block 96).slice 0 64 (by decide)) = (⟨_, h96⟩ : Block 96).slice 64 32 (by decide))
    (hd : Decision.fromBytes ((⟨_, h96⟩ : Block 96).slice 0 64 (by decide)) = .ok d) :
    file = entryFrame B macKey prevMac d ++ file.drop logEntryBytes := by
  have hbytes := Decision.toBytes_fromBytes hd
  have hhead : file.take entryFrameHeader = toLe 4 logEntryPayload := by
    have h := toLe_ofLe (file.take entryFrameHeader)
    rw [hlen, hword] at h
    exact h.symm
  have hpay : (file.drop entryFrameHeader).take logEntryPayload =
      d.toBytes.bytes ++ (computeRollingMac B macKey prevMac d.toBytes).bytes := by
    rw [hbytes, hmac]
    have h0 := (⟨_, h96⟩ : Block 96).slice_drop 0 64 (by decide)
    have h64 : ((⟨_, h96⟩ : Block 96).slice 64 32 (by decide)).bytes =
        ((file.drop entryFrameHeader).take logEntryPayload).drop 64 :=
      List.take_of_length_le (by simp [h96])
    rw [h64]
    exact h0.symm
  have hsplit : file.drop entryFrameHeader =
      (file.drop entryFrameHeader).take logEntryPayload ++ file.drop logEntryBytes := by
    rw [show logEntryBytes = entryFrameHeader + logEntryPayload from rfl, ← List.drop_drop,
      List.take_append_drop]
  rw [entryFrame, ← hpay, ← hhead, List.append_assoc, ← hsplit, List.take_append_drop]

theorem recoverFrom_stop {fuel : Nat} {seq : UInt64} {entries offset : Nat} {r : RecoveryReport}
    (hs : ¬ StartsWithEntry B macKey prevMac file)
    (h : recoverFrom B macKey (fuel + 1) prevMac seq entries offset file = .ok r) :
    r.lastCommittedSequenceId = seq ∧ r.entriesRecovered = entries ∧ r.status ≠ .freshStart := by
  rw [recoverFrom] at h
  by_cases h0 : (file.take entryFrameHeader).length = 0
  · rw [if_pos h0] at h
    cases h
    exact ⟨rfl, rfl, by simp⟩
  rw [if_neg h0] at h
  by_cases h4 : (file.take entryFrameHeader).length < entryFrameHeader
  · rw [if_pos h4] at h
    cases h
    exact ⟨rfl, rfl, by simp⟩
  rw [if_neg h4] at h
  by_cases hw : ofLe (file.take entryFrameHeader) ≠ logEntryPayload
  · rw [if_pos hw] at h
    cases h
    exact ⟨rfl, rfl, by simp⟩
  rw [if_neg hw] at h
  by_cases h96 : ((file.drop entryFrameHeader).take logEntryPayload).length = 96
  · simp only [dif_pos h96] at h
    by_cases hm : computeRollingMac B macKey prevMac
        ((⟨_, h96⟩ : Block 96).slice 0 64 (by decide)) ≠
          (⟨_, h96⟩ : Block 96).slice 64 32 (by decide)
    · rw [if_pos hm] at h
      by_cases he : entries = 0
      · rw [if_pos he] at h
        cases h
      · rw [if_neg he] at h
        cases h
        exact ⟨rfl, rfl, by simp⟩
    · rw [if_neg hm] at h
      cases hd : Decision.fromBytes ((⟨_, h96⟩ : Block 96).slice 0 64 (by decide)) with
      | ok d =>
        have hlen : (file.take entryFrameHeader).length = 4 := by
          have := List.length_take_le entryFrameHeader file
          simp only [entryFrameHeader] at h4 this ⊢
          omega
        exact absurd ⟨d, _, frame_of_checks B macKey hlen (not_not.mp hw) h96 (not_not.mp hm) hd⟩ hs
      | error e =>
        simp only [hd] at h
        by_cases he : entries = 0
        · rw [if_pos he] at h
          cases h
        · rw [if_neg he] at h
          cases h
          exact ⟨rfl, rfl, by simp⟩
  · simp only [dif_neg h96] at h
    cases h
    exact ⟨rfl, rfl, by simp⟩

theorem recoverFrom_ok (fuel : Nat) :
    ∀ (prevMac : Block 32) (seq : UInt64) (entries offset : Nat) (file : List UInt8)
      (r : RecoveryReport), file.length < fuel →
      recoverFrom B macKey fuel prevMac seq entries offset file = .ok r →
      ∃ ds rest, file = frames B macKey prevMac ds ++ rest ∧
        ¬ StartsWithEntry B macKey (chainMac B macKey prevMac ds) rest ∧
        r.lastCommittedSequenceId = lastSequence seq ds ∧
        r.entriesRecovered = entries + ds.length ∧ r.status ≠ .freshStart := by
  induction fuel with
  | zero =>
    intro prevMac seq entries offset file r hf
    omega
  | succ fuel ih =>
    intro prevMac seq entries offset file r hf h
    -- an intact frame leads to the hypothesis for the rest; otherwise the walk stops here
    by_cases hs : StartsWithEntry B macKey prevMac file
    · obtain ⟨d, rest, rfl⟩ := hs
      rw [recoverFrom_entry] at h
      have hrest : rest.length < fuel := by
        rw [List.length_append, entryFrame_length] at hf
        omega
      obtain ⟨ds, tail, hfile, hstop, hseq, hcount, hstatus⟩ := ih _ _ _ _ _ _ hrest h
      refine ⟨d :: ds, tail, ?_, hstop, hseq, ?_, hstatus⟩
      · rw [frames, List.append_assoc, ← hfile]
      · rw [hcount, List.length_cons]
        omega
    · obtain ⟨hseq, hcount, hstatus⟩ := recoverFrom_stop B macKey hs h
      exact ⟨[], file, rfl, hs, hseq, hcount, hstatus⟩

theorem recoverLog_committed {r : RecoveryReport} (hne : file ≠ []) (h : recoverLog B (some file) macKey = .ok r) :
    ∃ ds, Committed B macKey file ds ∧ r.lastCommittedSequenceId = lastSequence 0 ds ∧
      r.entriesRecovered = ds.length ∧ r.status ≠ .freshStart := by
  have hlen : file.length ≠ 0 := by simpa using hne
  rw [recoverLog, if_neg hlen] at h
  obtain ⟨ds, rest, hfile, hstop, hseq, hcount, hstatus⟩ :=
    recoverFrom_ok B macKey _ _ _ _ _ _ _ (Nat.lt_succ_self _) h
  exact ⟨ds, ⟨rest, hfile, hstop⟩, hseq, by omega, hstatus⟩

/-- The sequence numbers of a file's committed entries do not depend on how the chain is
read off: two readings agree entry by entry up to the timestamp. -/
theorem entryFrame_injective {d e : Decision} {u v : List UInt8}
    (h : entryFrame B macKey prevMac d ++ u = entryFrame B macKey prevMac e ++ v) : d.toBytes = e.toBytes ∧ u = v := by
  have hlen : (entryFrame B macKey prevMac d).length = (entryFrame B macKey prevMac e).length := by
    rw [entryFrame_length, entryFrame_length]
  obtain ⟨hf, hr⟩ := List.append_inj h hlen
  unfold entryFrame at hf
  have hb := (List.append_inj (List.append_cancel_left hf) (by simp)).1
  exact ⟨Block.ext_bytes hb, hr⟩

theorem sequenceId_of_toBytes {d e : Decision} (h : d.toBytes = e.toBytes) :
    d.sequenceId = e.sequenceId := by
  have hd := Decision.fromBytes_toBytes d
  rw [h, Decision.fromBytes_toBytes e] at hd
  have := congrArg Decision.sequenceId (Except.ok.inj hd)
  exact this.symm

theorem committed_unique_from (ds : List Decision) :
    ∀ (es : List Decision) (prevMac : Block 32) (u v : List UInt8),
      frames B macKey prevMac ds ++ u = frames B macKey prevMac es ++ v →
      ¬ StartsWithEntry B macKey (chainMac B macKey prevMac ds) u →
      ¬ StartsWithEntry B macKey (chainMac B macKey prevMac es) v →
      ds.map (·.sequenceId) = es.map (·.sequenceId) := by
  induction ds with
  | nil =>
    intro es prevMac u v h hu hv
    cases es with
    | nil => rfl
    | cons e es =>
      simp only [frames, List.append_assoc, List.nil_append] at h
      exact absurd ⟨e, _, h⟩ hu
  | cons d ds ih =>
    intro es prevMac u v h hu hv
    cases es with
    | nil =>
      simp only [frames, List.append_assoc, List.nil_append] at h
      exact absurd ⟨d, _, h.symm⟩ hv
    | cons e es =>
      simp only [frames, List.append_assoc] at h
      obtain ⟨hb, hrest⟩ := entryFrame_injective B macKey h
      rw [hb] at hrest
      rw [chainMac] at hu hv
      rw [hb] at hu
      rw [List.map_cons, List.map_cons, sequenceId_of_toBytes hb, ih es _ u v hrest hu hv]

theorem committed_unique {ds es : List Decision} (hd : Committed B macKey file ds) (he : Committed B macKey file es) :
    ds.map (·.sequenceId) = es.map (·.sequenceId) := by
  obtain ⟨u, hu, hu'⟩ := hd
  obtain ⟨v, hv, hv'⟩ := he
  exact committed_unique_from B macKey ds es _ u v (hu.symm.trans hv) hu' hv'

variable {passport : RuntimePassport} {registry : Registry}

variable {auth : Authority}

theorem fromPassport_fields (h : fromPassport B passport registry = .ok auth) :
    auth.sequenceNext = passport.sequenceStart ∧ auth.sequenceEnd = passport.sequenceEnd ∧
      auth.recoveredFloor = 0 ∧
      auth.budgetRemainingActions = leaseActions passport.budgetLease.maxActions ∧
      auth.budgetRemainingCostUnits = passport.budgetLease.maxCostUnits := by
  unfold fromPassport at h
  obtain ⟨root, -, h⟩ := bind_eq_ok.mp h
  split at h
  · cases h
  · obtain ⟨mask, -, h⟩ := bind_eq_ok.mp h
    obtain ⟨bitmap, -, h⟩ := bind_eq_ok.mp h
    obtain ⟨rules, -, h⟩ := bind_eq_ok.mp h
    cases h
    exact ⟨rfl, rfl, rfl, rfl, rfl⟩

theorem validatedFloor_ok {report : RecoveryReport} {floor? : Option UInt64}
    (h : validatedFloor passport report = .ok floor?) : (report.status = .freshStart ∧ floor? = none) ∨
    (report.status ≠ .freshStart ∧ floor? = some report.lastCommittedSequenceId ∧
      (report.lastCommittedSequenceId ≠ 0 →
        passport.sequenceStart ≤ report.lastCommittedSequenceId) ∧
      report.lastCommittedSequenceId < passport.sequenceEnd) := by
  have hfloor : report.status ≠ .freshStart →
      (if report.lastCommittedSequenceId ≠ 0 ∧
          report.lastCommittedSequenceId < passport.sequenceStart then
        .error (CompileError.logPassportMismatch report.lastCommittedSequenceId
          passport.sequenceStart passport.sequenceEnd)
      else if report.lastCommittedSequenceId ≥ passport.sequenceEnd then
        .error (.logPassportMismatch report.lastCommittedSequenceId passport.sequenceStart
          passport.sequenceEnd)
      else .ok (some report.lastCommittedSequenceId)) = Except.ok floor? →
      floor? = some report.lastCommittedSequenceId ∧
      (report.lastCommittedSequenceId ≠ 0 →
        passport.sequenceStart ≤ report.lastCommittedSequenceId) ∧
      report.lastCommittedSequenceId < passport.sequenceEnd := by
    intro _ hif
    split at hif
    · cases hif
    · rename_i hlow
      split at hif
      · cases hif
      · rename_i hhigh
        cases hif
        exact ⟨rfl, fun h0 => UInt64.not_lt.mp (fun hlt => hlow ⟨h0, hlt⟩),
          UInt64.not_le.mp hhigh⟩
  unfold validatedFloor at h
  cases hs : report.status with
  | freshStart =>
    rw [hs] at h
    cases h
    exact .inl ⟨rfl, rfl⟩
  | cleanRecovery =>
    rw [hs] at h
    exact .inr ⟨by simp, hfloor (by simp [hs]) h⟩
  | partialRecovery offset reason =>
    rw [hs] at h
    exact .inr ⟨by simp, hfloor (by simp [hs]) h⟩

variable {logPath : Option (List UInt8)}

theorem fromPassportWithRecovery_ok {report : RecoveryReport}
    (h : fromPassportWithRecovery B passport registry logPath macKey = .ok (auth, report)) :
    recoverLog B logPath macKey = .ok report ∧
    ∃ base, fromPassport B passport registry = .ok base ∧
      ((report.status = .freshStart ∧ auth = base) ∨
       (report.status ≠ .freshStart ∧
        (report.lastCommittedSequenceId ≠ 0 →
          passport.sequenceStart ≤ report.lastCommittedSequenceId) ∧
        report.lastCommittedSequenceId < passport.sequenceEnd ∧
        auth = { base with recoveredFloor := report.lastCommittedSequenceId }.storeSequence
          (report.lastCommittedSequenceId + 1))) := by
  unfold fromPassportWithRecovery at h
  cases hrec : recoverLog B logPath macKey with
  | error e =>
    rw [hrec] at h
    cases h
  | ok rep =>
    rw [hrec] at h
    obtain ⟨floor?, hfloor, h⟩ := bind_eq_ok.mp h
    obtain ⟨base, hbase, h⟩ := bind_eq_ok.mp h
    obtain ⟨hs, rfl⟩ | ⟨hs, rfl, hlow, hhigh⟩ := validatedFloor_ok hfloor
    · cases h
      exact ⟨rfl, _, hbase, .inl ⟨hs, rfl⟩⟩
    · cases h
      exact ⟨rfl, base, hbase, .inr ⟨hs, hlow, hhigh, rfl⟩⟩

/-- What recovery promises about the sequence window: the next number lies in it, in no run
of concurrent checks does an action outside it get past step 10, and without a recoverable
entry the authority is the one of a fresh start. -/
structure KeepsWindow (passport : RuntimePassport) (registry : Registry)
    (logPath : Option (List UInt8)) (auth : Authority) : Prop where
  next : passport.sequenceStart ≤ auth.sequenceNext ∧ auth.sequenceNext ≤ passport.sequenceEnd
  inside : ∀ (ι : Type) [Fintype ι] [DecidableEq ι] (calls : ι → Call) (w : CheckWorld ι),
    Reachable (nextStep B calls) (initialWorld auth) w →
    ∀ i e, (calls i).held (w.pc i) = some e →
      passport.sequenceStart ≤ e ∧ e < passport.sequenceEnd
  fresh : ¬ StartsWithEntry B macKey (Block.zero 32) (logPath.getD []) →
    fromPassport B passport registry = .ok auth

/-- The logs and windows recovery handles: nothing was ever written, the window starts at 1,
or there is an intact entry to resume from and the last of the chain is not number 0 (unless
the window itself starts there). -/
def Resumable (passport : RuntimePassport) (logPath : Option (List UInt8)) : Prop :=
  logPath.getD [] = [] ∨ passport.sequenceStart = 1 ∨
  ∃ ds d, Committed B macKey (logPath.getD []) ds ∧ ds.getLast? = some d ∧
    (d.sequenceId ≠ 0 ∨ passport.sequenceStart = 0)

theorem held_in_window {start stop : UInt64} (hlow : start ≤ auth.sequenceNext) (hhigh : auth.sequenceNext ≤ stop)
    (hend : auth.sequenceEnd = stop) {ι : Type} [Fintype ι] [DecidableEq ι] (calls : ι → Call) (w : CheckWorld ι)
    (hw : Reachable (nextStep B calls) (initialWorld auth) w) (i : ι) (e : UInt64)
    (he : (calls i).held (w.pc i) = some e) : start ≤ e ∧ e < stop := by
  have hinv : Inv calls auth w :=
    hw.invariant (Inv calls auth) (inv_initial calls auth) (fun _ _ _ _ hv hs => inv_step B hv hs)
  have hbelow := hinv.below i e he
  have hupper := hinv.upper
  rw [UInt64.le_iff_toNat_le] at hlow hhigh ⊢
  rw [UInt64.lt_iff_toNat_lt]
  rw [hend] at hupper
  omega

theorem keepsWindow_of_next (hlow : passport.sequenceStart ≤ auth.sequenceNext)
    (hhigh : auth.sequenceNext ≤ passport.sequenceEnd) (hend : auth.sequenceEnd = passport.sequenceEnd)
    (hfresh : ¬ StartsWithEntry B macKey (Block.zero 32) (logPath.getD []) → fromPassport B passport registry = .ok auth) :
    KeepsWindow B macKey passport registry logPath auth where
  next := ⟨hlow, hhigh⟩
  inside := by
    intro ι _ _ calls w hw i e he
    exact held_in_window B hlow hhigh hend calls w hw i e he
  fresh := hfresh

theorem resumed_window {start stop floor : UInt64} (hlow : start ≤ floor) (hhigh : floor < stop) :
    start ≤ floor + 1 ∧ floor + 1 ≤ stop := by
  have hsucc := u64_succ_toNat hhigh
  rw [UInt64.le_iff_toNat_le] at hlow ⊢
  rw [UInt64.le_iff_toNat_le, hsucc]
  rw [UInt64.lt_iff_toNat_lt] at hhigh
  omega

variable {ds : List Decision}

theorem startsWithEntry_of_committed (hc : Committed B macKey file ds) (hd : ds.getLast? = some d) :
    StartsWithEntry B macKey (Block.zero 32) file := by
  obtain ⟨rest, hfile, -⟩ := hc
  cases ds with
  | nil => cases hd
  | cons e es =>
    rw [frames, List.append_assoc] at hfile
    exact ⟨e, _, hfile⟩

theorem recoverLog_empty (h : logPath.getD [] = []) : recoverLog B logPath macKey = .ok .freshStart := by
  cases logPath with
  | none => rfl
  | some file =>
    have hfile : file = [] := h
    subst hfile
    rfl

theorem lastSequence_of_getLast (h : ds.getLast? = some d) (seq : UInt64) : lastSequence seq ds = d.sequenceId := by
  rw [lastSequence_eq, h]
  rfl

theorem lastSequence_congr {ds es : List Decision}
    (h : ds.map (·.sequenceId) = es.map (·.sequenceId)) (seq : UInt64) :
    lastSequence seq ds = lastSequence seq es := by
  rw [lastSequence_eq, lastSequence_eq, ← List.getLast?_map, ← List.getLast?_map, h]

theorem startsWithEntry_of_floor (hc : Committed B macKey file ds) (h : lastSequence 0 ds ≠ 0) :
    StartsWithEntry B macKey (Block.zero 32) file := by
  cases hd : ds.getLast? with
  | none =>
    rw [List.getLast?_eq_none_iff.mp hd] at h
    exact absurd rfl h
  | some d => exact startsWithEntry_of_committed B macKey hc hd

theorem resumed_keepsWindow_iff {base : Authority} (hne : file ≠ [])
    (hbase : fromPassport B passport registry = .ok base) (hc : Committed B macKey file ds)
    (hlow : lastSequence 0 ds ≠ 0 → passport.sequenceStart ≤ lastSequence 0 ds)
    (hhigh : lastSequence 0 ds < passport.sequenceEnd) : KeepsWindow B macKey passport registry (some file)
        ({ base with recoveredFloor := lastSequence 0 ds }.storeSequence (lastSequence 0 ds + 1)) ↔
      Resumable B macKey passport (some file) := by
  obtain ⟨hnext, hend, hzero, -⟩ := fromPassport_fields B hbase
  constructor
  · intro hk
    cases hd : ds.getLast? with
    | none =>
      have hds := List.getLast?_eq_none_iff.mp hd
      subst hds
      -- nothing was recovered, so a fresh start is promised, and it begins at the window's start
      have hnone : ¬ StartsWithEntry B macKey (Block.zero 32) file := by
        obtain ⟨rest, hfile, hstop⟩ := hc
        rw [show file = rest from hfile]
        exact hstop
      have heq := Except.ok.inj (hbase.symm.trans (hk.fresh hnone))
      rw [heq] at hnext
      exact .inr (.inl hnext.symm)
    | some d =>
      by_cases h0 : d.sequenceId = 0
      · have hle := hk.next.1
        rw [lastSequence_of_getLast hd, h0, Authority.storeSequence_sequence] at hle
        have hstart : passport.sequenceStart = 0 ∨ passport.sequenceStart = 1 := by
          rw [UInt64.le_iff_toNat_le] at hle
          rw [← UInt64.toNat_inj, ← UInt64.toNat_inj]
          have h01 : ((0 : UInt64) + 1).toNat = 1 := rfl
          have h00 : (0 : UInt64).toNat = 0 := rfl
          have h11 : (1 : UInt64).toNat = 1 := rfl
          omega
        obtain hs | hs := hstart
        · exact .inr (.inr ⟨ds, d, hc, hd, .inr hs⟩)
        · exact .inr (.inl hs)
      · exact .inr (.inr ⟨ds, d, hc, hd, .inl h0⟩)
  · intro hr
    by_cases h0 : lastSequence 0 ds = 0
    · obtain hempty | hone | ⟨es, d, hes, hd, hseq⟩ := hr
      · exact absurd hempty hne
      · -- the overloaded floor 0 does no harm: the authority is the fresh one
        have hsame : { base with recoveredFloor := lastSequence 0 ds }.storeSequence
            (lastSequence 0 ds + 1) = base := by
          rw [h0, ← hzero]
          change base.storeSequence (base.recoveredFloor + 1) = base
          rw [hzero, show (0 : UInt64) + 1 = 1 from rfl, ← hone, ← hnext]
          rfl
        rw [hsame]
        refine keepsWindow_of_next B macKey ?_ ?_ hend (fun _ => hbase)
        · rw [hnext]
          exact UInt64.le_refl _
        · rw [h0] at hhigh
          rw [hnext, hone]
          exact (resumed_window (UInt64.le_refl 0) hhigh).2
      · have hlast := lastSequence_congr (committed_unique B macKey hc hes) 0
        rw [h0, lastSequence_of_getLast hd] at hlast
        have hstart : passport.sequenceStart = 0 :=
          hseq.resolve_left (fun hne0 => hne0 hlast.symm)
        have hwin : passport.sequenceStart ≤ lastSequence 0 ds := by
          rw [hstart, h0]
          exact UInt64.le_refl 0
        obtain ⟨hl, hh⟩ := resumed_window hwin hhigh
        refine keepsWindow_of_next B macKey hl hh hend ?_
        exact fun hn => absurd (startsWithEntry_of_committed B macKey hes hd) hn
    · obtain ⟨hl, hh⟩ := resumed_window (hlow h0) hhigh
      refine keepsWindow_of_next B macKey hl hh hend ?_
      exact fun hn => absurd (startsWithEntry_of_floor B macKey hc h0) hn

/-- For an accepted passport and any bytes in the log, a successful recovery keeps the
window exactly on the resumable logs. -/
theorem recovery_keeps_window_iff {passport : RuntimePassport} {registry : Registry}
    {logPath : Option (List UInt8)} {auth : Authority} {report : RecoveryReport}
    (hp : passport.fromJson = .ok passport)
    (h : fromPassportWithRecovery B passport registry logPath macKey = .ok (auth, report)) :
    KeepsWindow B macKey passport registry logPath auth ↔ Resumable B macKey passport logPath := by
  obtain ⟨-, hwindow⟩ := fromJson_window hp
  obtain ⟨hrec, base, hbase, hcase⟩ := fromPassportWithRecovery_ok B macKey h
  by_cases hempty : logPath.getD [] = []
  · rw [recoverLog_empty B macKey hempty] at hrec
    cases hrec
    obtain ⟨-, rfl⟩ | ⟨hs, -⟩ := hcase
    · obtain ⟨hnext, hend, -⟩ := fromPassport_fields B hbase
      refine ⟨fun _ => .inl hempty, fun _ => ?_⟩
      refine keepsWindow_of_next B macKey ?_ ?_ hend (fun _ => hbase)
      · rw [hnext]
        exact UInt64.le_refl _
      · rw [hnext]
        exact UInt64.le_of_lt hwindow
    · exact absurd rfl hs
  · cases logPath with
    | none => exact absurd rfl hempty
    | some file =>
      obtain ⟨ds, hc, hseq, -, hstatus⟩ := recoverLog_committed B macKey hempty hrec
      obtain ⟨hs, -⟩ | ⟨-, hlow, hhigh, rfl⟩ := hcase
      · exact absurd hs hstatus
      · rw [hseq] at hlow hhigh ⊢
        exact resumed_keepsWindow_iff B macKey hempty hbase hc hlow hhigh

def leasePassport : RuntimePassport where
  passportId := "rp_01HX0EXAMPLE000000000000000"
  issuedAt := 1767225600000000000
  expiresAt := 1767229200000000000
  maxClockSkewMs := 500
  revocationEpoch := 3
  toolRegistryRoot := "blake3:ee75417aa831ffe703fc17c082cb6a700428684909999e9e505c6e3a4dbcbaa9"
  riskClass := .r2
  minimumTierRequired := .t1
  tierAttested := .t2
  verifierInstanceId := "vi_01HX0VI00000000000000000000"
  sequenceStart := 1000
  sequenceEnd := 2000
  budgetLease := ⟨1, 5⟩
  authorityBlob := {
    allowedTools := ["blake3:508891f35ded8c57316d6d5e0bc263cabb5c772e6f2dde0b8bde06c0cdbf3e4e"]
    allowedOperations := ["read"]
    resourceScopes := ["customer/*"]
    approvalRules := [] }

def leaseEntries : List ToolEntry := [⟨readAction.toolDescriptorHash, 0⟩]

theorem leaseEntries_sorted : leaseEntries.Pairwise (fun a b => a.localId < b.localId) := by decide

theorem leaseEntries_distinct : (leaseEntries.map (·.descriptorHash)).Nodup := by decide

def leaseRegistry : Registry := ⟨leaseEntries, leaseEntries_sorted, leaseEntries_distinct⟩

/-- The BLAKE3 digests that compiling `leasePassport` asks for. -/
def compileDigests : List (List UInt8 × Block 32) :=
  [(toLe 4 0 ++ readAction.toolDescriptorHash.bytes,
    leBlock 32 0xa9babc4d3a6e5c509e9e990949682804706acb82c017fc03e7ff31a87a4175ee),
   (utf8 leasePassport.passportId.toList, readAction.passportIdHash),
   (utf8 leasePassport.verifierInstanceId.toList, readAuthority.verifierInstanceIdHash),
   (utf8 "customer".toList,
    leBlock 32 0x4e1f9380cf91bd8ffa7f9ef190d6fb1f34560ec3c4f7ff90bcfc26a5ad527d17)]

/-- A crash in the middle of the very first append leaves one byte behind. The restart takes
the floor 0 of "nothing recovered" for a committed number and resumes at 1, far below the
window. -/
theorem torn_first_append_leaves_window :
    leasePassport.fromJson = .ok leasePassport ∧
    ∃ auth report,
      fromPassportWithRecovery (.ofTable compileDigests [] []) leasePassport leaseRegistry
        (some [0x60]) (Block.zero 32) = .ok (auth, report) ∧
      report.entriesRecovered = 0 ∧ leasePassport.sequenceStart = 1000 ∧ auth.sequenceNext = 1 ∧
      ¬ KeepsWindow (.ofTable compileDigests [] []) (Block.zero 32) leasePassport leaseRegistry
        (some [0x60]) auth := by
  have hresumes : (fromPassportWithRecovery (.ofTable compileDigests [] []) leasePassport leaseRegistry
      (some [0x60]) (Block.zero 32)).toOption.map (fun r => (r.2.entriesRecovered, r.1.sequenceNext)) = some (0, 1) := by
    decide
  obtain ⟨⟨auth, report⟩, h, hfields⟩ := exists_ok_of_map hresumes
  obtain ⟨hentries, hnext⟩ := Prod.mk.inj hfields
  refine ⟨rfl, auth, report, h, hentries, rfl, hnext, ?_⟩
  intro hk
  have hlow := hk.next.1
  rw [show auth.sequenceNext = 1 from hnext] at hlow
  exact absurd hlow (by decide)

def firstDecision : Decision where
  decisionType := .allow
  reasonCode := .ok
  reserved := Block.zero 6
  sequenceId := 1000
  decisionId := leBlock 16 0x7644cd781446ddf89f1f833652eee03a
  eventMac := leBlock 32 0xbd95b0426a22766dad1f0022b2ef90e8b5da7d82529693f2f850763600ece1ec
  timestampUnixNs := 1767225610000000000

def firstDigests : Blake3 :=
  .ofTable compileDigests
    [((Block.zero 32, (Block.zero 32).bytes ++ firstDecision.toBytes.bytes),
      leBlock 32 0x4a3b07e721b71c31f97af15a0de6e1424259ac94953081245d9377bdbeb72911)] []

set_option maxRecDepth 10000 in
theorem first_entry_resumes :
    ∃ auth report,
      fromPassportWithRecovery firstDigests leasePassport leaseRegistry
        (some (entryFrame firstDigests (Block.zero 32) (Block.zero 32) firstDecision))
        (Block.zero 32) = .ok (auth, report) ∧
      KeepsWindow firstDigests (Block.zero 32) leasePassport leaseRegistry
        (some (entryFrame firstDigests (Block.zero 32) (Block.zero 32) firstDecision)) auth := by
  have hok : (fromPassportWithRecovery firstDigests leasePassport leaseRegistry
      (some (entryFrame firstDigests (Block.zero 32) (Block.zero 32) firstDecision)) (Block.zero 32)).isOk = true := by
    decide
  obtain ⟨⟨auth, report⟩, h⟩ := exists_of_isOk hok
  refine ⟨auth, report, h, (recovery_keeps_window_iff firstDigests (Block.zero 32) rfl h).mpr ?_⟩
  refine .inr (.inr ⟨[firstDecision], firstDecision, ⟨[], ?_, ?_⟩, rfl, .inl (by decide)⟩)
  · simp [frames]
  · rintro ⟨d, rest, h⟩
    have hlen := congrArg List.length h
    rw [List.length_nil, List.length_append, entryFrame_length] at hlen
    omega

end AgentPassport.RecoveryWindow
