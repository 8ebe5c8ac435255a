import AgentPassport.DecisionRecord

/-! The append-only receipt log: one writer and the two readers that walk it.
A file is its bytes; a read of `n` bytes returns `n` or whatever is left. -/
namespace AgentPassport.ReceiptLog
open ByteBlocks DecisionRecord

def entryFrameHeader : Nat := 4
def decisionSize : Nat := 64
def rollingMacSize : Nat := 32
def logEntryBytes : Nat := entryFrameHeader + decisionSize + rollingMacSize
/-- Value carried by the length header: the payload without the header itself. -/
def logEntryPayload : Nat := decisionSize + rollingMacSize

inductive LogError where
  | unexpectedEof
  | invalidFrame (message : String)
  | macMismatch (entry : Nat)
  deriving DecidableEq

structure LogWriter where
  file : List UInt8
  prevMac : Block 32
  macKey : Block 32
  entriesWritten : Nat

variable (B : Blake3)

def computeRollingMac (macKey prevMac : Block 32) (decisionBytes : Block 64) : Block 32 :=
  B.keyed macKey (prevMac.bytes ++ decisionBytes.bytes)

def LogWriter.append (w : LogWriter) (d : Decision) : LogWriter :=
  let decisionBytes := d.toBytes
  let rollingMac := computeRollingMac B w.macKey w.prevMac decisionBytes
  { w with
    file := w.file ++ (toLe 4 logEntryPayload ++ (decisionBytes.bytes ++ rollingMac.bytes))
    prevMac := rollingMac
    entriesWritten := w.entriesWritten + 1 }

/-- `scan_existing` from the current read position. `fuel` bounds the number of
frames; the callers pass more than the file can hold. -/
def scanFrom (macKey : Block 32) : Nat → Block 32 → Nat → List UInt8 →
    Except LogError (Block 32 × Nat)
  | 0, prevMac, entries, _ => .ok (prevMac, entries)
  | fuel+1, prevMac, entries, file =>
    let header := file.take entryFrameHeader
    if header.length = 0 then .ok (prevMac, entries)
    else if header.length ≠ entryFrameHeader then
      .error (.invalidFrame s!"partial header at entry {entries}: got {header.length} bytes")
    else if ofLe header ≠ logEntryPayload then
      .error (.invalidFrame
        s!"entry {entries}: expected payload length {logEntryPayload}, got {ofLe header}")
    else
      let payload := (file.drop entryFrameHeader).take logEntryPayload
      if h : payload.length = 96 then
        let block : Block 96 := ⟨payload, h⟩
        let storedMac := block.slice 64 32 (by decide)
        if computeRollingMac B macKey prevMac (block.slice 0 64 (by decide)) ≠ storedMac then
          .error (.macMismatch entries)
        else scanFrom macKey fuel storedMac (entries + 1) (file.drop logEntryBytes)
      else .error .unexpectedEof

def scanExisting (file : List UInt8) (macKey : Block 32) : Except LogError (Block 32 × Nat) :=
  scanFrom B macKey (file.length + 1) (Block.zero 32) 0 file

/-- `LogWriter::open`; `none` is a path that does not exist yet. -/
def LogWriter.openLog (path : Option (List UInt8)) (macKey : Block 32) :
    Except LogError LogWriter :=
  match path with
  | none => .ok ⟨[], Block.zero 32, macKey, 0⟩
  | some file => do
    let (prevMac, entriesWritten) ← scanExisting B file macKey
    return ⟨file, prevMac, macKey, entriesWritten⟩

inductive TruncationReason where
  | incompleteEntry
  | macMismatch (atEntry : Nat)
  | invalidLength (atEntry length : Nat)
  deriving DecidableEq

inductive RecoveryStatus where
  | freshStart
  | cleanRecovery
  | partialRecovery (truncatedAtOffset : Nat) (reason : TruncationReason)
  deriving DecidableEq

structure RecoveryReport where
  lastCommittedSequenceId : UInt64
  lastRollingMac : Block 32
  entriesRecovered : Nat
  validThroughOffset : Nat
  status : RecoveryStatus
  deriving DecidableEq

inductive RecoveryError where
  | initialMacFailure
  deriving DecidableEq

def RecoveryReport.freshStart : RecoveryReport :=
  ⟨0, Block.zero 32, 0, 0, .freshStart⟩

/-- The walk of `recover_log` from the current read position. `offset` is the byte
after the last valid entry, so every early exit reports it as the truncation point. -/
def recoverFrom (macKey : Block 32) : Nat → Block 32 → UInt64 → Nat → Nat → List UInt8 →
    Except RecoveryError RecoveryReport
  | 0, prevMac, lastSeqId, entries, offset, _ =>
    .ok ⟨lastSeqId, prevMac, entries, offset, .cleanRecovery⟩
  | fuel+1, prevMac, lastSeqId, entries, offset, file =>
    let stop (status : RecoveryStatus) : Except RecoveryError RecoveryReport :=
      .ok ⟨lastSeqId, prevMac, entries, offset, status⟩
    let lengthBuf := file.take entryFrameHeader
    if lengthBuf.length = 0 then stop .cleanRecovery
    else if lengthBuf.length < entryFrameHeader then
      stop (.partialRecovery offset .incompleteEntry)
    else if ofLe lengthBuf ≠ logEntryPayload then
      stop (.partialRecovery offset (.invalidLength entries (ofLe lengthBuf)))
    else
      let payload := (file.drop entryFrameHeader).take logEntryPayload
      if h : payload.length = 96 then
        let block : Block 96 := ⟨payload, h⟩
        let decisionBytes := block.slice 0 64 (by decide)
        let storedMac := block.slice 64 32 (by decide)
        if computeRollingMac B macKey prevMac decisionBytes ≠ storedMac then
          if entries = 0 then .error .initialMacFailure
          else stop (.partialRecovery offset (.macMismatch entries))
        else match Decision.fromBytes decisionBytes with
          | .ok d => recoverFrom macKey fuel storedMac d.sequenceId (entries + 1)
              (offset + logEntryBytes) (file.drop logEntryBytes)
          | .error _ =>
            if entries = 0 then .error .initialMacFailure
            else stop (.partialRecovery offset (.macMismatch entries))
      else stop (.partialRecovery offset .incompleteEntry)

/-- `recover_log`; `none` is a missing file. -/
def recoverLog (path : Option (List UInt8)) (macKey : Block 32) :
    Except RecoveryError RecoveryReport :=
  match path with
  | none => .ok .freshStart
  | some file =>
    if file.length = 0 then .ok .freshStart
    else recoverFrom B macKey (file.length + 1) (Block.zero 32) 0 0 0 file

end AgentPassport.ReceiptLog
