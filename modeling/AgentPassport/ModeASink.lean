import AgentPassport.ReceiptRoundTrip

/-! The memory-buffered receipt sink (`durability.rs`, Mode A) over a log whose writes can fail.
Every call into the file is given what becomes of it: how many of the bytes buffered so far reach
the file, and whether the call succeeds. The critical sections follow one another in any order;
`shutdown` takes the sink by value, so no emit runs beside it or after it. -/
namespace AgentPassport.ModeASink
open ByteBlocks DecisionRecord ReceiptLog

inductive ReceiptError where
  | bufferFull
  | logWriteFailed
  | shutdownInProgress
  deriving DecidableEq

/-- What becomes of one call into the buffered file. -/
structure WriteIo where
  reached : Nat
  ok : Bool

/-- `LogWriter` with the bytes its `BufWriter` still holds. -/
structure BufferedLog where
  file : List UInt8
  pending : List UInt8
  prevMac : Block 32
  macKey : Block 32
  entriesWritten : Nat

/-- The first bytes of the buffer go to the file. -/
def BufferedLog.spill (w : BufferedLog) (n : Nat) : BufferedLog :=
  { w with file := w.file ++ w.pending.take n, pending := w.pending.drop n }

/-- `write_all`: a failed call leaves its own bytes out. -/
def BufferedLog.writeAll (w : BufferedLog) (io : WriteIo) (bytes : List UInt8) : BufferedLog × Bool :=
  let w := w.spill io.reached
  if io.ok then ({ w with pending := w.pending ++ bytes }, true) else (w, false)

/-- `flush`: a failed call leaves the rest in the buffer. -/
def BufferedLog.flush (w : BufferedLog) (io : WriteIo) : BufferedLog × Except ReceiptError Unit :=
  if io.ok then (w.spill w.pending.length, .ok ()) else (w.spill io.reached, .error .logWriteFailed)

/-- What becomes of the three writes of an entry. -/
structure AppendIo where
  length : WriteIo
  decision : WriteIo
  mac : WriteIo

def AppendIo.ok (io : AppendIo) : Bool := io.length.ok && io.decision.ok && io.mac.ok

section
variable (B : Blake3)

def BufferedLog.append (w : BufferedLog) (io : AppendIo) (d : Decision) : BufferedLog × Except ReceiptError Unit :=
  let decisionBytes := d.toBytes
  let rollingMac := computeRollingMac B w.macKey w.prevMac decisionBytes
  let (w, ok) := w.writeAll io.length (toLe 4 logEntryPayload)
  if !ok then (w, .error .logWriteFailed)
  else
    let (w, ok) := w.writeAll io.decision decisionBytes.bytes
    if !ok then (w, .error .logWriteFailed)
    else
      let (w, ok) := w.writeAll io.mac rollingMac.bytes
      if !ok then (w, .error .logWriteFailed)
      else ({ w with prevMac := rollingMac, entriesWritten := w.entriesWritten + 1 }, .ok ())

/-- The loop over the drained decisions, from the `i`-th on. -/
def BufferedLog.appendEach (io : Nat → AppendIo) : Nat → List Decision → BufferedLog →
    BufferedLog × Except ReceiptError Unit
  | _, [], w => (w, .ok ())
  | i, d :: rest, w =>
    match w.append B (io i) d with
    | (w, .ok ()) => appendEach io (i + 1) rest w
    | (w, .error e) => (w, .error e)

structure ModeAState where
  buffer : List Decision
  writer : BufferedLog

/-- What becomes of the calls of one drain. -/
structure DrainIo where
  append : Nat → AppendIo
  flush : WriteIo

def drainBuffer (state : ModeAState) (io : DrainIo) : ModeAState × Except ReceiptError Unit :=
  match state.writer.appendEach B io.append 0 state.buffer with
  | (w, .error e) => (⟨[], w⟩, .error e)
  | (w, .ok ()) =>
    match w.flush io.flush with
    | (w, result) => (⟨[], w⟩, result)

structure Sink where
  state : ModeAState
  shutdown : Bool

def Sink.new (w : LogWriter) : Sink :=
  ⟨⟨[], ⟨w.file, [], w.prevMac, w.macKey, w.entriesWritten⟩⟩, false⟩

def emit (capacity : Nat) (s : Sink) (d : Decision) : Sink × Except ReceiptError Unit :=
  if s.shutdown then (s, .error .shutdownInProgress)
  else if capacity ≤ s.state.buffer.length then (s, .error .bufferFull)
  else ({ s with state := { s.state with buffer := s.state.buffer ++ [d] } }, .ok ())

/-- One turn of the flush loop that drains; the result is dropped. -/
def flushTurn (s : Sink) (io : DrainIo) : Sink := { s with state := (drainBuffer B s.state io).1 }

/-- Turns of the flush loop that end before the thread is joined. -/
def flushTurns (s : Sink) (turns : List DrainIo) : Sink := turns.foldl (flushTurn B) s

def shutdown (s : Sink) (turns : List DrainIo) (last : DrainIo) (flush : WriteIo) :
    Sink × Except ReceiptError Unit :=
  let s := flushTurns B { s with shutdown := true } turns
  match drainBuffer B s.state last with
  | (state, .error e) => ({ s with state := state }, .error e)
  | (state, .ok ()) =>
    match state.writer.flush flush with
    | (w, result) => ({ s with state := { state with writer := w } }, result)

/-- A critical section before the shutdown. -/
inductive Action where
  | emit (d : Decision)
  | drain (io : DrainIo)

def act (capacity : Nat) (s : Sink) : Action → Sink
  | .emit d => (emit capacity s d).1
  | .drain io => flushTurn B s io

def run (capacity : Nat) (s : Sink) (actions : List Action) : Sink := actions.foldl (act B capacity) s

/-- The decisions for which `emit` returns Ok, in their order. -/
def accepted (capacity : Nat) : Sink → List Action → List Decision
  | _, [] => []
  | s, .emit d :: rest =>
    match emit capacity s d with
    | (after, .ok ()) => d :: accepted capacity after rest
    | (after, .error _) => accepted capacity after rest
  | s, .drain io :: rest => accepted capacity (flushTurn B s io) rest

/-- No write of an entry fails in this turn of the flush loop. -/
def TurnKept (s : Sink) (io : DrainIo) : Prop := ∀ i < s.state.buffer.length, (io.append i).ok = true

/-- No write of an entry fails in the flush loop before the shutdown. -/
def ActionsKept (capacity : Nat) : Sink → List Action → Prop
  | _, [] => True
  | s, .emit d :: rest => ActionsKept capacity (emit capacity s d).1 rest
  | s, .drain io :: rest => TurnKept s io ∧ ActionsKept capacity (flushTurn B s io) rest

def TurnsKept : Sink → List DrainIo → Prop
  | _, [] => True
  | s, io :: rest => TurnKept s io ∧ TurnsKept (flushTurn B s io) rest

end

/-- The bytes in the file and those on their way there. -/
def BufferedLog.stream (w : BufferedLog) : List UInt8 := w.file ++ w.pending

def BufferedLog.flat (w : BufferedLog) : LogWriter := ⟨w.stream, w.prevMac, w.macKey, w.entriesWritten⟩

theorem spill_stream (w : BufferedLog) (n : Nat) : (w.spill n).stream = w.stream := by
  simp only [BufferedLog.stream, BufferedLog.spill, List.append_assoc, List.take_append_drop]

theorem writeAll_stream (w : BufferedLog) (io : WriteIo) (bytes : List UInt8) :
    (w.writeAll io bytes).2 = io.ok ∧ (w.writeAll io bytes).1.prevMac = w.prevMac ∧
      (w.writeAll io bytes).1.macKey = w.macKey ∧ (w.writeAll io bytes).1.entriesWritten = w.entriesWritten ∧
      (w.writeAll io bytes).1.stream = w.stream ++ if io.ok then bytes else [] := by
  have hspill := spill_stream w io.reached
  rw [BufferedLog.writeAll]
  cases io.ok with
  | false =>
    refine ⟨rfl, rfl, rfl, rfl, ?_⟩
    simpa using hspill
  | true =>
    refine ⟨rfl, rfl, rfl, rfl, ?_⟩
    simp only [if_true]
    rw [← hspill]
    simp only [BufferedLog.stream, List.append_assoc]

theorem flush_flat (w : BufferedLog) (io : WriteIo) : (w.flush io).1.flat = w.flat := by
  rw [BufferedLog.flush]
  split
  · exact congrArg (LogWriter.mk · w.prevMac w.macKey w.entriesWritten) (spill_stream w _)
  · exact congrArg (LogWriter.mk · w.prevMac w.macKey w.entriesWritten) (spill_stream w _)

theorem flush_ok {w : BufferedLog} {io : WriteIo} (h : (w.flush io).2 = .ok ()) : (w.flush io).1.pending = [] := by
  rw [BufferedLog.flush] at h ⊢
  split
  · exact List.drop_length
  · rename_i hio
    rw [if_neg hio] at h
    cases h

variable {B : Blake3}

variable {d : Decision}

theorem append_ok {w : BufferedLog} {io : AppendIo} (h : io.ok = true) :
    (w.append B io d).2 = .ok () ∧ (w.append B io d).1.flat = w.flat.append B d := by
  simp only [AppendIo.ok, Bool.and_eq_true] at h
  obtain ⟨⟨hlength, hdecision⟩, hmac⟩ := h
  simp only [BufferedLog.append]
  obtain ⟨hok, hprev, hkey, hwritten, hstream⟩ := writeAll_stream w io.length (toLe 4 logEntryPayload)
  generalize w.writeAll io.length (toLe 4 logEntryPayload) = r at hok hprev hkey hwritten hstream ⊢
  rw [hlength] at hok hstream
  simp only [hok, Bool.not_true, Bool.false_eq_true, if_false]
  obtain ⟨hok', hprev', hkey', hwritten', hstream'⟩ := writeAll_stream r.1 io.decision d.toBytes.bytes
  generalize r.1.writeAll io.decision d.toBytes.bytes = r' at hok' hprev' hkey' hwritten' hstream' ⊢
  rw [hdecision] at hok' hstream'
  simp only [hok', Bool.not_true, Bool.false_eq_true, if_false]
  obtain ⟨hok'', hprev'', hkey'', hwritten'', hstream''⟩ :=
    writeAll_stream r'.1 io.mac (computeRollingMac B w.macKey w.prevMac d.toBytes).bytes
  generalize r'.1.writeAll io.mac (computeRollingMac B w.macKey w.prevMac d.toBytes).bytes = r''
    at hok'' hprev'' hkey'' hwritten'' hstream'' ⊢
  rw [hmac] at hok'' hstream''
  simp only [hok'', Bool.not_true, Bool.false_eq_true, if_false]
  refine ⟨trivial, ?_⟩
  simp only [BufferedLog.flat, LogWriter.append, LogWriter.mk.injEq]
  refine ⟨?_, trivial, ?_, ?_⟩
  · change r''.1.stream = _
    rw [hstream'', hstream', hstream]
    simp only [if_true, List.append_assoc]
  · rw [hkey'', hkey', hkey]
  · rw [hwritten'', hwritten', hwritten]

theorem append_failed {w : BufferedLog} {io : AppendIo} (h : io.ok = false) :
    (w.append B io d).2 = .error .logWriteFailed ∧
      (w.append B io d).1.stream.length < w.stream.length + 100 := by
  simp only [BufferedLog.append]
  obtain ⟨hok, -, -, -, hstream⟩ := writeAll_stream w io.length (toLe 4 logEntryPayload)
  generalize w.writeAll io.length (toLe 4 logEntryPayload) = r at hok hstream ⊢
  cases hlength : io.length.ok with
  | false =>
    rw [hlength] at hok hstream
    simp only [hok, Bool.not_false, if_true, hstream]
    simp
  | true =>
    rw [hlength] at hok hstream
    simp only [hok, Bool.not_true, Bool.false_eq_true, if_false]
    obtain ⟨hok', -, -, -, hstream'⟩ := writeAll_stream r.1 io.decision d.toBytes.bytes
    generalize r.1.writeAll io.decision d.toBytes.bytes = r' at hok' hstream' ⊢
    cases hdecision : io.decision.ok with
    | false =>
      rw [hdecision] at hok' hstream'
      simp only [hok', Bool.not_false, if_true, hstream', hstream]
      simp
    | true =>
      rw [hdecision] at hok' hstream'
      simp only [hok', Bool.not_true, Bool.false_eq_true, if_false]
      obtain ⟨hok'', -, -, -, hstream''⟩ :=
        writeAll_stream r'.1 io.mac (computeRollingMac B w.macKey w.prevMac d.toBytes).bytes
      generalize r'.1.writeAll io.mac (computeRollingMac B w.macKey w.prevMac d.toBytes).bytes = r''
        at hok'' hstream'' ⊢
      have hmac : io.mac.ok = false := by
        simpa [AppendIo.ok, hlength, hdecision] using h
      rw [hmac] at hok'' hstream''
      simp only [hok'', Bool.not_false, if_true, hstream'', hstream', hstream]
      simp

theorem appendEach_ok {io : Nat → AppendIo} {ds : List Decision} : ∀ {i : Nat} {w : BufferedLog},
    (∀ j < ds.length, (io (i + j)).ok = true) →
    (w.appendEach B io i ds).2 = .ok () ∧ (w.appendEach B io i ds).1.flat = w.flat.appendAll B ds := by
  induction ds with
  | nil =>
    intro i w _
    exact ⟨rfl, rfl⟩
  | cons d rest ih =>
    intro i w hok
    obtain ⟨hresult, hflat⟩ := append_ok (B := B) (w := w) (d := d) (hok 0 (Nat.succ_pos _))
    rw [Nat.add_zero] at hresult hflat
    rw [BufferedLog.appendEach]
    generalize w.append B (io i) d = r at hresult hflat ⊢
    obtain ⟨after, result⟩ := r
    subst hresult
    have hrest : ∀ j < rest.length, (io (i + 1 + j)).ok = true := by
      intro j hj
      rw [Nat.add_assoc, Nat.add_comm 1]
      exact hok (j + 1) (Nat.succ_lt_succ hj)
    obtain ⟨hresult, hflat'⟩ := ih (w := after) hrest
    refine ⟨hresult, ?_⟩
    rw [hflat', hflat]
    rfl

theorem appendEach_failed {io : Nat → AppendIo} {ds : List Decision} : ∀ {i : Nat} {w : BufferedLog},
    (¬ ∀ j < ds.length, (io (i + j)).ok = true) →
    (w.appendEach B io i ds).2 = .error .logWriteFailed ∧
      (w.appendEach B io i ds).1.stream.length < w.stream.length + 100 * ds.length := by
  induction ds with
  | nil =>
    intro i w hfail
    exact absurd (fun j hj => absurd hj (Nat.not_lt_zero j)) hfail
  | cons d rest ih =>
    intro i w hfail
    rw [BufferedLog.appendEach]
    cases hfirst : (io i).ok with
    | false =>
      obtain ⟨hresult, hlength⟩ := append_failed (B := B) (w := w) (d := d) hfirst
      generalize w.append B (io i) d = r at hresult hlength ⊢
      obtain ⟨after, result⟩ := r
      subst hresult
      refine ⟨rfl, ?_⟩
      rw [List.length_cons]
      change after.stream.length < _ at hlength ⊢
      omega
    | true =>
      obtain ⟨hresult, hflat⟩ := append_ok (B := B) (w := w) (d := d) hfirst
      generalize w.append B (io i) d = r at hresult hflat ⊢
      obtain ⟨after, result⟩ := r
      subst hresult
      have hrest : ¬ ∀ j < rest.length, (io (i + 1 + j)).ok = true := by
        intro hall
        apply hfail
        intro j hj
        cases j with
        | zero => exact hfirst
        | succ j =>
          have hj' := hall j (Nat.lt_of_succ_lt_succ hj)
          rwa [Nat.add_assoc, Nat.add_comm 1] at hj'
      obtain ⟨hresult, hlength⟩ := ih (w := after) hrest
      refine ⟨hresult, ?_⟩
      have hafter : after.stream.length = w.stream.length + 100 := by
        have hfile := congrArg LogWriter.file hflat
        change after.stream = w.stream ++ _ at hfile
        rw [hfile]
        simp
      rw [List.length_cons]
      simp only at hlength ⊢
      omega

theorem drainBuffer_buffer (state : ModeAState) (io : DrainIo) : (drainBuffer B state io).1.buffer = [] := by
  rw [drainBuffer]
  split
  · rfl
  · rfl

variable {io : DrainIo}

theorem drainBuffer_kept {state : ModeAState} (h : ∀ i < state.buffer.length, (io.append i).ok = true) :
    (drainBuffer B state io).1.writer.flat = state.writer.flat.appendAll B state.buffer := by
  have happend : ∀ j < state.buffer.length, (io.append (0 + j)).ok = true := by
    intro j hj
    rw [Nat.zero_add]
    exact h j hj
  obtain ⟨hresult, hflat⟩ := appendEach_ok (B := B) (w := state.writer) happend
  rw [drainBuffer]
  generalize state.writer.appendEach B io.append 0 state.buffer = r at hresult hflat ⊢
  obtain ⟨after, result⟩ := r
  subst hresult
  exact (flush_flat after io.flush).trans hflat

theorem drainBuffer_lost {state : ModeAState} (h : ¬ ∀ i < state.buffer.length, (io.append i).ok = true) :
    (drainBuffer B state io).2 = .error .logWriteFailed ∧
      (drainBuffer B state io).1.writer.stream.length < state.writer.stream.length + 100 * state.buffer.length := by
  have hfail : ¬ ∀ j < state.buffer.length, (io.append (0 + j)).ok = true := by
    intro hall
    apply h
    intro i hi
    have hi' := hall i hi
    rwa [Nat.zero_add] at hi'
  obtain ⟨hresult, hlength⟩ := appendEach_failed (B := B) (w := state.writer) hfail
  rw [drainBuffer]
  generalize state.writer.appendEach B io.append 0 state.buffer = r at hresult hlength ⊢
  obtain ⟨after, result⟩ := r
  subst hresult
  exact ⟨rfl, hlength⟩

theorem appendAll_append (w : LogWriter) (ds es : List Decision) :
    w.appendAll B (ds ++ es) = (w.appendAll B ds).appendAll B es := List.foldl_append

theorem appendAll_length (w : LogWriter) (ds : List Decision) :
    (w.appendAll B ds).file.length = w.file.length + 100 * ds.length := by
  rw [appendAll_eq B w.macKey ds w rfl, List.length_append, frames_length]

/-- Writing out the buffer would complete the log of the accepted decisions. -/
def Kept (B : Blake3) (w : LogWriter) (s : Sink) (acc : List Decision) : Prop :=
  s.state.writer.flat.appendAll B s.state.buffer = w.appendAll B acc

/-- Even with the buffer written out the log is too short for the accepted decisions. -/
def Short (w : LogWriter) (s : Sink) (acc : List Decision) : Prop :=
  s.state.writer.stream.length + 100 * s.state.buffer.length < w.file.length + 100 * acc.length

section
variable {w : LogWriter} {s : Sink} {acc : List Decision}

theorem Kept.length (h : Kept B w s acc) :
    s.state.writer.stream.length + 100 * s.state.buffer.length = w.file.length + 100 * acc.length := by
  have hlength := congrArg (fun w => w.file.length) h
  simp only [appendAll_length] at hlength
  exact hlength

theorem Kept.turn (h : Kept B w s acc) (hio : TurnKept s io) : Kept B w (flushTurn B s io) acc := by
  show (drainBuffer B s.state io).1.writer.flat.appendAll B (drainBuffer B s.state io).1.buffer = _
  rw [drainBuffer_buffer, drainBuffer_kept hio, h]
  rfl

theorem Kept.lose (h : Kept B w s acc) (hio : ¬ TurnKept s io) : Short w (flushTurn B s io) acc := by
  have hlost := (drainBuffer_lost (B := B) hio).2
  have hlength := h.length
  show (drainBuffer B s.state io).1.writer.stream.length + 100 * (drainBuffer B s.state io).1.buffer.length < _
  rw [drainBuffer_buffer, List.length_nil]
  omega

theorem Short.turn (h : Short w s acc) (io : DrainIo) : Short w (flushTurn B s io) acc := by
  show (drainBuffer B s.state io).1.writer.stream.length + 100 * (drainBuffer B s.state io).1.buffer.length < _
  rw [drainBuffer_buffer, List.length_nil]
  rw [Short] at h
  by_cases hio : TurnKept s io
  · have hfile := congrArg (fun w => w.file.length) (drainBuffer_kept (B := B) hio)
    simp only [appendAll_length] at hfile
    change (drainBuffer B s.state io).1.writer.stream.length = s.state.writer.stream.length + _ at hfile
    omega
  · have hlost := (drainBuffer_lost (B := B) hio).2
    omega

theorem Short.file_ne (h : Short w s acc) :
    (s.state.writer.flat.appendAll B s.state.buffer).file ≠ (w.appendAll B acc).file := by
  intro heq
  have hlength := congrArg List.length heq
  rw [appendAll_length, appendAll_length] at hlength
  rw [Short] at h
  change s.state.writer.stream.length + _ = _ at hlength
  omega

theorem emit_cases (capacity : Nat) (s : Sink) (d : Decision) :
    ((emit capacity s d).2 = .ok () ∧ (emit capacity s d).1.state.writer = s.state.writer ∧
      (emit capacity s d).1.state.buffer = s.state.buffer ++ [d]) ∨
    ((∃ e, (emit capacity s d).2 = .error e) ∧ (emit capacity s d).1 = s) := by
  rw [emit]
  split
  · exact .inr ⟨⟨_, rfl⟩, rfl⟩
  · split
    · exact .inr ⟨⟨_, rfl⟩, rfl⟩
    · exact .inl ⟨rfl, rfl, rfl⟩

variable {capacity : Nat}

theorem accepted_emit_ok (h : (emit capacity s d).2 = .ok ()) (rest : List Action) :
    accepted B capacity s (.emit d :: rest) = d :: accepted B capacity (emit capacity s d).1 rest := by
  rw [accepted]
  generalize emit capacity s d = r at h ⊢
  obtain ⟨after, result⟩ := r
  subst h
  rfl

theorem accepted_emit_error {e : ReceiptError} (h : (emit capacity s d).2 = .error e) (rest : List Action) :
    accepted B capacity s (.emit d :: rest) = accepted B capacity (emit capacity s d).1 rest := by
  rw [accepted]
  generalize emit capacity s d = r at h ⊢
  obtain ⟨after, result⟩ := r
  subst h
  rfl

theorem Kept.emit (h : Kept B w s acc) (hok : (emit capacity s d).2 = .ok ()) :
    Kept B w (emit capacity s d).1 (acc ++ [d]) := by
  obtain ⟨-, hwriter, hbuffer⟩ | ⟨⟨e, he⟩, -⟩ := emit_cases capacity s d
  · rw [Kept, hwriter, hbuffer, appendAll_append, appendAll_append, h]
  · rw [hok] at he
    cases he

theorem Short.emit (h : Short w s acc) (hok : (emit capacity s d).2 = .ok ()) :
    Short w (emit capacity s d).1 (acc ++ [d]) := by
  obtain ⟨-, hwriter, hbuffer⟩ | ⟨⟨e, he⟩, -⟩ := emit_cases capacity s d
  · rw [Short] at h ⊢
    rw [hwriter, hbuffer, List.length_append, List.length_append]
    simp only [List.length_singleton]
    omega
  · rw [hok] at he
    cases he

end

theorem run_short {w : LogWriter} (capacity : Nat) (actions : List Action) : ∀ {s : Sink} {acc : List Decision},
    Short w s acc → Short w (run B capacity s actions) (acc ++ accepted B capacity s actions) := by
  induction actions with
  | nil =>
    intro s acc h
    rw [accepted, List.append_nil]
    exact h
  | cons action rest ih =>
    intro s acc h
    cases action with
    | drain io => exact ih (h.turn io)
    | emit d =>
      obtain ⟨hok, -⟩ | ⟨⟨e, he⟩, hsame⟩ := emit_cases capacity s d
      · have hrest := ih (h.emit hok)
        rw [accepted_emit_ok hok, List.append_cons]
        exact hrest
      · rw [accepted_emit_error he]
        refine ih ?_
        show Short w (emit capacity s d).1 acc
        rw [hsame]
        exact h

theorem run_kept {w : LogWriter} (capacity : Nat) (actions : List Action) : ∀ {s : Sink} {acc : List Decision},
    Kept B w s acc →
    (ActionsKept B capacity s actions → Kept B w (run B capacity s actions) (acc ++ accepted B capacity s actions)) ∧
    (¬ ActionsKept B capacity s actions →
      Short w (run B capacity s actions) (acc ++ accepted B capacity s actions)) := by
  induction actions with
  | nil =>
    intro s acc h
    rw [accepted, List.append_nil]
    exact ⟨fun _ => h, fun hnot => absurd trivial hnot⟩
  | cons action rest ih =>
    intro s acc h
    cases action with
    | drain io =>
      by_cases hio : TurnKept s io
      · obtain ⟨hkept, hshort⟩ := ih (h.turn hio)
        exact ⟨fun hall => hkept hall.2, fun hnot => hshort (fun hrest => hnot ⟨hio, hrest⟩)⟩
      · exact ⟨fun hall => absurd hall.1 hio, fun _ => run_short capacity rest (h.lose hio)⟩
    | emit d =>
      obtain ⟨hok, -⟩ | ⟨⟨e, he⟩, hsame⟩ := emit_cases capacity s d
      · have hrest := ih (h.emit hok)
        rw [accepted_emit_ok hok, List.append_cons]
        exact hrest
      · rw [accepted_emit_error he]
        refine ih ?_
        show Kept B w (emit capacity s d).1 acc
        rw [hsame]
        exact h

theorem actionsKept_append {capacity : Nat} {before after : List Action} : ∀ {s : Sink},
    ActionsKept B capacity s (before ++ after) ↔
      ActionsKept B capacity s before ∧ ActionsKept B capacity (run B capacity s before) after := by
  induction before with
  | nil =>
    intro s
    exact (iff_of_eq (true_and _)).symm
  | cons action rest ih =>
    intro s
    cases action with
    | emit d => exact ih
    | drain io =>
      refine (and_congr_right fun _ => ih).trans ?_
      exact and_assoc.symm

theorem turns_short {w : LogWriter} {acc : List Decision} (turns : List DrainIo) : ∀ {s : Sink},
    Short w s acc → Short w (flushTurns B s turns) acc := by
  induction turns with
  | nil => exact fun h => h
  | cons io rest ih => exact fun h => ih (h.turn io)

variable {turns : List DrainIo}

theorem turns_kept {w : LogWriter} {acc : List Decision} : ∀ {s : Sink}, Kept B w s acc →
    (TurnsKept B s turns → Kept B w (flushTurns B s turns) acc) ∧
    (¬ TurnsKept B s turns → Short w (flushTurns B s turns) acc) := by
  induction turns with
  | nil =>
    intro s h
    exact ⟨fun _ => h, fun hnot => absurd trivial hnot⟩
  | cons io rest ih =>
    intro s h
    by_cases hio : TurnKept s io
    · obtain ⟨hkept, hshort⟩ := ih (h.turn hio)
      exact ⟨fun hall => hkept hall.2, fun hnot => hshort (fun hrest => hnot ⟨hio, hrest⟩)⟩
    · exact ⟨fun hall => absurd hall.1 hio, fun _ => turns_short rest (h.lose hio)⟩

theorem new_kept (w : LogWriter) : Kept B w (Sink.new w) [] := by
  rw [Kept, Sink.new, BufferedLog.flat, BufferedLog.stream, List.append_nil]

theorem shutdown_ok {s : Sink} {last : DrainIo} {flush : WriteIo} (h : (shutdown B s turns last flush).2 = .ok ()) :
    (shutdown B s turns last flush).1.state.writer.file =
      ((flushTurns B { s with shutdown := true } turns).state.writer.flat.appendAll B
        (flushTurns B { s with shutdown := true } turns).state.buffer).file := by
  rw [shutdown] at h ⊢
  generalize flushTurns B { s with shutdown := true } turns = before at h ⊢
  have hlast : ∀ i < before.state.buffer.length, (last.append i).ok = true := by
    by_contra hfail
    have hlost := (drainBuffer_lost (B := B) hfail).1
    generalize drainBuffer B before.state last = r at h hlost
    obtain ⟨state, result⟩ := r
    subst hlost
    cases h
  have hflat := drainBuffer_kept (B := B) hlast
  generalize drainBuffer B before.state last = r at h hflat ⊢
  obtain ⟨state, result⟩ := r
  cases result with
  | error e => cases h
  | ok u =>
    change (state.writer.flush flush).2 = .ok () at h
    change (state.writer.flush flush).1.file = _
    rw [← hflat]
    change _ = state.writer.flat.file
    rw [← flush_flat state.writer flush]
    change _ = (state.writer.flush flush).1.file ++ (state.writer.flush flush).1.pending
    rw [flush_ok h, List.append_nil]

theorem Short.shutdown_ne {w : LogWriter} {s : Sink} {acc : List Decision} (h : Short w s acc) {last : DrainIo}
    {flush : WriteIo} (hok : (shutdown B s turns last flush).2 = .ok ()) :
    (shutdown B s turns last flush).1.state.writer.file ≠ (w.appendAll B acc).file := by
  rw [shutdown_ok hok]
  have hstopped : Short w { s with shutdown := true } acc := h
  exact (turns_short turns hstopped).file_ne

/-- After a shutdown that returns Ok the log holds the accepted decisions, each once and in their
order, exactly when the flush loop failed at no entry. -/
theorem shutdown_keeps_accepted_iff (B : Blake3) (capacity : Nat) (w : LogWriter) (actions : List Action)
    (turns : List DrainIo) (last : DrainIo) (flush : WriteIo)
    (hok : (shutdown B (run B capacity (Sink.new w) actions) turns last flush).2 = .ok ()) :
    (shutdown B (run B capacity (Sink.new w) actions) turns last flush).1.state.writer.file =
        (w.appendAll B (accepted B capacity (Sink.new w) actions)).file ↔
      ActionsKept B capacity (Sink.new w) actions ∧
        TurnsKept B { run B capacity (Sink.new w) actions with shutdown := true } turns := by
  obtain ⟨hkept, hshort⟩ := run_kept capacity actions (new_kept (B := B) w)
  rw [List.nil_append] at hkept hshort
  generalize accepted B capacity (Sink.new w) actions = acc at hkept hshort ⊢
  generalize run B capacity (Sink.new w) actions = s at hkept hshort hok ⊢
  constructor
  · intro heq
    by_contra hnot
    by_cases hactions : ActionsKept B capacity (Sink.new w) actions
    · have hs : Kept B w { s with shutdown := true } acc := hkept hactions
      have hturns := (turns_kept hs).2 (fun hturns => hnot ⟨hactions, hturns⟩)
      rw [shutdown_ok hok] at heq
      exact hturns.file_ne heq
    · exact (hshort hactions).shutdown_ne hok heq
  · rintro ⟨hactions, hturns⟩
    have hs : Kept B w { s with shutdown := true } acc := hkept hactions
    rw [shutdown_ok hok]
    exact congrArg LogWriter.file ((turns_kept hs).1 hturns)

def sampleDecision : Decision where
  decisionType := .allow
  reasonCode := .ok
  reserved := Block.zero 6
  sequenceId := 1000
  decisionId := leBlock 16 0x7644cd781446ddf89f1f833652eee03a
  eventMac := leBlock 32 0xbd95b0426a22766dad1f0022b2ef90e8b5da7d82529693f2f850763600ece1ec
  timestampUnixNs := 1767225610000000000

/-- The keyed digest of its first entry under the zero key. -/
def sampleDigests : Blake3 :=
  .ofTable []
    [((Block.zero 32, (Block.zero 32).bytes ++ sampleDecision.toBytes.bytes),
      leBlock 32 0x4a3b07e721b71c31f97af15a0de6e1424259ac94953081245d9377bdbeb72911)] []

/-- A call that succeeds and moves nothing. -/
def quiet : WriteIo := ⟨0, true⟩

def quietAppend : AppendIo := ⟨quiet, quiet, quiet⟩

def quietDrain : DrainIo := ⟨fun _ => quietAppend, quiet⟩

/-- The 82nd entry does not fit the 8192 bytes of the file's buffer any more, and emptying it for the
last write of the entry fails. -/
def fullDrain : DrainIo := ⟨fun i => if i = 81 then ⟨quiet, quiet, ⟨0, false⟩⟩ else quietAppend, quiet⟩

theorem shutdown_keeps_accepted_drained :
    accepted sampleDigests 4 (Sink.new (.fresh (Block.zero 32))) [.emit sampleDecision, .drain quietDrain] =
      [sampleDecision] ∧
    (shutdown sampleDigests (run sampleDigests 4 (Sink.new (.fresh (Block.zero 32)))
        [.emit sampleDecision, .drain quietDrain]) [] quietDrain quiet).1.state.writer.file =
      ((LogWriter.fresh (Block.zero 32)).appendAll sampleDigests
        (accepted sampleDigests 4 (Sink.new (.fresh (Block.zero 32)))
          [.emit sampleDecision, .drain quietDrain])).file := by
  refine ⟨rfl, ?_⟩
  refine (shutdown_keeps_accepted_iff sampleDigests 4 (.fresh (Block.zero 32))
    [.emit sampleDecision, .drain quietDrain] [] quietDrain quiet rfl).mpr ⟨⟨?_, trivial⟩, trivial⟩
  intro i _
  rfl

/-- Eighty-two accepted decisions, a drain that fails at the last of them, and a shutdown that
returns Ok over a log without it. -/
theorem failed_drain_loses_decision :
    accepted sampleDigests 100 (Sink.new (.fresh (Block.zero 32)))
        (List.replicate 82 (Action.emit sampleDecision) ++ [Action.drain fullDrain]) = List.replicate 82 sampleDecision ∧
    (shutdown sampleDigests (run sampleDigests 100 (Sink.new (.fresh (Block.zero 32)))
        (List.replicate 82 (Action.emit sampleDecision) ++ [Action.drain fullDrain])) [] quietDrain quiet).2 = .ok () ∧
    (shutdown sampleDigests (run sampleDigests 100 (Sink.new (.fresh (Block.zero 32)))
        (List.replicate 82 (Action.emit sampleDecision) ++ [Action.drain fullDrain])) [] quietDrain quiet).1.state.writer.file ≠
      ((LogWriter.fresh (Block.zero 32)).appendAll sampleDigests (List.replicate 82 sampleDecision)).file := by
  have haccepted : accepted sampleDigests 100 (Sink.new (.fresh (Block.zero 32)))
      (List.replicate 82 (Action.emit sampleDecision) ++ [Action.drain fullDrain]) = List.replicate 82 sampleDecision := by rfl
  have hok : (shutdown sampleDigests (run sampleDigests 100 (Sink.new (.fresh (Block.zero 32)))
      (List.replicate 82 (Action.emit sampleDecision) ++ [Action.drain fullDrain])) [] quietDrain quiet).2 = .ok () := by
    decide +kernel
  have hbuffer : (run sampleDigests 100 (Sink.new (.fresh (Block.zero 32)))
      (List.replicate 82 (Action.emit sampleDecision))).state.buffer.length = 82 := by decide +kernel
  have hnot : ¬ ActionsKept sampleDigests 100 (Sink.new (.fresh (Block.zero 32)))
      (List.replicate 82 (Action.emit sampleDecision) ++ [Action.drain fullDrain]) := by
    intro hkept
    have hturn := (actionsKept_append.mp hkept).2.1 81 (by rw [hbuffer]; decide)
    cases hturn
  refine ⟨haccepted, hok, ?_⟩
  have hshort := (run_kept 100 _ (new_kept (B := sampleDigests) (.fresh (Block.zero 32)))).2 hnot
  rw [List.nil_append, haccepted] at hshort
  exact hshort.shutdown_ne hok

end AgentPassport.ModeASink
