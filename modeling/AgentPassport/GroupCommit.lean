import AgentPassport.ModeASink
import Mathlib.Data.List.TakeWhile

/-! Group commit (`durability.rs`, Modes B1 and B2): decisions are admitted to the open batch,
the commit thread seals it, writes and syncs it outside the lock and moves the watermark. One step
is one critical section, or one call of the commit thread into the log; writes succeed. The
history of admissions is kept beside the state, for the statements only. -/
namespace AgentPassport.GroupCommit
open ByteBlocks DecisionRecord ReceiptLog

inductive ReceiptError where
  | bufferFull
  | shutdownInProgress
  deriving DecidableEq

structure BatchManagerState where
  currentBatch : List Decision
  currentBatchId : Nat
  nextUncommittedBatchId : Nat
  shutdown : Bool

structure Config where
  bufferCapacity : Nat
  maxBatchSize : Nat

def BatchManagerState.new : BatchManagerState := ⟨[], 0, 0, false⟩

/-- `admit`. -/
def admitDecision (c : Config) (m : BatchManagerState) (d : Decision) : BatchManagerState × Except ReceiptError Nat :=
  if m.shutdown then (m, .error .shutdownInProgress)
  else if c.bufferCapacity ≤ m.currentBatch.length then (m, .error .bufferFull)
  else ({ m with currentBatch := m.currentBatch ++ [d] }, .ok m.currentBatchId)

/-- The condition on which `wait_for_commit` goes on waiting. -/
def waits (m : BatchManagerState) (batchId : Nat) : Bool := m.nextUncommittedBatchId ≤ batchId

def signalShutdown (m : BatchManagerState) : BatchManagerState := { m with shutdown := true }

/-- Where the commit thread stands: parked, with the batch open for more, over the decisions of a
sealed batch that are still to be written, before the watermark moves, or gone. -/
inductive CommitThread where
  | idle
  | gather
  | write (rest : List Decision) (batchId : Nat)
  | publish (batchId : Nat)
  | exited

/-- A caller of `wait_for_commit`, or of nothing. -/
inductive Caller where
  | free
  | waiting (batchId : Nat)
  deriving DecidableEq

structure World (ι : Type) where
  manager : BatchManagerState
  thread : CommitThread
  writer : LogWriter
  /-- The bytes of the log at the last sync. -/
  synced : List UInt8
  callers : ι → Caller
  /-- Every decision that was admitted, with the batch id it got. -/
  admitted : List (Decision × Nat)

inductive Event (ι : Type) where
  | admitDecision (d : Decision)
  | callWait (i : ι) (batchId : Nat)
  | waitReturns (i : ι) (batchId : Nat)
  | signalShutdown
  | commit (timedOut : Bool)

section
variable {ι : Type} [DecidableEq ι] (B : Blake3) (c : Config)

/-- One step of `commit_loop`. The batch is sealed when the gathering ends: on shutdown, at the size
limit, or when the window has passed. -/
def commitStep (timedOut : Bool) (w : World ι) : Option (World ι) :=
  match w.thread with
  | .idle =>
    if w.manager.currentBatch = [] then
      if w.manager.shutdown then some { w with thread := .exited } else none
    else some { w with thread := .gather }
  | .gather =>
    if w.manager.shutdown || decide (c.maxBatchSize ≤ w.manager.currentBatch.length) || timedOut then
      some { w with
        manager := { w.manager with currentBatch := [], currentBatchId := w.manager.currentBatchId + 1 }
        thread := .write w.manager.currentBatch w.manager.currentBatchId }
    else none
  | .write (d :: rest) batchId => some { w with writer := w.writer.append B d, thread := .write rest batchId }
  | .write [] batchId => some { w with synced := w.writer.file, thread := .publish batchId }
  | .publish batchId =>
    some { w with manager := { w.manager with nextUncommittedBatchId := batchId + 1 }, thread := .idle }
  | .exited => none

/-- The step an event stands for, if it can be taken. -/
def step (w : World ι) : Event ι → Option (World ι)
  | .admitDecision d =>
    match admitDecision c w.manager d with
    | (manager, .ok batchId) => some { w with manager := manager, admitted := w.admitted ++ [(d, batchId)] }
    | (manager, .error _) => some { w with manager := manager }
  | .callWait i batchId =>
    if w.callers i = .free then some { w with callers := Function.update w.callers i (.waiting batchId) } else none
  | .waitReturns i batchId =>
    if w.callers i = .waiting batchId ∧ waits w.manager batchId = false then
      some { w with callers := Function.update w.callers i .free }
    else none
  | .signalShutdown => some { w with manager := signalShutdown w.manager }
  | .commit timedOut => commitStep B c timedOut w

def World.start (log : LogWriter) : World ι where
  manager := .new
  thread := .idle
  writer := log
  synced := log.file
  callers := fun _ => .free
  admitted := []

/-- What any order of steps leads to. -/
inductive Reachable (log : LogWriter) : World ι → Prop
  | start : Reachable log (.start log)
  | step {w w' : World ι} {e : Event ι} (before : Reachable log w) (taken : step B c w e = some w') :
      Reachable log w'

end

/-- The decisions admitted with a batch id, in their order. -/
def batch (admitted : List (Decision × Nat)) (id : Nat) : List Decision :=
  (admitted.filter (fun a => a.2 = id)).map Prod.fst

def batches (admitted : List (Decision × Nat)) (k : Nat) : List Decision :=
  ((List.range k).map (batch admitted)).flatten

theorem batches_succ (admitted : List (Decision × Nat)) (k : Nat) :
    batches admitted (k + 1) = batches admitted k ++ batch admitted k := by
  simp only [batches, List.range_succ, List.map_append, List.map_cons, List.map_nil, List.flatten_append,
    List.flatten_cons, List.flatten_nil, List.append_nil]

theorem batch_append (admitted : List (Decision × Nat)) (d : Decision) (id k : Nat) :
    batch (admitted ++ [(d, id)]) k = batch admitted k ++ if id = k then [d] else [] := by
  rw [batch, List.filter_append, List.map_append]
  congr 1
  by_cases h : id = k
  · simp [h]
  · simp [h]

variable {admitted : List (Decision × Nat)}

theorem batches_append {d : Decision} {id k : Nat} (h : k ≤ id) :
    batches (admitted ++ [(d, id)]) k = batches admitted k := by
  induction k with
  | zero => rfl
  | succ k ih =>
    rw [batches_succ, batches_succ, ih (by omega), batch_append, if_neg (by omega), List.append_nil]

theorem batches_eq_take (h : admitted.Pairwise (fun a b => a.2 ≤ b.2)) (k : Nat) :
    batches admitted k = (admitted.takeWhile (fun a => a.2 < k)).map Prod.fst := by
  induction k with
  | zero =>
    cases admitted with
    | nil => rfl
    | cons a rest => simp [batches]
  | succ k ih =>
    rw [batches_succ, ih, batch, ← List.map_append]
    congr 1
    clear ih
    induction admitted with
    | nil => rfl
    | cons a rest ih =>
      obtain ⟨ha, hrest⟩ := List.pairwise_cons.mp h
      have ih := ih hrest
      obtain hlt | heq | hgt := Nat.lt_trichotomy a.2 k
      · rw [List.takeWhile_cons_of_pos (by simpa using hlt), List.takeWhile_cons_of_pos (by simp; omega),
          List.filter_cons_of_neg (by simp; omega), List.cons_append, ih]
      · have hnone : rest.takeWhile (fun a => decide (a.2 < k)) = [] := by
          cases rest with
          | nil => rfl
          | cons b rest =>
            rw [List.takeWhile_cons_of_neg]
            have := ha b List.mem_cons_self
            simp
            omega
        rw [hnone, List.nil_append] at ih
        rw [List.takeWhile_cons_of_neg (by simp; omega), List.takeWhile_cons_of_pos (by simp; omega),
          List.filter_cons_of_pos (by simpa using heq), List.nil_append, ih]
      · have hempty : (a :: rest).filter (fun a => decide (a.2 = k)) = [] := by
          rw [List.filter_eq_nil_iff]
          intro b hb
          have hle : a.2 ≤ b.2 := by
            cases hb with
            | head => exact Nat.le_refl _
            | tail _ hb => exact ha b hb
          simp
          omega
        rw [hempty, List.append_nil, List.takeWhile_cons_of_neg (by simp; omega),
          List.takeWhile_cons_of_neg (by simp; omega)]

section
variable {ι : Type} {B : Blake3} {c : Config} {log : LogWriter}

/-- What the log holds while the commit thread is between two batches. -/
structure Settled (B : Blake3) (log : LogWriter) (w : World ι) : Prop where
  watermark : w.manager.nextUncommittedBatchId = w.manager.currentBatchId
  written : w.writer = log.appendAll B (batches w.admitted w.manager.currentBatchId)
  synced : w.synced = w.writer.file

/-- What the log holds while a sealed batch is written. -/
structure Writing (B : Blake3) (log : LogWriter) (w : World ι) (rest : List Decision) (batchId : Nat) : Prop where
  sealed : w.manager.currentBatchId = batchId + 1
  watermark : w.manager.nextUncommittedBatchId = batchId
  written : ∃ done, done ++ rest = batch w.admitted batchId ∧
    w.writer = log.appendAll B (batches w.admitted batchId ++ done)
  synced : w.synced = (log.appendAll B (batches w.admitted batchId)).file

/-- What the log holds when a batch is synced and the watermark is still to move. -/
structure Synced (B : Blake3) (log : LogWriter) (w : World ι) (batchId : Nat) : Prop where
  sealed : w.manager.currentBatchId = batchId + 1
  watermark : w.manager.nextUncommittedBatchId = batchId
  written : w.writer = log.appendAll B (batches w.admitted (batchId + 1))
  synced : w.synced = w.writer.file

def ThreadInv (B : Blake3) (log : LogWriter) (w : World ι) : Prop :=
  match w.thread with
  | .idle => Settled B log w
  | .gather => Settled B log w
  | .write rest batchId => Writing B log w rest batchId
  | .publish batchId => Synced B log w batchId
  | .exited => Settled B log w ∧ w.manager.shutdown = true ∧ w.manager.currentBatch = []

structure Inv (B : Blake3) (log : LogWriter) (w : World ι) : Prop where
  ordered : w.admitted.Pairwise (fun a b => a.2 ≤ b.2)
  ids : ∀ a ∈ w.admitted, a.2 ≤ w.manager.currentBatchId
  opened : w.manager.currentBatch = batch w.admitted w.manager.currentBatchId
  thread : ThreadInv B log w

theorem start_inv : Inv B log (World.start log : World ι) where
  ordered := List.Pairwise.nil
  ids := by
    intro a ha
    cases ha
  opened := rfl
  thread := ⟨rfl, rfl, rfl⟩

theorem appendAll_snoc (ds : List Decision) (d : Decision) :
    log.appendAll B (ds ++ [d]) = (log.appendAll B ds).append B d := by
  rw [LogWriter.appendAll, LogWriter.appendAll, List.foldl_append]
  rfl

theorem Inv.admitDecision {w : World ι} (h : Inv B log w) (d : Decision) (hopen : w.manager.shutdown = false) :
    Inv B log { w with
      manager := { w.manager with currentBatch := w.manager.currentBatch ++ [d] }
      admitted := w.admitted ++ [(d, w.manager.currentBatchId)] } := by
  have hbatches : ∀ k ≤ w.manager.currentBatchId,
      batches (w.admitted ++ [(d, w.manager.currentBatchId)]) k = batches w.admitted k :=
    fun k hk => batches_append hk
  refine ⟨?_, ?_, ?_, ?_⟩
  · rw [List.pairwise_append]
    refine ⟨h.ordered, List.pairwise_singleton _ _, ?_⟩
    intro a ha b hb
    rw [List.mem_singleton.mp hb]
    exact h.ids a ha
  · intro a ha
    obtain ha | ha := List.mem_append.mp ha
    · exact h.ids a ha
    · rw [List.mem_singleton.mp ha]
  · show w.manager.currentBatch ++ [d] = batch _ _
    rw [batch_append, if_pos rfl, h.opened]
  · have hthread := h.thread
    simp only [ThreadInv] at hthread ⊢
    cases hpc : w.thread with
    | idle =>
      rw [hpc] at hthread
      exact ⟨hthread.watermark, by rw [hbatches _ (Nat.le_refl _)]; exact hthread.written, hthread.synced⟩
    | gather =>
      rw [hpc] at hthread
      exact ⟨hthread.watermark, by rw [hbatches _ (Nat.le_refl _)]; exact hthread.written, hthread.synced⟩
    | write rest batchId =>
      rw [hpc] at hthread
      have hlt : batchId < w.manager.currentBatchId := by rw [hthread.sealed]; exact Nat.lt_succ_self _
      obtain ⟨done, hdone, hwriter⟩ := hthread.written
      refine ⟨hthread.sealed, hthread.watermark, ⟨done, ?_, ?_⟩, ?_⟩
      · rw [batch_append, if_neg (by omega), List.append_nil]
        exact hdone
      · rw [hbatches _ (by omega)]
        exact hwriter
      · rw [hbatches _ (by omega)]
        exact hthread.synced
    | publish batchId =>
      rw [hpc] at hthread
      refine ⟨hthread.sealed, hthread.watermark, ?_, hthread.synced⟩
      rw [hbatches _ (by rw [hthread.sealed])]
      exact hthread.written
    | exited =>
      rw [hpc] at hthread
      rw [hthread.2.1] at hopen
      cases hopen

theorem Inv.seal {w : World ι} (h : Inv B log w) (hpc : w.thread = .gather) :
    Inv B log { w with
      manager := { w.manager with currentBatch := [], currentBatchId := w.manager.currentBatchId + 1 }
      thread := .write w.manager.currentBatch w.manager.currentBatchId } := by
  have hthread := h.thread
  rw [ThreadInv, hpc] at hthread
  refine ⟨h.ordered, ?_, ?_, ?_⟩
  · intro a ha
    exact Nat.le_succ_of_le (h.ids a ha)
  · show [] = batch w.admitted (w.manager.currentBatchId + 1)
    have hnone : w.admitted.filter (fun a => a.2 = w.manager.currentBatchId + 1) = [] := by
      rw [List.filter_eq_nil_iff]
      intro a ha
      have := h.ids a ha
      simp
      omega
    rw [batch, hnone]
    rfl
  · refine ⟨rfl, hthread.watermark, ⟨[], h.opened, ?_⟩, ?_⟩
    · rw [List.append_nil]
      exact hthread.written
    · rw [← hthread.written]
      exact hthread.synced

theorem Inv.commit {w w' : World ι} {timedOut : Bool} (h : Inv B log w)
    (hstep : commitStep B c timedOut w = some w') : Inv B log w' := by
  have hthread := h.thread
  rw [commitStep] at hstep
  cases hpc : w.thread with
  | idle =>
    rw [ThreadInv, hpc] at hthread
    simp only [hpc] at hstep
    split at hstep
    · rename_i hempty
      split at hstep
      · rename_i hshutdown
        cases hstep
        exact ⟨h.ordered, h.ids, h.opened, ⟨hthread.watermark, hthread.written, hthread.synced⟩, hshutdown, hempty⟩
      · cases hstep
    · cases hstep
      exact ⟨h.ordered, h.ids, h.opened, hthread.watermark, hthread.written, hthread.synced⟩
  | gather =>
    simp only [hpc] at hstep
    split at hstep
    · cases hstep
      exact h.seal hpc
    · cases hstep
  | write rest batchId =>
    rw [ThreadInv, hpc] at hthread
    obtain ⟨done, hdone, hwriter⟩ := hthread.written
    cases rest with
    | cons d rest =>
      simp only [hpc] at hstep
      cases hstep
      refine ⟨h.ordered, h.ids, h.opened, hthread.sealed, hthread.watermark, ⟨done ++ [d], ?_, ?_⟩, hthread.synced⟩
      · rw [List.append_assoc]
        exact hdone
      · rw [← List.append_assoc, appendAll_snoc, ← hwriter]
    | nil =>
      simp only [hpc] at hstep
      cases hstep
      rw [List.append_nil] at hdone
      refine ⟨h.ordered, h.ids, h.opened, hthread.sealed, hthread.watermark, ?_, rfl⟩
      rw [batches_succ, ← hdone]
      exact hwriter
  | publish batchId =>
    rw [ThreadInv, hpc] at hthread
    simp only [hpc] at hstep
    cases hstep
    refine ⟨h.ordered, h.ids, h.opened, hthread.sealed.symm, ?_, hthread.synced⟩
    show w.writer = log.appendAll B (batches w.admitted w.manager.currentBatchId)
    rw [hthread.sealed]
    exact hthread.written
  | exited =>
    simp only [hpc] at hstep
    cases hstep

theorem ThreadInv.rest {w : World ι} (h : ThreadInv B log w) {shutdown : Bool} (callers : ι → Caller)
    (hkept : w.manager.shutdown = true → shutdown = true) :
    ThreadInv B log { w with manager := { w.manager with shutdown := shutdown }, callers := callers } := by
  simp only [ThreadInv] at h ⊢
  cases hpc : w.thread with
  | idle =>
    rw [hpc] at h
    exact ⟨h.watermark, h.written, h.synced⟩
  | gather =>
    rw [hpc] at h
    exact ⟨h.watermark, h.written, h.synced⟩
  | write rest batchId =>
    rw [hpc] at h
    exact ⟨h.sealed, h.watermark, h.written, h.synced⟩
  | publish batchId =>
    rw [hpc] at h
    exact ⟨h.sealed, h.watermark, h.written, h.synced⟩
  | exited =>
    rw [hpc] at h
    exact ⟨⟨h.1.watermark, h.1.written, h.1.synced⟩, hkept h.2.1, h.2.2⟩

theorem Inv.step [DecidableEq ι] {w w' : World ι} {e : Event ι} (h : Inv B log w)
    (hstep : step B c w e = some w') : Inv B log w' := by
  cases e with
  | admitDecision d =>
    rw [GroupCommit.step] at hstep
    rw [GroupCommit.admitDecision] at hstep
    cases hshutdown : w.manager.shutdown with
    | true =>
      rw [hshutdown] at hstep
      cases hstep
      exact h
    | false =>
      simp only [hshutdown, Bool.false_eq_true, if_false] at hstep
      by_cases hfull : c.bufferCapacity ≤ w.manager.currentBatch.length
      · simp only [if_pos hfull] at hstep
        cases hstep
        exact h
      · simp only [if_neg hfull] at hstep
        cases hstep
        have hadmit := h.admitDecision d hshutdown
        rw [← hshutdown]
        exact hadmit
  | callWait i batchId =>
    rw [GroupCommit.step] at hstep
    split at hstep
    · cases hstep
      exact ⟨h.ordered, h.ids, h.opened, h.thread.rest _ id⟩
    · cases hstep
  | waitReturns i batchId =>
    rw [GroupCommit.step] at hstep
    split at hstep
    · cases hstep
      exact ⟨h.ordered, h.ids, h.opened, h.thread.rest _ id⟩
    · cases hstep
  | signalShutdown =>
    cases hstep
    exact ⟨h.ordered, h.ids, h.opened, h.thread.rest _ (fun _ => rfl)⟩
  | commit timedOut => exact h.commit hstep

theorem Reachable.inv [DecidableEq ι] {w : World ι} (h : Reachable B c log w) : Inv B log w := by
  induction h with
  | start => exact start_inv
  | step _ taken ih => exact ih.step taken

theorem Inv.synced_batches {w : World ι} (h : Inv B log w) :
    ∃ k, w.manager.nextUncommittedBatchId ≤ k ∧ k ≤ w.manager.currentBatchId ∧
      w.synced = (log.appendAll B (batches w.admitted k)).file := by
  have hsettled : Settled B log w → ∃ k, w.manager.nextUncommittedBatchId ≤ k ∧ k ≤ w.manager.currentBatchId ∧
      w.synced = (log.appendAll B (batches w.admitted k)).file := by
    intro hs
    refine ⟨w.manager.currentBatchId, ?_, Nat.le_refl _, ?_⟩
    · rw [hs.watermark]
    · rw [hs.synced, hs.written]
  have hthread := h.thread
  rw [ThreadInv] at hthread
  cases hpc : w.thread with
  | idle =>
    rw [hpc] at hthread
    exact hsettled hthread
  | gather =>
    rw [hpc] at hthread
    exact hsettled hthread
  | write rest batchId =>
    rw [hpc] at hthread
    refine ⟨batchId, ?_, ?_, hthread.synced⟩
    · rw [hthread.watermark]
    · rw [hthread.sealed]
      exact Nat.le_succ _
  | publish batchId =>
    rw [hpc] at hthread
    refine ⟨batchId + 1, ?_, ?_, ?_⟩
    · rw [hthread.watermark]
      exact Nat.le_succ _
    · rw [hthread.sealed]
    · rw [hthread.synced, hthread.written]
  | exited =>
    rw [hpc] at hthread
    exact hsettled hthread.1

theorem index_lt_of_id_lt (h : admitted.Pairwise (fun a b => a.2 ≤ b.2)) {n k : Nat} {a : Decision × Nat}
    (ha : admitted[n]? = some a) (hk : a.2 < k) : n < (admitted.takeWhile (fun a => a.2 < k)).length := by
  induction admitted generalizing n with
  | nil => cases ha
  | cons b rest ih =>
    obtain ⟨hb, hrest⟩ := List.pairwise_cons.mp h
    have hbk : b.2 < k := by
      cases n with
      | zero =>
        cases ha
        exact hk
      | succ n => exact Nat.lt_of_le_of_lt (hb a (List.mem_of_getElem? ha)) hk
    rw [List.takeWhile_cons_of_pos (by simpa using hbk), List.length_cons]
    cases n with
    | zero => exact Nat.succ_pos _
    | succ n => exact Nat.succ_lt_succ (ih hrest ha)

theorem takeWhile_eq_take (admitted : List (Decision × Nat)) (k : Nat) :
    admitted.takeWhile (fun a => a.2 < k) = admitted.take (admitted.takeWhile (fun a => a.2 < k)).length :=
  List.prefix_iff_eq_take.mp (List.takeWhile_prefix _)

theorem Inv.exited {w : World ι} (h : Inv B log w) (hpc : w.thread = .exited) :
    (∀ a ∈ w.admitted, a.2 < w.manager.nextUncommittedBatchId) ∧
      w.synced = (log.appendAll B (w.admitted.map Prod.fst)).file := by
  have hthread := h.thread
  rw [ThreadInv, hpc] at hthread
  obtain ⟨hsettled, -, hempty⟩ := hthread
  have hids : ∀ a ∈ w.admitted, a.2 < w.manager.currentBatchId := by
    intro a ha
    have hne : a.2 ≠ w.manager.currentBatchId := by
      intro heq
      have hmem : a.1 ∈ batch w.admitted w.manager.currentBatchId :=
        List.mem_map_of_mem (List.mem_filter.mpr ⟨ha, by simpa using heq⟩)
      rw [← h.opened, hempty] at hmem
      cases hmem
    exact Nat.lt_of_le_of_ne (h.ids a ha) hne
  have hall : w.admitted.takeWhile (fun a => a.2 < w.manager.currentBatchId) = w.admitted := by
    rw [List.takeWhile_eq_self_iff]
    intro a ha
    simpa using hids a ha
  refine ⟨?_, ?_⟩
  · rw [hsettled.watermark]
    exact hids
  · rw [hsettled.synced, hsettled.written, batches_eq_take h.ordered, hall]

/-- In every state that any order of steps leads to, the synced log is the first batches, each whole
and each admission in it once; `wait_for_commit` returns over synced batches only; the watermark
never passes the open batch; and the commit thread leaves nothing behind. -/
theorem group_commit_safe [DecidableEq ι] {w : World ι} (h : Reachable B c log w) :
    (∃ k m, k ≤ w.manager.currentBatchId ∧ w.synced = (log.appendAll B (batches w.admitted k)).file ∧
      batches w.admitted k = (w.admitted.take m).map Prod.fst) ∧
    (∀ i batchId w', step B c w (.waitReturns i batchId) = some w' →
      ∃ m, w.synced = (log.appendAll B ((w.admitted.take m).map Prod.fst)).file ∧
        ∀ n a, w.admitted[n]? = some a → a.2 ≤ batchId → n < m) ∧
    w.manager.nextUncommittedBatchId ≤ w.manager.currentBatchId ∧
    (w.thread = .exited → (∀ a ∈ w.admitted, a.2 < w.manager.nextUncommittedBatchId) ∧
      w.synced = (log.appendAll B (w.admitted.map Prod.fst)).file) := by
  have hinv := h.inv
  obtain ⟨k, hlow, hhigh, hsynced⟩ := hinv.synced_batches
  have htake : batches w.admitted k =
      (w.admitted.take (w.admitted.takeWhile (fun a => a.2 < k)).length).map Prod.fst := by
    rw [← takeWhile_eq_take]
    exact batches_eq_take hinv.ordered k
  refine ⟨⟨k, _, hhigh, hsynced, htake⟩, ?_, Nat.le_trans hlow hhigh, hinv.exited⟩
  intro i batchId w' hreturns
  refine ⟨_, htake ▸ hsynced, ?_⟩
  intro n a ha hle
  have hpast : batchId < w.manager.nextUncommittedBatchId := by
    rw [GroupCommit.step] at hreturns
    split at hreturns
    · rename_i hcond
      simpa [waits] using hcond.2
    · cases hreturns
  exact index_lt_of_id_lt hinv.ordered ha (by omega)

/-- The events one after the other, as long as each can be taken. -/
def replay [DecidableEq ι] (B : Blake3) (c : Config) (w : World ι) (events : List (Event ι)) : Option (World ι) :=
  events.foldlM (step B c) w

theorem Reachable.replay [DecidableEq ι] {w w' : World ι} {events : List (Event ι)} (h : Reachable B c log w)
    (hrun : replay B c w events = some w') : Reachable B c log w' := by
  induction events generalizing w with
  | nil =>
    cases hrun
    exact h
  | cons e rest ih =>
    obtain ⟨w₁, htaken, hrest⟩ := Option.bind_eq_some_iff.mp hrun
    exact ih (h.step htaken) hrest

/-- One decision is admitted and waited for, its batch is written and synced, and the thread leaves
on a shutdown. -/
def sampleEvents : List (Event Unit) :=
  [.admitDecision ModeASink.sampleDecision, .callWait () 0, .commit false, .commit true, .commit false, .commit false,
    .commit false, .signalShutdown, .commit false]

theorem group_commit_safe_sample :
    ∃ w : World Unit, Reachable ModeASink.sampleDigests ⟨1024, 64⟩ (.fresh (Block.zero 32)) w ∧
      (step ModeASink.sampleDigests ⟨1024, 64⟩ w (.waitReturns () 0)).isSome = true ∧ w.thread = .exited ∧
      w.synced = ((LogWriter.fresh (Block.zero 32)).appendAll ModeASink.sampleDigests
        [ModeASink.sampleDecision]).file := by
  have hrun : ∃ w, replay ModeASink.sampleDigests ⟨1024, 64⟩ (.start (.fresh (Block.zero 32))) sampleEvents = some w ∧
      (step ModeASink.sampleDigests ⟨1024, 64⟩ w (.waitReturns () 0)).isSome = true ∧ w.thread = .exited ∧
      w.admitted = [(ModeASink.sampleDecision, 0)] := ⟨_, rfl, rfl, rfl, rfl⟩
  obtain ⟨w, hreplay, hreturns, hexited, hadmitted⟩ := hrun
  have hreachable : Reachable ModeASink.sampleDigests ⟨1024, 64⟩ (.fresh (Block.zero 32)) w :=
    Reachable.start.replay hreplay
  have hsynced := ((group_commit_safe hreachable).2.2.2 hexited).2
  rw [hadmitted] at hsynced
  exact ⟨w, hreachable, hreturns, hexited, hsynced⟩

end

end AgentPassport.GroupCommit
