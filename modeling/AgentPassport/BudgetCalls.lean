import AgentPassport.BudgetLedger

/-! What the calls of the budget ledger answer, and what they leave alone: a call that fails or repeats
changes nothing, and what is committed stays so. -/
namespace AgentPassport.BudgetCalls
open JsText Js PlainData DelegationVerify DelegationChain BudgetLedger

/-- The result of a call, none for an exception. -/
def answer (P : Primitives) (L : Ledger) : Op → Option BudgetOperationResult
  | .reserve verifiedChain actionRef unit amountString =>
    (reserve P L verifiedChain actionRef unit amountString).toOption.map Prod.fst
  | .markDispatched actionRef => some (markDispatched L actionRef).1
  | .commit actionRef => some (commit L actionRef).1
  | .cancel actionRef => some (cancel L actionRef).1

/-- The reservation a call commits, under its action. -/
def committing (L : Ledger) : Op → Option (Str × Reservation)
  | .commit actionRef => if (commit L actionRef).1.code = .COMMITTED then L.stored actionRef else none
  | _ => none

def commits (P : Primitives) (L : Ledger) : List Op → List (Str × Reservation)
  | [] => []
  | op :: ops => (committing L op).toList ++ commits P (step P L op) ops

def contribution (id : Str) (entry : Str × Reservation) : Int :=
  if id ∈ entry.2.delegationIds then entry.2.amount else 0

variable {P : Primitives} {L : Ledger}

/-- The three calls that move a reservation on: it stays as it was and so does every counter, or it is stored
in its next state. -/
inductive Moved (L : Ledger) (result : BudgetOperationResult) (L' : Ledger) : Prop where
  | kept (h : result.ok = false ∨ result.code = .IDEMPOTENT) (same : L' = L)
  | moved (ref : Str) (r : Reservation) (state : BudgetReservationState) (stored : L.reservations.get ref = some r)
    (code : result.ok = true ∧ result.code ≠ .IDEMPOTENT) (open_ : r.state = .reserved ∨ r.state = .dispatched)
    (next : L'.reservations = L.transition ref r state)

theorem markDispatched_moved (actionRef : JsValue) :
    Moved L (markDispatched L actionRef).1 (markDispatched L actionRef).2 := by
  unfold markDispatched
  split
  · exact .kept (.inl rfl) rfl
  rename_i ref r hstored
  split
  · exact .kept (.inr rfl) rfl
  split
  · exact .kept (.inl rfl) rfl
  rename_i hreserved
  exact .moved ref r .dispatched (stored_eq hstored).2 ⟨rfl, fun h => nomatch h⟩ (.inl (not_not.mp hreserved)) rfl

theorem commit_moved (actionRef : JsValue) : Moved L (commit L actionRef).1 (commit L actionRef).2 := by
  unfold commit
  split
  · exact .kept (.inl rfl) rfl
  rename_i ref r hstored
  split
  · exact .kept (.inr rfl) rfl
  split
  · exact .kept (.inl rfl) rfl
  rename_i hopen
  split
  · exact .kept (.inl rfl) rfl
  refine .moved ref r .committed (stored_eq hstored).2 ⟨rfl, fun h => nomatch h⟩ ?_ rfl
  by_contra hnot
  exact hopen (not_or.mp hnot)

theorem cancel_moved (actionRef : JsValue) : Moved L (cancel L actionRef).1 (cancel L actionRef).2 := by
  unfold cancel
  split
  · exact .kept (.inl rfl) rfl
  rename_i ref r hstored
  split
  · exact .kept (.inr rfl) rfl
  split
  · exact .kept (.inl rfl) rfl
  rename_i hreserved
  split
  · exact .kept (.inl rfl) rfl
  exact .moved ref r .cancelled (stored_eq hstored).2 ⟨rfl, fun h => nomatch h⟩ (.inl (not_not.mp hreserved)) rfl

variable {result : BudgetOperationResult}

variable {L' : Ledger}

/-- A reservation that passes its checks is stored where none stands, and any other call of `reserve` answers
from the ledger as it is. -/
theorem reserve_cases {verifiedChain : CallerValue} {actionRef unit amountString : JsValue}
    (h : reserve P L verifiedChain actionRef unit amountString = .ok (result, L')) :
    L' = L ∨ (result.ok = true ∧ result.code = .RESERVED ∧ ∃ hold, L' = L.hold hold ∧
      Admitted P L (Op.reserve verifiedChain actionRef unit amountString).bodies hold) := by
  unfold reserve at h
  split at h
  · cases h
    exact .inl rfl
  · cases h
  · rename_i hold hchecks
    cases h
    exact .inr ⟨rfl, rfl, hold, rfl, reserveChecks_ok hchecks⟩

theorem step_rejected {op : Op} (h : answer P L op = some result)
    (hresult : result.ok = false ∨ result.code = .IDEMPOTENT) : step P L op = L := by
  have hmoved : ∀ {L' : Ledger}, Moved L result L' → L' = L := by
    intro L' hmoved
    obtain ⟨-, hsame⟩ | ⟨ref, r, state, -, ⟨hok, hcode⟩, -, -⟩ := hmoved
    · exact hsame
    · obtain hfalse | hrepeat := hresult
      · cases hok.symm.trans hfalse
      · exact absurd hrepeat hcode
  cases op with
  | reserve verifiedChain actionRef unit amountString =>
    obtain ⟨⟨result', L'⟩, hreserve⟩ := reserve_returns (P := P) L verifiedChain actionRef unit amountString
    rw [answer, hreserve] at h
    cases h
    rw [step, hreserve]
    obtain hsame | ⟨hok, hcode, -⟩ := reserve_cases hreserve
    · exact hsame
    · obtain hfalse | hrepeat := hresult
      · cases hok.symm.trans hfalse
      · cases hcode.symm.trans hrepeat
  | markDispatched actionRef =>
    cases h
    exact hmoved (markDispatched_moved actionRef)
  | commit actionRef =>
    cases h
    exact hmoved (commit_moved actionRef)
  | cancel actionRef =>
    cases h
    exact hmoved (cancel_moved actionRef)

variable {r : Reservation}

variable {ref : Str}

theorem Moved.keeps_committed (h : Moved L result L') (hget : L.reservations.get ref = some r)
    (hstate : r.state = .committed) : L'.reservations.get ref = some r := by
  obtain ⟨-, rfl⟩ | ⟨other, s, state, hstored, -, hopen, hnext⟩ := h
  · exact hget
  · have hne : other ≠ ref := by
      rintro rfl
      cases hget.symm.trans hstored
      rw [hstate] at hopen
      obtain h | h := hopen <;> cases h
    rw [hnext, Ledger.transition, OrderedMap.get_set_ne _ _ hne]
    exact hget

theorem step_keeps_committed (op : Op) (hget : L.reservations.get ref = some r) (hstate : r.state = .committed) :
    (step P L op).reservations.get ref = some r := by
  cases op with
  | reserve verifiedChain actionRef unit amountString =>
    obtain ⟨⟨result, L'⟩, hreserve⟩ := reserve_returns (P := P) L verifiedChain actionRef unit amountString
    rw [step, hreserve]
    obtain rfl | ⟨-, -, hold, rfl, hadmitted⟩ := reserve_cases hreserve
    · exact hget
    · have hne : hold.actionRef ≠ ref := by
        rintro rfl
        cases (hadmitted.prior r hget).symm.trans hstate
      show (L.reservations.set _ _).get ref = some r
      rw [OrderedMap.get_set_ne _ _ hne]
      exact hget
  | markDispatched actionRef => exact (markDispatched_moved actionRef).keeps_committed hget hstate
  | commit actionRef => exact (commit_moved actionRef).keeps_committed hget hstate
  | cancel actionRef => exact (cancel_moved actionRef).keeps_committed hget hstate

theorem run_keeps_committed (ops : List Op) (hget : L.reservations.get ref = some r) (hstate : r.state = .committed) :
    (ops.foldl (step P) L).reservations.get ref = some r := by
  induction ops generalizing L with
  | nil => exact hget
  | cons op ops ih => exact ih (step_keeps_committed op hget hstate)

/-- A call of `commit` answers COMMITTED for a reservation it finds, stores it committed and adds it to the
counters, or it leaves the ledger as it was. -/
theorem commit_cases (actionRef : JsValue) :
    ((commit L actionRef).1.code ≠ .COMMITTED ∧ (commit L actionRef).2 = L) ∨
    ∃ ref r, (commit L actionRef).1.code = .COMMITTED ∧ L.stored actionRef = some (ref, r) ∧ r.state ≠ .committed ∧
      (commit L actionRef).2 = ⟨L.counters.updateEach (fun c =>
        ⟨(c.getD ⟨0, 0⟩).reserved - r.amount, (c.getD ⟨0, 0⟩).committed + r.amount⟩) r.delegationIds,
        L.transition ref r .committed⟩ := by
  unfold commit
  split
  · exact .inl ⟨(fun h => nomatch h), rfl⟩
  rename_i ref r hstored
  split
  · exact .inl ⟨(fun h => nomatch h), rfl⟩
  rename_i hcommitted
  split
  · exact .inl ⟨(fun h => nomatch h), rfl⟩
  split
  · exact .inl ⟨(fun h => nomatch h), rfl⟩
  · exact .inr ⟨ref, r, rfl, hstored, hcommitted, rfl⟩

def Distinct (L : Ledger) : Prop := ∀ ref r, L.reservations.get ref = some r → r.delegationIds.Nodup

theorem Moved.distinct (h : Moved L result L') (hd : Distinct L) : Distinct L' := by
  obtain ⟨-, rfl⟩ | ⟨ref, r, state, hstored, -, -, hnext⟩ := h
  · exact hd
  · intro ref' r' hget
    rw [hnext, Ledger.transition] at hget
    have hstays : ({ r with state := state } : Reservation).delegationIds.Nodup := hd ref r hstored
    exact OrderedMap.forall_set hd hstays ref' r' hget

theorem step_distinct (hd : Distinct L) (op : Op) : Distinct (step P L op) := by
  cases op with
  | reserve verifiedChain actionRef unit amountString =>
    obtain ⟨⟨result, L'⟩, hreserve⟩ := reserve_returns (P := P) L verifiedChain actionRef unit amountString
    rw [step, hreserve]
    obtain rfl | ⟨-, -, hold, rfl, hadmitted⟩ := reserve_cases hreserve
    · exact hd
    · exact OrderedMap.forall_set hd hadmitted.distinct
  | markDispatched actionRef => exact (markDispatched_moved actionRef).distinct hd
  | commit actionRef => exact (commit_moved actionRef).distinct hd
  | cancel actionRef => exact (cancel_moved actionRef).distinct hd

theorem committed_updateEach {g : Option Counter → Counter} (hg : ∀ c, (g c).committed = (c.getD ⟨0, 0⟩).committed)
    {ids : List Str} (hids : ids.Nodup) (counters : OrderedMap Str Counter) (id : Str) :
    (counterIn (counters.updateEach g ids) id).committed = (counterIn counters id).committed := by
  rw [counterIn_updateEach hids]
  split
  · exact hg _
  · rfl

theorem cancel_committed (hd : Distinct L) (actionRef : JsValue) (id : Str) :
    ((cancel L actionRef).2.counterAt id).committed = (L.counterAt id).committed := by
  unfold cancel
  split
  · rfl
  rename_i ref r hstored
  split
  · rfl
  split
  · rfl
  split
  · rfl
  · refine committed_updateEach ?_ (hd ref r (stored_eq hstored).2) L.counters id
    intro c
    rfl

theorem markDispatched_committed (actionRef : JsValue) (id : Str) :
    ((markDispatched L actionRef).2.counterAt id).committed = (L.counterAt id).committed := by
  unfold markDispatched
  split
  · rfl
  split
  · rfl
  split
  · rfl
  · rfl

theorem reserve_committed {verifiedChain : CallerValue} {actionRef unit amountString : JsValue}
    (h : reserve P L verifiedChain actionRef unit amountString = .ok (result, L')) (id : Str) :
    (L'.counterAt id).committed = (L.counterAt id).committed := by
  obtain rfl | ⟨-, -, hold, rfl, hadmitted⟩ := reserve_cases h
  · rfl
  · refine committed_updateEach ?_ hadmitted.distinct L.counters id
    intro c
    rfl

theorem commit_contributes (hd : Distinct L) (actionRef : JsValue) (id : Str) :
    ((commit L actionRef).2.counterAt id).committed =
      (L.counterAt id).committed + ((committing L (.commit actionRef)).toList.map (contribution id)).sum := by
  obtain ⟨hcode, hsame⟩ | ⟨ref, r, hcode, hstored, -, hnext⟩ := commit_cases (L := L) actionRef
  · rw [committing, if_neg hcode, hsame]
    simp
  · rw [committing, if_pos hcode, hstored, hnext, Ledger.counterAt,
      counterIn_updateEach (hd ref r (stored_eq hstored).2), Option.toList_some, List.map_singleton, List.sum_singleton,
      contribution]
    by_cases hid : id ∈ r.delegationIds
    · rw [if_pos hid, if_pos hid]
      rfl
    · rw [if_neg hid, if_neg hid, Int.add_zero]
      rfl

theorem step_committed (hd : Distinct L) (op : Op) (id : Str) :
    ((step P L op).counterAt id).committed =
      (L.counterAt id).committed + ((committing L op).toList.map (contribution id)).sum := by
  cases op with
  | reserve verifiedChain actionRef unit amountString =>
    obtain ⟨⟨result, L'⟩, hreserve⟩ := reserve_returns (P := P) L verifiedChain actionRef unit amountString
    rw [step, hreserve]
    exact (reserve_committed hreserve id).trans (Int.add_zero _).symm
  | markDispatched actionRef => exact (markDispatched_committed actionRef id).trans (Int.add_zero _).symm
  | commit actionRef => exact commit_contributes hd actionRef id
  | cancel actionRef => exact (cancel_committed hd actionRef id).trans (Int.add_zero _).symm

theorem run_committed (hd : Distinct L) (ops : List Op) (id : Str) :
    ((ops.foldl (step P) L).counterAt id).committed =
      (L.counterAt id).committed + ((commits P L ops).map (contribution id)).sum := by
  induction ops generalizing L with
  | nil => exact (Int.add_zero _).symm
  | cons op ops ih =>
    rw [List.foldl_cons, ih (step_distinct hd op), step_committed hd op, commits, List.map_append, List.sum_append,
      Int.add_assoc]

theorem committing_some {op : Op} (h : committing L op = some (ref, r)) :
    L.reservations.get ref = some r ∧ r.state ≠ .committed ∧
      (step P L op).reservations.get ref = some { r with state := .committed } := by
  cases op with
  | commit actionRef =>
    obtain ⟨hcode, -⟩ | ⟨ref', r', hcode, hstored, hopen, hnext⟩ := commit_cases (L := L) actionRef
    · rw [committing, if_neg hcode] at h
      cases h
    · rw [committing, if_pos hcode, hstored] at h
      cases h
      refine ⟨(stored_eq hstored).2, hopen, ?_⟩
      rw [step, hnext]
      exact OrderedMap.get_set_self _ _ _
  | reserve verifiedChain actionRef unit amountString => cases h
  | markDispatched actionRef => cases h
  | cancel actionRef => cases h

theorem notMem_commits (ops : List Op) (hget : L.reservations.get ref = some r) (hstate : r.state = .committed) :
    ref ∉ (commits P L ops).map Prod.fst := by
  induction ops generalizing L with
  | nil => exact List.not_mem_nil
  | cons op ops ih =>
    rw [commits, List.map_append, List.mem_append, not_or]
    refine ⟨?_, ih (step_keeps_committed op hget hstate)⟩
    intro hmem
    obtain ⟨⟨ref', r'⟩, hentry, rfl⟩ := List.mem_map.mp hmem
    obtain ⟨hget', hopen, -⟩ := committing_some (P := P) (Option.mem_toList.mp hentry)
    cases hget.symm.trans hget'
    exact hopen hstate

theorem commits_nodup (ops : List Op) : ((commits P L ops).map Prod.fst).Nodup := by
  induction ops generalizing L with
  | nil => exact List.nodup_nil
  | cons op ops ih =>
    cases hcommitting : committing L op with
    | none =>
      rw [commits, hcommitting]
      exact ih
    | some entry =>
      rw [commits, hcommitting]
      exact List.nodup_cons.mpr ⟨notMem_commits ops (committing_some hcommitting).2.2 rfl, ih⟩

theorem distinct_empty : Distinct .empty := by
  intro ref r h
  cases h

/-- In every state a run reaches: a call that fails or reports a repeat leaves the whole ledger as it was; a
committed reservation is the same in every later state; and what is committed of a delegation is the sum over
the reservations that were committed in the run, which no action is among twice. -/
theorem ledger_calls_atomic (P : Primitives) (ops : List Op) :
    (∀ op result, answer P (run P ops) op = some result → result.ok = false ∨ result.code = .IDEMPOTENT →
      step P (run P ops) op = run P ops) ∧
    (∀ ref r, (run P ops).reservations.get ref = some r → r.state = .committed →
      ∀ later, (run P (ops ++ later)).reservations.get ref = some r) ∧
    ((commits P .empty ops).map Prod.fst).Nodup ∧
    ∀ id, ((run P ops).counterAt id).committed = ((commits P .empty ops).map (contribution id)).sum := by
  refine ⟨fun op result => step_rejected, ?_, commits_nodup ops, ?_⟩
  · intro ref r hget hstate later
    rw [run, List.foldl_append]
    exact run_keeps_committed later hget hstate
  · intro id
    have hsum := run_committed (P := P) distinct_empty ops id
    rw [run, hsum]
    exact Int.zero_add _

/-- Asked for twice, the action of the sample is committed once; an action that was never reserved is not. -/
theorem ledger_calls_atomic_twice :
    (commits samplePrimitives .empty (sampleRun ++ [.commit (.str rootDigest)])).map Prod.fst = [rootDigest] ∧
    step samplePrimitives (run samplePrimitives []) (.commit (.str rootDigest)) = run samplePrimitives [] :=
  ⟨by decide +kernel, (ledger_calls_atomic samplePrimitives []).1 (.commit (.str rootDigest))
    ⟨false, .NOT_FOUND, none⟩ (by decide) (.inl rfl)⟩

end AgentPassport.BudgetCalls
