import AgentPassport.NanoSettlement

/-! Whether a settled invoice stays as it is (`v2/payment-rails/nano.ts`). A poll looks at the status
before it waits for the history and writes after it, so what it writes may meet an invoice that another
poll has settled in between. -/
namespace AgentPassport.InvoiceFinality
open JsText Js NanoRail NanoSettlement

def isSettled (cached : CachedInvoice) : Bool := cached.status = .confirmed || cached.status = .expired

/-- `metadata.block_hash`. -/
def blockHash (cached : CachedInvoice) : Option Str := cached.metadata.confirmation.map (·.block_hash)

/-- Every settled invoice is still there, with its status and its block. -/
def Kept (w w' : World) : Prop :=
  ∀ id cached, w.rail.invoices.get id = some cached → isSettled cached = true →
    ∃ cached', w'.rail.invoices.get id = some cached' ∧ cached'.status = cached.status ∧
      blockHash cached' = blockHash cached

/-- `randomUUID` gives an id that no invoice has. -/
def newId (w : World) : Event → Bool
  | .create _ _ invoiceId _ => (w.rail.invoices.get invoiceId).isNone
  | _ => true

/-- A poll that comes back with a matching block finds the invoice unsettled, or confirmed by that block. -/
def agrees (w : World) : Event → Bool
  | .finish invoiceId history _ =>
    !decide (invoiceId ∈ w.waiting) ||
      (w.rail.invoices.get invoiceId).all (fun cached =>
        ((history.getD []).find? (isMatch cached)).all (fun block =>
          !isSettled cached || (cached.status = .confirmed && blockHash cached = some block.hash)))
  | _ => true

theorem Kept.refl (w : World) : Kept w w := fun _ cached hget _ => ⟨cached, hget, rfl, rfl⟩

theorem isSettled_congr {cached cached' : CachedInvoice} (h : cached'.status = cached.status) :
    isSettled cached' = isSettled cached := by rw [isSettled, isSettled, h]

theorem Kept.trans {w w' w'' : World} (h : Kept w w') (h' : Kept w' w'') : Kept w w'' := by
  intro id cached hget hsettled
  obtain ⟨cached', hget', hstatus, hhash⟩ := h id cached hget hsettled
  obtain ⟨cached'', hget'', hstatus', hhash'⟩ := h' id cached' hget' ((isSettled_congr hstatus).trans hsettled)
  exact ⟨cached'', hget'', hstatus'.trans hstatus, hhash'.trans hhash⟩

theorem kept_set_iff {w w' : World} {id : Str} {cached new : CachedInvoice} (hget : w.rail.invoices.get id = some cached)
    (hset : w'.rail.invoices = w.rail.invoices.set id new) :
    Kept w w' ↔ (isSettled cached = true → new.status = cached.status ∧ blockHash new = blockHash cached) := by
  have hnew : w'.rail.invoices.get id = some new := by rw [hset, OrderedMap.get_set_self]
  constructor
  · intro h hsettled
    obtain ⟨found, hfound, hsame⟩ := h id cached hget hsettled
    rw [hnew] at hfound
    cases hfound
    exact hsame
  · intro h id' other hother hsettled
    by_cases hid : id = id'
    · subst hid
      rw [hget] at hother
      cases hother
      exact ⟨new, hnew, h hsettled⟩
    · exact ⟨other, by rw [hset, OrderedMap.get_set_ne _ _ hid, hother], rfl, rfl⟩

section
variable (dateParse : Str → JsNumber) {w : World}

theorem create_kept {opts : CreateInvoiceOpts} {offset : Nat} {invoiceId : Str} {now : Int}
    (hnew : w.rail.invoices.get invoiceId = none) : Kept w (step dateParse w (.create opts offset invoiceId now)) := by
  rw [step]
  split
  · exact Kept.refl w
  · rename_i invoice rail' hok
    obtain ⟨-, -, -, -, hset⟩ := createInvoice_ok hok
    intro id cached hget _
    have hne : invoiceId ≠ id := by
      intro heq
      rw [heq, hget] at hnew
      cases hnew
    refine ⟨cached, ?_, rfl, rfl⟩
    show rail'.invoices.get id = some cached
    rw [hset, OrderedMap.get_set_ne _ _ hne, hget]

theorem start_kept (invoiceId : Str) (now : Int) : Kept w (step dateParse w (.start invoiceId now)) := by
  rw [step, startCheck]
  cases hget : w.rail.invoices.get invoiceId with
  | none => exact Kept.refl w
  | some cached =>
    dsimp only
    by_cases hpending : cached.status ≠ .pending
    · rw [if_pos hpending]
      exact Kept.refl w
    · rw [if_neg hpending]
      by_cases hpast : (dateParse cached.expires_at).lt (JsNumber.ofInt now) = true
      · rw [if_pos hpast]
        refine (kept_set_iff hget rfl).mpr ?_
        intro hsettled
        rw [isSettled, not_not.mp hpending] at hsettled
        cases hsettled
      · rw [if_neg hpast]
        exact Kept.refl w

theorem finish_kept_iff (invoiceId : Str) (history : Option (List NanoHistoryEntry)) (now : Int) :
    Kept w (step dateParse w (.finish invoiceId history now)) ↔ agrees w (.finish invoiceId history now) = true := by
  rw [step, agrees]
  by_cases hwaiting : invoiceId ∈ w.waiting
  · rw [if_pos hwaiting, decide_eq_true hwaiting, finishCheck]
    cases hget : w.rail.invoices.get invoiceId with
    | none => exact ⟨fun _ => rfl, fun _ => Kept.refl w⟩
    | some cached =>
      dsimp only
      cases hfind : (history.getD []).find? (isMatch cached) with
      | none => exact ⟨fun _ => by simp [hfind], fun _ => Kept.refl w⟩
      | some block =>
        rw [kept_set_iff hget rfl]
        simp only [Option.all_some, hfind, Bool.not_true, Bool.false_or, Bool.or_eq_true, Bool.not_eq_true',
          Bool.and_eq_true, decide_eq_true_eq]
        have hstatus : (confirmed dateParse cached block now).status = .confirmed := rfl
        have hblock : blockHash (confirmed dateParse cached block now) = some block.hash := rfl
        rw [hstatus, hblock]
        constructor
        · intro h
          cases hsettled : isSettled cached with
          | false => exact .inl rfl
          | true => exact .inr ⟨(h hsettled).1.symm, (h hsettled).2.symm⟩
        · intro h hsettled
          obtain hopen | ⟨hconfirmed, hsame⟩ := h
          · rw [hsettled] at hopen
            cases hopen
          · exact ⟨hconfirmed.symm, hsame.symm⟩
  · rw [if_neg hwaiting, decide_eq_false hwaiting]
    exact ⟨fun _ => rfl, fun _ => Kept.refl w⟩

theorem step_kept_iff {event : Event} (hnew : newId w event = true) :
    Kept w (step dateParse w event) ↔ agrees w event = true := by
  cases event with
  | arrive block => exact ⟨fun _ => rfl, fun _ => Kept.refl w⟩
  | create opts offset invoiceId now =>
    exact ⟨fun _ => rfl, fun _ => create_kept dateParse (Option.isNone_iff_eq_none.mp hnew)⟩
  | start invoiceId now => exact ⟨fun _ => rfl, fun _ => start_kept dateParse invoiceId now⟩
  | finish invoiceId history now => exact finish_kept_iff dateParse invoiceId history now

end

/-- From each state of the run to every later one the settled invoices are kept. -/
def Final (dateParse : Str → JsNumber) (w : World) (events : List Event) : Prop :=
  ∀ i j, i ≤ j → Kept (run dateParse w (events.take i)) (run dateParse w (events.take j))

section
variable {dateParse : Str → JsNumber} {w : World} {events : List Event}

theorem kept_run (hnew : allSteps dateParse newId w events = true) (h : allSteps dateParse agrees w events = true) :
    Kept w (run dateParse w events) := by
  induction events generalizing w with
  | nil => exact Kept.refl w
  | cons event rest ih =>
    obtain ⟨hnewFirst, hnewRest⟩ := Bool.and_eq_true_iff.mp hnew
    obtain ⟨hfirst, hrest⟩ := Bool.and_eq_true_iff.mp h
    exact ((step_kept_iff dateParse hnewFirst).mpr hfirst).trans (ih hnewRest hrest)

theorem final_of_agrees (hnew : allSteps dateParse newId w events = true)
    (h : allSteps dateParse agrees w events = true) : Final dateParse w events := by
  induction events generalizing w with
  | nil =>
    intro i j _
    rw [List.take_nil, List.take_nil]
    exact Kept.refl _
  | cons event rest ih =>
    intro i j hij
    cases i with
    | zero => exact kept_run (allSteps_take dateParse hnew j) (allSteps_take dateParse h j)
    | succ i =>
      obtain ⟨j, rfl⟩ : ∃ k, j = k + 1 := ⟨j - 1, by omega⟩
      exact ih (Bool.and_eq_true_iff.mp hnew).2 (Bool.and_eq_true_iff.mp h).2 i j (by omega)

theorem agrees_of_final (hnew : allSteps dateParse newId w events = true) (h : Final dateParse w events) :
    allSteps dateParse agrees w events = true := by
  induction events generalizing w with
  | nil => rfl
  | cons event rest ih =>
    obtain ⟨hnewFirst, hnewRest⟩ := Bool.and_eq_true_iff.mp hnew
    have hstep : Kept w (step dateParse w event) := h 0 1 (by omega)
    have hrest : Final dateParse (step dateParse w event) rest := by
      intro i j hij
      exact h (i + 1) (j + 1) (by omega)
    exact Bool.and_eq_true_iff.mpr ⟨(step_kept_iff dateParse hnewFirst).mp hstep, ih hnewRest hrest⟩

end

/-- In a run from any state the settled invoices keep their status and their block if and only if every
poll that comes back with a matching block finds its invoice unsettled or confirmed by that block. -/
theorem settled_final_iff (dateParse : Str → JsNumber) (w : World) (events : List Event)
    (hnew : allSteps dateParse newId w events = true) :
    Final dateParse w events ↔ allSteps dateParse agrees w events = true :=
  ⟨agrees_of_final hnew, final_of_agrees hnew⟩

/-- A poll begins in time, another one finds the invoice expired, and then the first one gets the history. -/
def overtakenPoll : List Event :=
  [.create (amountOpts "100") 7 (lit "a") 0, .start (lit "a") 1, .start (lit "a") 3600001, .arrive (payment "107"),
    .finish (lit "a") (some [payment "107"]) 3600002]

theorem settled_final_once : Final epochParse (initial sampleRail []) (pollBoth "100" "100" 7 9 "107") :=
  (settled_final_iff epochParse (initial sampleRail []) (pollBoth "100" "100" 7 9 "107") (by decide +kernel)).mpr
    (by decide +kernel)

theorem expired_invoice_confirmed :
    ¬ ∀ (dateParse : Str → JsNumber) (w : World) (events : List Event), allSteps dateParse newId w events = true →
      Final dateParse w events := by
  intro h
  have hnew : allSteps epochParse newId (initial sampleRail []) overtakenPoll = true := by decide
  have hagrees := agrees_of_final hnew (h epochParse (initial sampleRail []) overtakenPoll hnew)
  exact absurd hagrees (by decide +kernel)

end AgentPassport.InvoiceFinality
