import AgentPassport.NanoRail

/-! Which invoices one block can confirm. As long as every invoice is created with an amount that no
other invoice and no earlier receive block has, a block settles at most one invoice and none that is
younger than the block; nothing in the rail keeps two invoices from the same amount. -/
namespace AgentPassport.NanoSettlement
open JsText Js Outcome NanoRail
open CanonicalInjective (intText)

/-- The hash of the block an invoice is confirmed with. -/
def confirmedBy (w : World) (invoiceId : Str) : Option Str :=
  (w.rail.invoices.get invoiceId).bind (fun cached =>
    if cached.status = .confirmed then cached.metadata.confirmation.map (·.block_hash) else none)

/-- No block confirms two invoices. -/
def OneInvoice (w : World) : Prop :=
  ∀ id id' hash, confirmedBy w id = some hash → confirmedBy w id' = some hash → id = id'

/-- No invoice is confirmed by a block that was there before it. -/
def LaterBlock (w : World) : Prop :=
  ∀ id hash n, confirmedBy w id = some hash → w.createdAt.get id = some n →
    ∀ block ∈ w.ledger.take n, block.hash ≠ hash

/-- What the environment does: a hash names one block, an offset is in its range, an id is new, and a
history is made of blocks of the account. -/
def lawful (w : World) : Event → Bool
  | .arrive block => w.ledger.all (fun b => b.hash ≠ block.hash)
  | .create _ offset invoiceId _ => 1 ≤ offset && offset ≤ w.rail.offsetBound && (w.rail.invoices.get invoiceId).isNone
  | .start _ _ => true
  | .finish _ history _ => (history.getD []).all (fun b => w.ledger.any (fun b' => b' = b))

/-- A new invoice gets an amount that no other invoice and no receive block has. -/
def freshAmount (w : World) : Event → Bool
  | .create opts offset _ _ =>
    match bigInt opts.amount_base_units with
    | none => true
    | some baseRaw =>
      w.rail.invoices.entries.all (fun e => e.2.expected_raw ≠ intText (baseRaw + offset)) &&
        w.ledger.all (fun b => !isReceive b || b.amount ≠ intText (baseRaw + offset))
  | _ => true

def allSteps (dateParse : Str → JsNumber) (condition : World → Event → Bool) (w : World) : List Event → Bool
  | [] => true
  | event :: rest => condition w event && allSteps dateParse condition (step dateParse w event) rest

/-- What every state reached satisfies. -/
structure Inv (w : World) : Prop where
  hashes : (w.ledger.map (·.hash)).Nodup
  distinct : ∀ id id' cached cached', w.rail.invoices.get id = some cached → w.rail.invoices.get id' = some cached' →
    cached.expected_raw = cached'.expected_raw → id = id'
  early : ∀ id cached n, w.rail.invoices.get id = some cached → w.createdAt.get id = some n → n ≤ w.ledger.length ∧
    ∀ b ∈ w.ledger.take n, isReceive b = true → b.amount ≠ cached.expected_raw
  matched : ∀ id cached c, w.rail.invoices.get id = some cached → cached.metadata.confirmation = some c →
    ∃ b ∈ w.ledger, b.hash = c.block_hash ∧ isReceive b = true ∧ b.amount = cached.expected_raw

variable {w : World}

theorem confirmedBy_eq {id hash : Str} (h : confirmedBy w id = some hash) :
    ∃ cached c, w.rail.invoices.get id = some cached ∧ cached.metadata.confirmation = some c ∧ c.block_hash = hash := by
  obtain ⟨cached, hget, h⟩ := Option.bind_eq_some_iff.mp h
  split at h
  · obtain ⟨c, hc, hhash⟩ := Option.map_eq_some_iff.mp h
    exact ⟨cached, c, hget, hc, hhash⟩
  · cases h

theorem Inv.block (h : Inv w) {id hash : Str} (hby : confirmedBy w id = some hash) :
    ∃ cached b, w.rail.invoices.get id = some cached ∧ b ∈ w.ledger ∧ b.hash = hash ∧ isReceive b = true ∧
      b.amount = cached.expected_raw := by
  obtain ⟨cached, c, hget, hc, rfl⟩ := confirmedBy_eq hby
  obtain ⟨b, hb, hhash, hreceive, hamount⟩ := h.matched id cached c hget hc
  exact ⟨cached, b, hget, hb, hhash, hreceive, hamount⟩

theorem Inv.oneInvoice (h : Inv w) : OneInvoice w := by
  intro id id' hash hby hby'
  obtain ⟨cached, b, hget, hb, hhash, -, hamount⟩ := h.block hby
  obtain ⟨cached', b', hget', hb', hhash', -, hamount'⟩ := h.block hby'
  have hsame : b = b' := List.inj_on_of_nodup_map h.hashes hb hb' (hhash.trans hhash'.symm)
  rw [← hsame] at hamount'
  exact h.distinct id id' cached cached' hget hget' (hamount.symm.trans hamount')

theorem Inv.laterBlock (h : Inv w) : LaterBlock w := by
  intro id hash n hby hn block hblock heq
  obtain ⟨cached, b, hget, hb, hhash, hreceive, hamount⟩ := h.block hby
  have hsame : block = b :=
    List.inj_on_of_nodup_map h.hashes (List.mem_of_mem_take hblock) hb (heq.trans hhash.symm)
  rw [hsame] at hblock
  exact (h.early id cached n hget hn).2 b hblock hreceive hamount

theorem inv_initial {rail : NanoPaymentRail} {ledger : List NanoHistoryEntry} (hrail : rail.invoices = .empty)
    (hledger : (ledger.map (·.hash)).Nodup) : Inv (initial rail ledger) := by
  have hnone : ∀ id cached, (initial rail ledger).rail.invoices.get id ≠ some cached := by
    intro id cached hget
    rw [initial, hrail, OrderedMap.get_empty] at hget
    cases hget
  exact {
    hashes := hledger
    distinct := fun id _ cached _ hget => absurd hget (hnone id cached)
    early := fun id cached _ hget => absurd hget (hnone id cached)
    matched := fun id cached _ hget => absurd hget (hnone id cached) }

theorem Inv.update {w w' : World} (h : Inv w) {id : Str} {cached new : CachedInvoice}
    (hget : w.rail.invoices.get id = some cached) (hledger : w'.ledger = w.ledger) (hcreated : w'.createdAt = w.createdAt)
    (hset : w'.rail.invoices = w.rail.invoices.set id new) (hraw : new.expected_raw = cached.expected_raw)
    (hmatched : ∀ c, new.metadata.confirmation = some c →
      ∃ b ∈ w.ledger, b.hash = c.block_hash ∧ isReceive b = true ∧ b.amount = cached.expected_raw) : Inv w' := by
  -- every invoice of the new state has an old one under its id with the same amount
  have hold : ∀ id' cached', w'.rail.invoices.get id' = some cached' →
      ∃ old, w.rail.invoices.get id' = some old ∧ old.expected_raw = cached'.expected_raw ∧
        (cached' = old ∨ id' = id ∧ cached' = new) := by
    intro id' cached' hget'
    rw [hset, OrderedMap.get_set] at hget'
    split at hget'
    · rename_i heq
      cases hget'
      exact ⟨cached, by rw [← heq]; exact hget, hraw.symm, .inr ⟨heq.symm, rfl⟩⟩
    · exact ⟨cached', hget', rfl, .inl rfl⟩
  refine ⟨by rw [hledger]; exact h.hashes, ?_, ?_, ?_⟩
  · intro id₁ id₂ c₁ c₂ h₁ h₂ heq
    obtain ⟨o₁, ho₁, hr₁, -⟩ := hold id₁ c₁ h₁
    obtain ⟨o₂, ho₂, hr₂, -⟩ := hold id₂ c₂ h₂
    exact h.distinct id₁ id₂ o₁ o₂ ho₁ ho₂ (by rw [hr₁, hr₂, heq])
  · intro id₁ c₁ n h₁ hn
    obtain ⟨o₁, ho₁, hr₁, -⟩ := hold id₁ c₁ h₁
    rw [hledger, ← hr₁]
    rw [hcreated] at hn
    exact h.early id₁ o₁ n ho₁ hn
  · intro id₁ c₁ c h₁ hc
    obtain ⟨o₁, ho₁, hr₁, hcase⟩ := hold id₁ c₁ h₁
    rw [hledger]
    obtain rfl | ⟨rfl, rfl⟩ := hcase
    · exact h.matched id₁ c₁ c ho₁ hc
    · rw [hraw]
      exact hmatched c hc

theorem Inv.arrive (h : Inv w) {block : NanoHistoryEntry} (hnew : ∀ b ∈ w.ledger, b.hash ≠ block.hash) :
    Inv { w with ledger := w.ledger ++ [block] } := by
  refine ⟨?_, h.distinct, ?_, ?_⟩
  · rw [List.map_append, List.nodup_append]
    refine ⟨h.hashes, List.nodup_singleton _, ?_⟩
    intro hash hmem hash' hmem' heq
    obtain ⟨b, hb, rfl⟩ := List.mem_map.mp hmem
    exact hnew b hb (heq.trans (List.mem_singleton.mp hmem'))
  · intro id cached n hget hn
    obtain ⟨hle, hearly⟩ := h.early id cached n hget hn
    refine ⟨by rw [List.length_append]; omega, ?_⟩
    rw [List.take_append_of_le_length hle]
    exact hearly
  · intro id cached c hget hc
    obtain ⟨b, hb, hrest⟩ := h.matched id cached c hget hc
    exact ⟨b, List.mem_append_left _ hb, hrest⟩

variable {opts : CreateInvoiceOpts} {invoiceId : Str} {offset : Nat}

theorem createInvoice_ok {rail rail' : NanoPaymentRail} {now : Int} {invoice : CachedInvoice}
    (h : createInvoice rail opts offset invoiceId now = .ok (invoice, rail')) :
    ∃ baseRaw, bigInt opts.amount_base_units = some baseRaw ∧ invoice.expected_raw = intText (baseRaw + offset) ∧
      invoice.metadata.confirmation = none ∧ rail'.invoices = rail.invoices.set invoiceId invoice := by
  rw [createInvoice] at h
  obtain ⟨baseRaw, hbase, h⟩ := bind_eq_ok.mp h
  obtain ⟨expires_at, -, h⟩ := bind_eq_ok.mp h
  cases h
  refine ⟨baseRaw, ?_, rfl, rfl, rfl⟩
  rw [parseAmount] at hbase
  split at hbase
  · rename_i found hfound
    cases hbase
    exact hfound
  · cases hbase

theorem freshAmount_create {now baseRaw : Int} (h : freshAmount w (.create opts offset invoiceId now) = true)
    (hbase : bigInt opts.amount_base_units = some baseRaw) :
    (∀ id cached, w.rail.invoices.get id = some cached → cached.expected_raw ≠ intText (baseRaw + offset)) ∧
      ∀ b ∈ w.ledger, isReceive b = true → b.amount ≠ intText (baseRaw + offset) := by
  rw [freshAmount, hbase] at h
  simp only [Bool.and_eq_true, List.all_eq_true, decide_eq_true_eq, Bool.or_eq_true, Bool.not_eq_true'] at h
  obtain ⟨hentries, hledger⟩ := h
  constructor
  · intro id cached hget
    exact hentries (id, cached) (OrderedMap.mem_of_lookup hget)
  · intro b hb hreceive
    obtain hsend | hne := hledger b hb
    · rw [hreceive] at hsend
      cases hsend
    · exact hne

theorem Inv.create (h : Inv w) {now : Int} {invoice : CachedInvoice} {rail' : NanoPaymentRail}
    (hfresh : freshAmount w (.create opts offset invoiceId now) = true)
    (hok : createInvoice w.rail opts offset invoiceId now = .ok (invoice, rail')) :
    Inv { w with rail := rail', createdAt := w.createdAt.set invoiceId w.ledger.length } := by
  obtain ⟨baseRaw, hbase, hraw, hnone, hset⟩ := createInvoice_ok hok
  obtain ⟨hamounts, hblocks⟩ := freshAmount_create hfresh hbase
  rw [← hraw] at hamounts hblocks
  -- under another id the invoice is the one that was there
  have hcases : ∀ id cached, rail'.invoices.get id = some cached →
      (id = invoiceId ∧ cached = invoice) ∨ (invoiceId ≠ id ∧ w.rail.invoices.get id = some cached) := by
    intro id cached hget
    rw [hset, OrderedMap.get_set] at hget
    split at hget
    · rename_i heq
      cases hget
      exact .inl ⟨heq.symm, rfl⟩
    · rename_i hne
      exact .inr ⟨hne, hget⟩
  refine ⟨h.hashes, ?_, ?_, ?_⟩
  · intro id id' cached cached' hget hget' heq
    obtain ⟨rfl, rfl⟩ | ⟨-, hold⟩ := hcases id cached hget
    · obtain ⟨rfl, -⟩ | ⟨-, hold'⟩ := hcases id' cached' hget'
      · rfl
      · exact absurd heq.symm (hamounts id' cached' hold')
    · obtain ⟨rfl, rfl⟩ | ⟨-, hold'⟩ := hcases id' cached' hget'
      · exact absurd heq (hamounts id cached hold)
      · exact h.distinct id id' cached cached' hold hold' heq
  · intro id cached n hget hn
    obtain ⟨rfl, rfl⟩ | ⟨hne, hold⟩ := hcases id cached hget
    · rw [OrderedMap.get_set_self] at hn
      cases hn
      exact ⟨Nat.le_refl _, fun b hb => hblocks b (List.mem_of_mem_take hb)⟩
    · rw [OrderedMap.get_set_ne _ _ hne] at hn
      exact h.early id cached n hold hn
  · intro id cached c hget hc
    obtain ⟨rfl, rfl⟩ | ⟨-, hold⟩ := hcases id cached hget
    · rw [hnone] at hc
      cases hc
    · exact h.matched id cached c hold hc

section
variable (dateParse : Str → JsNumber)

theorem Inv.start (h : Inv w) (invoiceId : Str) (now : Int) : Inv (step dateParse w (.start invoiceId now)) := by
  rw [step, startCheck]
  cases hget : w.rail.invoices.get invoiceId with
  | none => exact h
  | some cached =>
    simp only
    split
    · rename_i herror
      split at herror
      · cases herror
      · split at herror <;> cases herror
    · rename_i rail hdone
      split at hdone
      · cases hdone
        exact h
      · split at hdone
        · cases hdone
          exact h.update hget rfl rfl rfl rfl (fun c hc => h.matched invoiceId cached c hget hc)
        · cases hdone
    · rename_i rail hfetch
      split at hfetch
      · cases hfetch
      · split at hfetch
        · cases hfetch
        · cases hfetch
          exact ⟨h.hashes, h.distinct, h.early, h.matched⟩

theorem Inv.finish (h : Inv w) {history : Option (List NanoHistoryEntry)} (now : Int)
    (hhistory : ∀ blocks, history = some blocks → ∀ b ∈ blocks, b ∈ w.ledger) : Inv { w with
      rail := finishCheck dateParse w.rail invoiceId history now, waiting := w.waiting.erase invoiceId } := by
  rw [finishCheck]
  cases hget : w.rail.invoices.get invoiceId with
  | none => exact ⟨h.hashes, h.distinct, h.early, h.matched⟩
  | some cached =>
    simp only
    cases hfind : (history.getD []).find? (isMatch cached) with
    | none => exact ⟨h.hashes, h.distinct, h.early, h.matched⟩
    | some block =>
      have hmatch := List.find?_some hfind
      have hmem := List.mem_of_find?_eq_some hfind
      have hledger : block ∈ w.ledger := by
        cases history with
        | none => cases hmem
        | some blocks => exact hhistory blocks rfl block hmem
      rw [isMatch, Bool.and_eq_true, decide_eq_true_eq] at hmatch
      refine h.update hget rfl rfl rfl rfl ?_
      intro c hc
      cases hc
      exact ⟨block, hledger, rfl, hmatch.1, hmatch.2⟩

theorem Inv.step {w : World} (h : Inv w) {event : Event} (hlawful : lawful w event = true)
    (hfresh : freshAmount w event = true) : Inv (step dateParse w event) := by
  cases event with
  | arrive block =>
    rw [lawful, List.all_eq_true] at hlawful
    exact h.arrive (fun b hb => of_decide_eq_true (hlawful b hb))
  | create opts offset invoiceId now =>
    rw [NanoRail.step]
    split
    · exact h
    · rename_i invoice rail' hok
      exact h.create hfresh hok
  | start invoiceId now => exact h.start dateParse invoiceId now
  | finish invoiceId history now =>
    rw [NanoRail.step]
    split
    · refine h.finish dateParse now ?_
      intro blocks hblocks b hb
      rw [lawful, hblocks, Option.getD_some, List.all_eq_true] at hlawful
      obtain ⟨b', hb', heq⟩ := List.any_eq_true.mp (hlawful b hb)
      rw [← of_decide_eq_true heq]
      exact hb'
    · exact h

theorem Inv.run (h : Inv w) {events : List Event} (hlawful : allSteps dateParse lawful w events = true)
    (hfresh : allSteps dateParse freshAmount w events = true) : Inv (run dateParse w events) := by
  induction events generalizing w with
  | nil => exact h
  | cons event rest ih =>
    obtain ⟨hlawful, hlawfulRest⟩ := Bool.and_eq_true_iff.mp hlawful
    obtain ⟨hfresh, hfreshRest⟩ := Bool.and_eq_true_iff.mp hfresh
    exact ih (h.step dateParse hlawful hfresh) hlawfulRest hfreshRest

theorem allSteps_take {condition : World → Event → Bool} {events : List Event}
    (h : allSteps dateParse condition w events = true) (k : Nat) :
    allSteps dateParse condition w (events.take k) = true := by
  induction events generalizing w k with
  | nil => rw [List.take_nil, allSteps]
  | cons event rest ih =>
    obtain ⟨hfirst, hrest⟩ := Bool.and_eq_true_iff.mp h
    cases k with
    | zero => rfl
    | succ k => exact Bool.and_eq_true_iff.mpr ⟨hfirst, ih hrest k⟩

end

/-- In every run whose invoices all get an amount of their own, and one that no receive block had, every
state reached has at most one invoice for a block and none for an earlier block. -/
theorem one_payment_one_invoice (dateParse : Str → JsNumber) (rail : NanoPaymentRail) (ledger : List NanoHistoryEntry)
    (events : List Event) (hrail : rail.invoices = .empty) (hledger : (ledger.map (·.hash)).Nodup)
    (hlawful : allSteps dateParse lawful (initial rail ledger) events = true)
    (hfresh : allSteps dateParse freshAmount (initial rail ledger) events = true) (k : Nat) :
    OneInvoice (run dateParse (initial rail ledger) (events.take k)) ∧
      LaterBlock (run dateParse (initial rail ledger) (events.take k)) := by
  have hinv := (inv_initial hrail hledger).run dateParse (allSteps_take dateParse hlawful k)
    (allSteps_take dateParse hfresh k)
  exact ⟨hinv.oneInvoice, hinv.laterBlock⟩

/-- `Date.parse` on the two texts of an invoice created at the epoch. -/
def epochParse (text : Str) : JsNumber :=
  if text = lit "1970-01-01T01:00:00.000Z" then JsNumber.ofInt 3600000
  else if text = lit "1970-01-01T00:00:00.000Z" then JsNumber.ofInt 0
  else .nan

def amountOpts (amount : String) : CreateInvoiceOpts := ⟨lit amount, none, none, none, none⟩

def payment (amount : String) : NanoHistoryEntry :=
  ⟨lit "B10C", some (lit "receive"), none, some (lit "nano_1sender"), lit amount, none⟩

def sampleRail : NanoPaymentRail := newRail (lit "nano_1gateway") none

/-- Two invoices, then a payment, then both are polled. -/
def pollBoth (amount amount' : String) (offset offset' : Nat) (paid : String) : List Event :=
  [.create (amountOpts amount) offset (lit "a") 0, .create (amountOpts amount') offset' (lit "b") 0, .arrive (payment paid),
    .start (lit "a") 1, .finish (lit "a") (some [payment paid]) 1, .start (lit "b") 1,
    .finish (lit "b") (some [payment paid]) 1]

theorem one_payment_one_invoice_sample :
    confirmedBy (run epochParse (initial sampleRail []) (pollBoth "100" "100" 7 9 "107")) (lit "a") = some (lit "B10C") ∧
    OneInvoice (run epochParse (initial sampleRail []) (pollBoth "100" "100" 7 9 "107")) :=
  ⟨by decide +kernel, (one_payment_one_invoice epochParse sampleRail [] (pollBoth "100" "100" 7 9 "107") rfl
    List.nodup_nil (by decide +kernel) (by decide +kernel) 7).1⟩

/-- One payment confirms two invoices of different base amounts. -/
theorem one_payment_two_invoices :
    ¬ ∀ (dateParse : Str → JsNumber) (rail : NanoPaymentRail) (ledger : List NanoHistoryEntry) (events : List Event),
      rail.invoices = .empty → (ledger.map (·.hash)).Nodup →
      allSteps dateParse lawful (initial rail ledger) events = true →
      OneInvoice (run dateParse (initial rail ledger) events) ∧ LaterBlock (run dateParse (initial rail ledger) events) := by
  intro h
  have hone := (h epochParse sampleRail [] (pollBoth "100" "99" 7 8 "107") rfl List.nodup_nil (by decide +kernel)).1
  have heq := hone (lit "a") (lit "b") (lit "B10C") (by decide +kernel) (by decide +kernel)
  exact absurd heq (by decide)

end AgentPassport.NanoSettlement
