import AgentPassport.LegacyDelegation
import AgentPassport.OrderedMap

/-! The Nano payment rail (`v2/payment-rails/nano.ts`): invoices told apart by an amount with a random
offset, and polls that match a receive block by that amount. A poll waits for the history, so calls
overlap; the account's history grows on its own. -/
namespace AgentPassport.NanoRail
open JsText Js
open CanonicalInjective (intText)
open LegacyDelegation (toISOString)

/-- The digits of a literal in a base, if there is one and all are digits of it. -/
def baseDigits (base : Nat) (text : Str) : Option Nat :=
  if text = [] then none
  else text.foldlM (fun n c => (hexDigit c).bind (fun d => if d < base then some (base * n + d) else none)) 0

def trimmed (text : Str) : Str := ((text.dropWhile isTrimmed).reverse.dropWhile isTrimmed).reverse

/-- `BigInt(text)`; none is a SyntaxError. -/
def bigInt (text : Str) : Option Int :=
  match trimmed text with
  | [] => some 0
  | 0x2D :: digits => (baseDigits 10 digits).map (fun n => -(n : Int))
  | 0x2B :: digits => (baseDigits 10 digits).map Int.ofNat
  | 0x30 :: c :: digits =>
    if c = 0x78 || c = 0x58 then (baseDigits 16 digits).map Int.ofNat
    else if c = 0x6F || c = 0x4F then (baseDigits 8 digits).map Int.ofNat
    else if c = 0x62 || c = 0x42 then (baseDigits 2 digits).map Int.ofNat
    else (baseDigits 10 (0x30 :: c :: digits)).map Int.ofNat
  | digits => (baseDigits 10 digits).map Int.ofNat

def RAW_PER_XNO : Int := 10 ^ 30

/-- `rawToXno` on the integer its text denotes. -/
def rawToXno (raw : Int) : Str :=
  let whole := raw.tdiv RAW_PER_XNO
  let frac := raw.tmod RAW_PER_XNO
  if frac = 0 then intText whole
  else
    let padded : Str := List.replicate (30 - (intText frac).length) 0x30 ++ intText frac
    intText whole ++ lit "." ++ (padded.reverse.dropWhile (· = 0x30)).reverse

structure NanoHistoryEntry where
  hash : Str
  type : Option Str
  subtype : Option Str
  account : Option Str
  amount : Str
  local_timestamp : Option Str
  deriving DecidableEq

inductive InvoiceStatus where
  | pending | confirmed | expired | failed
  deriving DecidableEq

/-- What a matching block adds to the metadata. -/
structure Confirmation where
  block_hash : Str
  sender : Option Str
  confirmed_at : Str
  confirmation_time_ms : JsNumber
  deriving DecidableEq

structure InvoiceMetadata where
  amount_raw : Str
  amount_xno_human : Str
  settlement_id : Option Str
  agent_id : Option Str
  confirmation : Option Confirmation
  deriving DecidableEq

structure CachedInvoice where
  invoice_id : Str
  rail_name : Str
  amount_base_units : Str
  amount_human : Str
  currency : Str
  destination : Str
  memo : Option Str
  status : InvoiceStatus
  created_at : Str
  expires_at : Str
  metadata : InvoiceMetadata
  expected_raw : Str
  deriving DecidableEq

structure CreateInvoiceOpts where
  amount_base_units : Str
  settlement_id : Option Str
  agent_id : Option Str
  memo : Option Str
  expires_in_seconds : Option JsNumber

inductive RailError where
  | syntaxError
  | rangeError
  | notFound (invoiceId : Str)
  deriving DecidableEq

structure NanoPaymentRail where
  receivingAddress : Str
  offsetBound : Nat
  invoices : OrderedMap Str CachedInvoice

/-- `new Date(v)`, none when it is invalid. -/
def dateOf : JsNumber → Option Int
  | .finite d => if d.trunc.natAbs ≤ 8640000000000000 then some d.trunc else none
  | _ => none

def expiresAt (opts : CreateInvoiceOpts) (now : Int) : Except RailError Str :=
  match dateOf ((JsNumber.ofInt now).add ((opts.expires_in_seconds.getD (JsNumber.ofInt 3600)).mulNat 1000)) with
  | some ms => return toISOString ms
  | none => throw .rangeError

def invoiceOf (rail : NanoPaymentRail) (opts : CreateInvoiceOpts) (invoiceId : Str) (now raw : Int) (expires_at : Str) :
    CachedInvoice where
  invoice_id := invoiceId
  rail_name := lit "nano"
  amount_base_units := intText raw
  amount_human := rawToXno raw ++ lit " XNO"
  currency := lit "XNO"
  destination := rail.receivingAddress
  memo := opts.memo
  status := .pending
  created_at := toISOString now
  expires_at := expires_at
  metadata := ⟨intText raw, rawToXno raw, opts.settlement_id, opts.agent_id, none⟩
  expected_raw := intText raw

def parseAmount (opts : CreateInvoiceOpts) : Except RailError Int :=
  match bigInt opts.amount_base_units with
  | some baseRaw => return baseRaw
  | none => throw .syntaxError

/-- The offset, the id and the time come from the platform. -/
def createInvoice (rail : NanoPaymentRail) (opts : CreateInvoiceOpts) (offset : Nat) (invoiceId : Str) (now : Int) :
    Except RailError (CachedInvoice × NanoPaymentRail) := do
  let baseRaw ← parseAmount opts
  let expires_at ← expiresAt opts now
  let invoice := invoiceOf rail opts invoiceId now (baseRaw + offset) expires_at
  return (invoice, { rail with invoices := rail.invoices.set invoiceId invoice })

section
variable (dateParse : Str → JsNumber)

/-- How a poll goes on after reading the cache. -/
inductive Poll where
  | done (invoice : CachedInvoice)
  | fetch
  deriving DecidableEq

/-- `checkStatus` up to the call of `fetchHistory`. -/
def startCheck (rail : NanoPaymentRail) (invoiceId : Str) (now : Int) : Except RailError (Poll × NanoPaymentRail) :=
  match rail.invoices.get invoiceId with
  | none => throw (.notFound invoiceId)
  | some cached =>
    if cached.status ≠ .pending then return (.done cached, rail)
    else if (dateParse cached.expires_at).lt (JsNumber.ofInt now) then
      let expired := { cached with status := .expired }
      return (.done expired, { rail with invoices := rail.invoices.set invoiceId expired })
    else return (.fetch, rail)

def isReceive (block : NanoHistoryEntry) : Bool := block.type = some (lit "receive") || block.subtype = some (lit "receive")

def isMatch (cached : CachedInvoice) (block : NanoHistoryEntry) : Bool := isReceive block && block.amount = cached.expected_raw

def confirmed (cached : CachedInvoice) (block : NanoHistoryEntry) (now : Int) : CachedInvoice :=
  { cached with
    status := .confirmed
    metadata := { cached.metadata with confirmation := some {
      block_hash := block.hash
      sender := block.account
      confirmed_at := toISOString now
      confirmation_time_ms := (JsNumber.ofInt now).sub (dateParse cached.created_at) } } }

/-- The rest of `checkStatus`, on the invoice it had read: a failed fetch leaves it as it is, and the
first receive block of the expected amount confirms it. -/
def finishCheck (rail : NanoPaymentRail) (invoiceId : Str) (history : Option (List NanoHistoryEntry)) (now : Int) :
    NanoPaymentRail :=
  match rail.invoices.get invoiceId, (history.getD []) with
  | none, _ => rail
  | some cached, history =>
    match history.find? (isMatch cached) with
    | none => rail
    | some block => { rail with invoices := rail.invoices.set invoiceId (confirmed dateParse cached block now) }

/-- The rail, the polls that wait for a history, the blocks of the account so far, and how many blocks
there were when an invoice was created. -/
structure World where
  rail : NanoPaymentRail
  waiting : List Str
  ledger : List NanoHistoryEntry
  createdAt : OrderedMap Str Nat

inductive Event where
  | arrive (block : NanoHistoryEntry)
  | create (opts : CreateInvoiceOpts) (offset : Nat) (invoiceId : Str) (now : Int)
  | start (invoiceId : Str) (now : Int)
  | finish (invoiceId : Str) (history : Option (List NanoHistoryEntry)) (now : Int)

def step (w : World) : Event → World
  | .arrive block => { w with ledger := w.ledger ++ [block] }
  | .create opts offset invoiceId now =>
    match createInvoice w.rail opts offset invoiceId now with
    | .error _ => w
    | .ok (_, rail) => { w with rail, createdAt := w.createdAt.set invoiceId w.ledger.length }
  | .start invoiceId now =>
    match startCheck dateParse w.rail invoiceId now with
    | .error _ => w
    | .ok (.done _, rail) => { w with rail }
    | .ok (.fetch, rail) => { w with rail, waiting := invoiceId :: w.waiting }
  | .finish invoiceId history now =>
    if invoiceId ∈ w.waiting then
      { w with rail := finishCheck dateParse w.rail invoiceId history now, waiting := w.waiting.erase invoiceId }
    else w

def run (w : World) (events : List Event) : World := events.foldl (step dateParse) w

end

def newRail (receivingAddress : Str) (offsetBound : Option Nat) : NanoPaymentRail :=
  ⟨receivingAddress, offsetBound.getD 9999, .empty⟩

def initial (rail : NanoPaymentRail) (ledger : List NanoHistoryEntry) : World := ⟨rail, [], ledger, .empty⟩

end AgentPassport.NanoRail
