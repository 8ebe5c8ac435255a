import AgentPassport.DelegationIssue
import AgentPassport.OrderedMap

/-! The in-memory budget ledger (`v2/authority-delegation/budget.ts`): amounts are reserved
against every bounded delegation of a chain or against none, then dispatched and committed, or
cancelled. -/
namespace AgentPassport.BudgetLedger
open JsText Js CanonicalJcs PlainData DelegationSchema DelegationVerify DelegationChain DelegationJson
open CanonicalInjective Outcome

inductive BudgetReservationState where
  | reserved | dispatched | committed | cancelled
  deriving DecidableEq

inductive BudgetCode where
  | RESERVED | DISPATCHED | COMMITTED | CANCELLED | IDEMPOTENT | CONFLICT | UNIT_MISMATCH
  | PER_ACTION_EXCEEDED | CUMULATIVE_EXCEEDED | NOT_FOUND | INVALID_STATE
  deriving DecidableEq

structure BudgetOperationResult where
  ok : Bool
  code : BudgetCode
  state : Option BudgetReservationState
  deriving DecidableEq

structure Counter where
  reserved : Int
  committed : Int
  deriving DecidableEq

structure Reservation where
  actionRef : Str
  unit : Str
  amount : Nat
  delegationIds : List Str
  state : BudgetReservationState
  deriving DecidableEq

structure Ledger where
  counters : OrderedMap Str Counter
  reservations : OrderedMap Str Reservation

def Ledger.empty : Ledger := ⟨.empty, .empty⟩

/-- `counters.get(id) ?? { reserved: 0n, committed: 0n }`. -/
def counterIn (counters : OrderedMap Str Counter) (id : Str) : Counter := (counters.get id).getD ⟨0, 0⟩

def Ledger.counterAt (L : Ledger) (id : Str) : Counter := counterIn L.counters id

/-- `toString` of a `bigint`. -/
def bigIntText : Int → Str
  | .ofNat n => decimal n
  | .negSucc n => lit "-" ++ decimal (n + 1)

def Ledger.counter (L : Ledger) (delegationId : Str) : Str × Str :=
  (bigIntText (L.counterAt delegationId).reserved, bigIntText (L.counterAt delegationId).committed)

/-- How `reserve` ends before it changes anything. -/
inductive Exit where
  | returned (r : BudgetOperationResult)
  | threw (e : JcsError)

def refuse {α : Type} (code : BudgetCode) : Except Exit α := throw (.returned ⟨false, code, none⟩)

/-- The root names no parent; a child names its parent and is issued by the parent's subject. -/
def continues : Option AuthorityDelegation → AuthorityDelegation → Bool
  | none, current => current.parentDelegationId = none
  | some parent, current =>
    current.parentDelegationId = some parent.delegationId && current.issuer = parent.subject

/-- The loop over the chain; `seen` are the ids and `parent` the record before the member. -/
def admitChain (P : Primitives) (seen : List Str) (parent : Option AuthorityDelegation) :
    List CallerValue → Except Exit (List ShapedRecord)
  | [] => .ok []
  | member :: rest =>
    match h : validateAuthorityDelegationShape (plain (snapshotPlainData member)) with
    | _ :: _ => refuse .CONFLICT
    | [] =>
      let current : ShapedRecord := ⟨snapshotPlainData (plain (snapshotPlainData member)), h⟩
      match computeAuthorityDelegationId P (authorityDelegationBody current.value) with
      | .error e => throw (.threw e)
      | .ok id =>
        if id ≠ current.delegation.delegationId ∨ current.delegation.delegationId ∈ seen then
          refuse .CONFLICT
        else if !continues parent current.delegation then refuse .CONFLICT
        else do
          let chain ← admitChain P (current.delegation.delegationId :: seen) (some current.delegation) rest
          return current :: chain

/-- A bounded delegation, with what `reserve` reads of it. -/
structure BoundedSpend where
  delegationId : Str
  unit : Str
  perAction : Nat
  cumulative : Nat

def boundedSpend (d : AuthorityDelegation) : Option BoundedSpend :=
  match d.authority.spend with
  | .unbounded => none
  | .bounded unit perAction cumulative => some ⟨d.delegationId, unit, bigInt perAction, bigInt cumulative⟩

/-- A reservation under the same action that still stands decides the call. -/
def checkPrior (L : Ledger) (actionRef unit : Str) (amount : Nat) (ids : List Str) : Except Exit Unit :=
  match L.reservations.get actionRef with
  | none => .ok ()
  | some prior =>
    if prior.state = .cancelled then .ok ()
    else if prior.unit = unit ∧ prior.amount = amount ∧ prior.delegationIds = ids then
      throw (.returned ⟨true, .IDEMPOTENT, some prior.state⟩)
    else throw (.returned ⟨false, .CONFLICT, some prior.state⟩)

def checkLimit (L : Ledger) (unit : Str) (amount : Nat) (b : BoundedSpend) : Except Exit Unit :=
  if b.unit ≠ unit then refuse .UNIT_MISMATCH
  else if b.perAction < amount then refuse .PER_ACTION_EXCEEDED
  else if (b.cumulative : Int) < (L.counterAt b.delegationId).reserved +
      (L.counterAt b.delegationId).committed + amount then refuse .CUMULATIVE_EXCEEDED
  else .ok ()

/-- A reservation that every check has passed. -/
structure Hold where
  actionRef : Str
  unit : Str
  amount : Nat
  bounded : List BoundedSpend

def Hold.ids (h : Hold) : List Str := h.bounded.map BoundedSpend.delegationId

def reserveChecks (P : Primitives) (L : Ledger) (verifiedChain : CallerValue) (actionRef unit amountString : JsValue) :
    Except Exit Hold :=
  match str? actionRef, str? unit, str? amountString with
  | some ref, some unit, some digits =>
    if !isLowerHexOf 64 ref || !isCanonicalQuantity amountString then refuse .CONFLICT
    else match readPlainDataChainContainer 1 256 verifiedChain with
      | .error _ => refuse .CONFLICT
      | .ok container => do
        let chain ← admitChain P [] none container
        let hold : Hold := ⟨ref, unit, bigInt digits, chain.filterMap (fun r => boundedSpend r.delegation)⟩
        checkPrior L ref unit hold.amount hold.ids
        forEach (fun _ => checkLimit L unit hold.amount) 0 hold.bounded
        return hold
  | _, _, _ => refuse .CONFLICT

def Ledger.hold (L : Ledger) (h : Hold) : Ledger where
  counters := L.counters.updateEach (fun c =>
    { c.getD ⟨0, 0⟩ with reserved := (c.getD ⟨0, 0⟩).reserved + h.amount }) h.ids
  reservations := L.reservations.set h.actionRef ⟨h.actionRef, h.unit, h.amount, h.ids, .reserved⟩

def reserve (P : Primitives) (L : Ledger) (verifiedChain : CallerValue) (actionRef unit amountString : JsValue) :
    Except JcsError (BudgetOperationResult × Ledger) :=
  match reserveChecks P L verifiedChain actionRef unit amountString with
  | .error (.returned r) => .ok (r, L)
  | .error (.threw e) => .error e
  | .ok h => .ok (⟨true, .RESERVED, some .reserved⟩, L.hold h)

/-- `reservations.get(actionRef)`; the keys are strings. -/
def Ledger.stored (L : Ledger) : JsValue → Option (Str × Reservation)
  | .str ref => (L.reservations.get ref).map (ref, ·)
  | _ => none

/-- The reservation stays where it is, in a new state. -/
def Ledger.transition (L : Ledger) (ref : Str) (r : Reservation) (state : BudgetReservationState) :
    OrderedMap Str Reservation :=
  L.reservations.set ref { r with state := state }

/-- No counter of the reservation is missing or smaller than its amount. -/
def Ledger.covers (L : Ledger) (r : Reservation) : Bool :=
  r.delegationIds.all (fun id =>
    match L.counters.get id with
    | none => false
    | some c => !decide (c.reserved < r.amount))

def markDispatched (L : Ledger) (actionRef : JsValue) : BudgetOperationResult × Ledger :=
  match L.stored actionRef with
  | none => (⟨false, .NOT_FOUND, none⟩, L)
  | some (ref, r) =>
    if r.state = .dispatched then (⟨true, .IDEMPOTENT, some .dispatched⟩, L)
    else if r.state ≠ .reserved then (⟨false, .INVALID_STATE, some r.state⟩, L)
    else (⟨true, .DISPATCHED, some .dispatched⟩, { L with reservations := L.transition ref r .dispatched })

def commit (L : Ledger) (actionRef : JsValue) : BudgetOperationResult × Ledger :=
  match L.stored actionRef with
  | none => (⟨false, .NOT_FOUND, none⟩, L)
  | some (ref, r) =>
    if r.state = .committed then (⟨true, .IDEMPOTENT, some .committed⟩, L)
    else if r.state ≠ .reserved ∧ r.state ≠ .dispatched then (⟨false, .INVALID_STATE, some r.state⟩, L)
    else if !L.covers r then (⟨false, .INVALID_STATE, some r.state⟩, L)
    else (⟨true, .COMMITTED, some .committed⟩,
      { counters := L.counters.updateEach (fun c =>
          ⟨(c.getD ⟨0, 0⟩).reserved - r.amount, (c.getD ⟨0, 0⟩).committed + r.amount⟩) r.delegationIds
        reservations := L.transition ref r .committed })

def cancel (L : Ledger) (actionRef : JsValue) : BudgetOperationResult × Ledger :=
  match L.stored actionRef with
  | none => (⟨false, .NOT_FOUND, none⟩, L)
  | some (ref, r) =>
    if r.state = .cancelled then (⟨true, .IDEMPOTENT, some .cancelled⟩, L)
    else if r.state ≠ .reserved then (⟨false, .INVALID_STATE, some r.state⟩, L)
    else if !L.covers r then (⟨false, .INVALID_STATE, some r.state⟩, L)
    else (⟨true, .CANCELLED, some .cancelled⟩,
      { counters := L.counters.updateEach (fun c =>
          { c.getD ⟨0, 0⟩ with reserved := (c.getD ⟨0, 0⟩).reserved - r.amount }) r.delegationIds
        reservations := L.transition ref r .cancelled })

inductive Op where
  | reserve (verifiedChain : CallerValue) (actionRef unit amountString : JsValue)
  | markDispatched (actionRef : JsValue)
  | commit (actionRef : JsValue)
  | cancel (actionRef : JsValue)

/-- One call; an exception leaves the ledger as it was. -/
def step (P : Primitives) (L : Ledger) : Op → Ledger
  | .reserve verifiedChain actionRef unit amountString =>
    match reserve P L verifiedChain actionRef unit amountString with
    | .ok (_, L') => L'
    | .error _ => L
  | .markDispatched actionRef => (markDispatched L actionRef).2
  | .commit actionRef => (commit L actionRef).2
  | .cancel actionRef => (cancel L actionRef).2

def run (P : Primitives) (ops : List Op) : Ledger := ops.foldl (step P) .empty

def Op.bodies : Op → Set JsValue
  | .reserve (.arr _ slots) _ _ _ => memberBodies slots
  | _ => ∅

theorem admitChain_ok {P : Primitives} {members : List CallerValue} :
    ∀ {seen : List Str} {parent : Option AuthorityDelegation} {chain : List ShapedRecord},
      admitChain P seen parent members = .ok chain →
      (chain.map (fun r => r.delegation.delegationId)).Nodup ∧
        (∀ r ∈ chain, r.delegation.delegationId ∉ seen) ∧
        ∀ r ∈ chain, (∃ v ∈ members, r.value = snapshotPlainData v) ∧
          computeAuthorityDelegationId P (authorityDelegationBody r.value) = .ok r.delegation.delegationId := by
  induction members with
  | nil =>
    intro seen parent chain h
    cases h
    simp
  | cons member rest ih =>
    intro seen parent chain h
    rw [admitChain] at h
    split at h
    · cases h
    rename_i hshape
    simp only at h
    split at h
    · cases h
    rename_i id hid
    split at h
    · cases h
    rename_i hnew
    split at h
    · cases h
    obtain ⟨tail, htail, heq⟩ := bind_eq_ok.mp h
    cases heq
    obtain ⟨hmatch, hunseen⟩ := not_or.mp hnew
    obtain ⟨hnodup, hseen, hrecords⟩ := ih htail
    refine ⟨?_, ?_, ?_⟩
    · rw [List.map_cons, List.nodup_cons]
      refine ⟨?_, hnodup⟩
      intro hmem
      obtain ⟨r, hr, hr'⟩ := List.mem_map.mp hmem
      exact hseen r hr (hr' ▸ List.mem_cons_self)
    · refine List.forall_mem_cons.mpr ⟨hunseen, ?_⟩
      intro r hr hmem
      exact hseen r hr (List.mem_cons_of_mem _ hmem)
    · refine List.forall_mem_cons.mpr ⟨⟨⟨member, List.mem_cons_self, snapshot_idem member⟩, ?_⟩, ?_⟩
      · rw [hid, not_not.mp hmatch]
      · intro r hr
        obtain ⟨⟨v, hv, hvalue⟩, haddress⟩ := hrecords r hr
        exact ⟨⟨v, List.mem_cons_of_mem member hv, hvalue⟩, haddress⟩

theorem checkPrior_ok {L : Ledger} {actionRef unit : Str} {amount : Nat} {ids : List Str}
    (h : checkPrior L actionRef unit amount ids = .ok ()) :
    ∀ prior, L.reservations.get actionRef = some prior → prior.state = .cancelled := by
  intro prior hprior
  unfold checkPrior at h
  rw [hprior] at h
  simp only at h
  split at h
  · rename_i hcancelled
    exact hcancelled
  · split at h
    · cases h
    · cases h

theorem checkLimit_ok {L : Ledger} {unit : Str} {amount : Nat} (_ : Nat) (b : BoundedSpend) :
    checkLimit L unit amount b = .ok () ↔ b.unit = unit ∧ amount ≤ b.perAction ∧
      (L.counterAt b.delegationId).reserved + (L.counterAt b.delegationId).committed + amount ≤ b.cumulative := by
  unfold checkLimit refuse
  split
  · rename_i hunit
    exact iff_of_false (fun h => by cases h) (fun h => hunit h.1)
  split
  · rename_i hper
    exact iff_of_false (fun h => by cases h) (fun h => by omega)
  split
  · rename_i hcum
    exact iff_of_false (fun h => by cases h) (fun h => by omega)
  · rename_i hunit hper hcum
    exact iff_of_true rfl ⟨not_not.mp hunit, by omega, by omega⟩

/-- Everything the checks of `reserve` have shown, as far as the ledger depends on it. -/
structure Admitted (P : Primitives) (L : Ledger) (bodies : Set JsValue) (h : Hold) : Prop where
  distinct : h.ids.Nodup
  prior : ∀ prior, L.reservations.get h.actionRef = some prior → prior.state = .cancelled
  limits : ∀ b ∈ h.bounded,
    (L.counterAt b.delegationId).reserved + (L.counterAt b.delegationId).committed + h.amount ≤ b.cumulative
  records : ∀ b ∈ h.bounded, ∃ r : ShapedRecord, boundedSpend r.delegation = some b ∧
    authorityDelegationBody r.value ∈ bodies ∧
    computeAuthorityDelegationId P (authorityDelegationBody r.value) = .ok b.delegationId

theorem boundedSpend_id {d : AuthorityDelegation} {b : BoundedSpend} (h : boundedSpend d = some b) :
    b.delegationId = d.delegationId := by
  unfold boundedSpend at h
  split at h
  · cases h
  · cases h
    rfl

theorem bounded_sublist (chain : List ShapedRecord) :
    ((chain.filterMap (fun r => boundedSpend r.delegation)).map BoundedSpend.delegationId).Sublist
      (chain.map (fun r => r.delegation.delegationId)) := by
  induction chain with
  | nil => simp
  | cons r rest ih =>
    cases hb : boundedSpend r.delegation with
    | none =>
      simp only [List.filterMap_cons, hb, List.map_cons]
      exact ih.cons _
    | some b =>
      simp only [List.filterMap_cons, hb, List.map_cons, boundedSpend_id hb]
      exact ih.cons_cons _

theorem reserveChecks_ok {P : Primitives} {L : Ledger} {verifiedChain : CallerValue} {actionRef unit amountString : JsValue}
    {h : Hold} (hchecks : reserveChecks P L verifiedChain actionRef unit amountString = .ok h) :
    Admitted P L (Op.reserve verifiedChain actionRef unit amountString).bodies h := by
  unfold reserveChecks at hchecks
  split at hchecks
  · split at hchecks
    · cases hchecks
    split at hchecks
    · cases hchecks
    rename_i container hcontainer
    obtain ⟨chain, hchain, hchecks⟩ := bind_eq_ok.mp hchecks
    obtain ⟨hprior, hchecks⟩ := bind_unit_eq_ok.mp hchecks
    obtain ⟨hlimits, hhold⟩ := bind_unit_eq_ok.mp hchecks
    cases hhold
    obtain ⟨hnodup, -, hrecords⟩ := admitChain_ok hchain
    rw [forEach_eq_ok checkLimit_ok] at hlimits
    refine ⟨hnodup.sublist (bounded_sublist chain), checkPrior_ok hprior, ?_, ?_⟩
    · intro b hb
      exact (hlimits b hb).2.2
    · intro b hb
      obtain ⟨r, hr, hbound⟩ := List.mem_filterMap.mp hb
      obtain ⟨⟨v, hv, hvalue⟩, haddress⟩ := hrecords r hr
      obtain ⟨slots, rfl, -, -, hslots⟩ := readContainer_ok.mp hcontainer
      exact ⟨r, hbound, ⟨v, mem_of_dataMembers hslots v hv, by rw [hvalue]⟩,
        by rw [haddress, boundedSpend_id hbound]⟩
  · cases hchecks

/-- What a reservation holds of a delegation: its amount until it is committed or cancelled. -/
def held (id : Str) (r : Reservation) : Nat :=
  if (r.state = .reserved ∨ r.state = .dispatched) ∧ id ∈ r.delegationIds then r.amount else 0

def spent (id : Str) (r : Reservation) : Nat :=
  if r.state = .committed ∧ id ∈ r.delegationIds then r.amount else 0

def Ledger.heldTotal (L : Ledger) (id : Str) : Nat := L.reservations.total (held id)

def Ledger.spentTotal (L : Ledger) (id : Str) : Nat := L.reservations.total (spent id)

/-- The counters are the sums over the stored reservations, every reservation has its counters,
and no counter exceeds the limit of a record with its address. -/
structure Sound (P : Primitives) (bodies : Set JsValue) (L : Ledger) : Prop where
  reserved : ∀ id, (L.counterAt id).reserved = L.heldTotal id
  committed : ∀ id, (L.counterAt id).committed = L.spentTotal id
  distinct : ∀ ref r, L.reservations.get ref = some r → r.delegationIds.Nodup
  present : ∀ ref r, L.reservations.get ref = some r → ∀ id ∈ r.delegationIds, (L.counters.get id).isSome = true
  within : ∀ (r : ShapedRecord) (b : BoundedSpend) (id : Str), authorityDelegationBody r.value ∈ bodies →
    computeAuthorityDelegationId P (authorityDelegationBody r.value) = .ok id →
    boundedSpend r.delegation = some b → (L.counterAt id).reserved + (L.counterAt id).committed ≤ b.cumulative

variable {P : Primitives} {bodies : Set JsValue} {L : Ledger}

theorem sound_empty : Sound P bodies .empty where
  reserved := fun _ => rfl
  committed := fun _ => rfl
  distinct := by
    intro ref r h
    cases h
  present := by
    intro ref r h
    cases h
  within := by
    intro r b id _ _ _
    show (0 : Int) + 0 ≤ b.cumulative
    omega

/-- What an operation that stores one reservation anew does to the counters: they move by what
the new reservation holds and has spent, against the old. -/
structure Moves (L : Ledger) (ref : Str) (r : Reservation) (counters : OrderedMap Str Counter) : Prop where
  kept : ∀ id, (L.counters.get id).isSome = true ∨ id ∈ r.delegationIds → (counters.get id).isSome = true
  reserved : ∀ id, (counterIn counters id).reserved + L.reservations.quantityAt (held id) ref =
    (L.counterAt id).reserved + held id r
  committed : ∀ id, (counterIn counters id).committed + L.reservations.quantityAt (spent id) ref =
    (L.counterAt id).committed + spent id r

variable {r : Reservation} {ref : Str}

theorem Sound.move (h : Sound P bodies L) (counters : OrderedMap Str Counter) (hmoves : Moves L ref r counters)
    (hdistinct : r.delegationIds.Nodup)
    (hwithin : ∀ (s : ShapedRecord) (b : BoundedSpend) (id : Str), authorityDelegationBody s.value ∈ bodies → computeAuthorityDelegationId P (authorityDelegationBody s.value) = .ok id → boundedSpend s.delegation = some b → (counterIn counters id).reserved + (counterIn counters id).committed ≤ b.cumulative) :
    Sound P bodies ⟨counters, L.reservations.set ref r⟩ where
  reserved := by
    intro id
    have hold := h.reserved id
    have hmove := hmoves.reserved id
    have htotal := OrderedMap.total_set (held id) L.reservations ref r
    rw [Ledger.heldTotal] at hold ⊢
    rw [Ledger.counterAt]
    dsimp only
    omega
  committed := by
    intro id
    have hold := h.committed id
    have hmove := hmoves.committed id
    have htotal := OrderedMap.total_set (spent id) L.reservations ref r
    rw [Ledger.spentTotal] at hold ⊢
    rw [Ledger.counterAt]
    dsimp only
    omega
  distinct := OrderedMap.forall_set h.distinct hdistinct
  present := by
    intro ref' r' hget id hid
    rw [OrderedMap.get_set] at hget
    split at hget
    · cases hget
      exact hmoves.kept id (.inr hid)
    · exact hmoves.kept id (.inl (h.present ref' r' hget id hid))
  within := hwithin

theorem counterIn_updateEach {g : Option Counter → Counter} {ids : List Str} (h : ids.Nodup)
    (counters : OrderedMap Str Counter) (id : Str) :
    counterIn (counters.updateEach g ids) id = if id ∈ ids then g (counters.get id) else counterIn counters id := by
  rw [counterIn, OrderedMap.get_updateEach g h]
  split
  · rfl
  · rfl

theorem kept_updateEach {g : Option Counter → Counter} {ids : List Str} (h : ids.Nodup)
    (counters : OrderedMap Str Counter) {id : Str} (hid : (counters.get id).isSome = true ∨ id ∈ ids) :
    ((counters.updateEach g ids).get id).isSome = true := by
  rw [OrderedMap.get_updateEach g h]
  split
  · rfl
  · rename_i hnot
    exact hid.resolve_right hnot

theorem cumulative_eq (haddress : AddressInjectiveOn P bodies) {r s : ShapedRecord} {b c : BoundedSpend} {id : Str}
    (hr : authorityDelegationBody r.value ∈ bodies) (hs : authorityDelegationBody s.value ∈ bodies)
    (hrid : computeAuthorityDelegationId P (authorityDelegationBody r.value) = .ok id)
    (hsid : computeAuthorityDelegationId P (authorityDelegationBody s.value) = .ok id)
    (hb : boundedSpend r.delegation = some b) (hc : boundedSpend s.delegation = some c) :
    b.cumulative = c.cumulative := by
  have hspend := spend_of_same (haddress _ hr _ hs id hrid hsid)
  unfold boundedSpend at hb hc
  rw [hspend] at hb
  split at hb
  · cases hb
  · rename_i heq
    rw [heq] at hc
    cases hb
    cases hc
    rfl

theorem prior_holds_nothing (h : ∀ prior, L.reservations.get ref = some prior → prior.state = .cancelled) (id : Str) :
    L.reservations.quantityAt (held id) ref = 0 ∧ L.reservations.quantityAt (spent id) ref = 0 := by
  cases hget : L.reservations.get ref with
  | none => simp [OrderedMap.quantityAt, hget]
  | some prior => simp [OrderedMap.quantityAt, hget, held, spent, h prior hget]

theorem hold_sound (haddress : AddressInjectiveOn P bodies) (h : Sound P bodies L) {hold : Hold}
    {offered : Set JsValue} (hoffered : offered ⊆ bodies) (hadmitted : Admitted P L offered hold) :
    Sound P bodies (L.hold hold) := by
  have hcounter := counterIn_updateEach (g := fun c =>
    { c.getD ⟨0, 0⟩ with reserved := (c.getD ⟨0, 0⟩).reserved + hold.amount }) hadmitted.distinct L.counters
  refine h.move _ ⟨?_, ?_, ?_⟩ hadmitted.distinct ?_
  · intro id hid
    exact kept_updateEach hadmitted.distinct L.counters hid
  · intro id
    rw [hcounter, (prior_holds_nothing hadmitted.prior id).1]
    by_cases hid : id ∈ hold.ids
    · simp [held, hid, Ledger.counterAt, counterIn]
    · simp [held, hid, Ledger.counterAt]
  · intro id
    rw [hcounter, (prior_holds_nothing hadmitted.prior id).2]
    by_cases hid : id ∈ hold.ids
    · simp [spent, hid, Ledger.counterAt, counterIn]
    · simp [spent, hid, Ledger.counterAt]
  · intro s b id hs hsid hb
    rw [hcounter]
    split
    · rename_i hid
      obtain ⟨c, hc, rfl⟩ := List.mem_map.mp hid
      obtain ⟨r, hr, hrbody, hrid⟩ := hadmitted.records c hc
      have hlimit := hadmitted.limits c hc
      rw [cumulative_eq haddress hs (hoffered hrbody) hsid hrid hb hr]
      rw [Ledger.counterAt, counterIn] at hlimit
      dsimp only
      omega
    · exact h.within s b id hs hsid hb

theorem stored_eq {actionRef : JsValue} (h : L.stored actionRef = some (ref, r)) :
    actionRef = .str ref ∧ L.reservations.get ref = some r := by
  unfold Ledger.stored at h
  split at h
  · obtain ⟨r', hr', heq⟩ := Option.map_eq_some_iff.mp h
    cases heq
    exact ⟨rfl, hr'⟩
  · cases h

theorem quantityAt_stored (h : L.reservations.get ref = some r) (f : Reservation → Nat) :
    L.reservations.quantityAt f ref = f r := by
  rw [OrderedMap.quantityAt, h, Option.elim_some]

theorem markDispatched_sound (h : Sound P bodies L) (actionRef : JsValue) :
    Sound P bodies (markDispatched L actionRef).2 := by
  unfold markDispatched
  split
  · exact h
  rename_i ref r hstored
  obtain ⟨-, hget⟩ := stored_eq hstored
  split
  · exact h
  split
  · exact h
  · rename_i hreserved
    have hstate : r.state = .reserved := not_not.mp hreserved
    refine h.move L.counters ⟨?_, ?_, ?_⟩ (h.distinct ref r hget) h.within
    · intro id hid
      exact hid.elim (fun hsome => hsome) (h.present ref r hget id)
    · intro id
      rw [quantityAt_stored hget]
      simp [held, hstate, Ledger.counterAt]
    · intro id
      rw [quantityAt_stored hget]
      simp [spent, hstate, Ledger.counterAt]

theorem Sound.covers (h : Sound P bodies L) (hget : L.reservations.get ref = some r)
    (hstate : r.state = .reserved ∨ r.state = .dispatched) : L.covers r = true := by
  rw [Ledger.covers, List.all_eq_true]
  intro id hid
  obtain ⟨c, hc⟩ := Option.isSome_iff_exists.mp (h.present ref r hget id hid)
  have hle : held id r ≤ L.heldTotal id := OrderedMap.le_total (held id) hget
  have hcounter := h.reserved id
  rw [Ledger.counterAt, counterIn, hc, Option.getD_some] at hcounter
  rw [held, if_pos ⟨hstate, hid⟩] at hle
  rw [hc]
  simp only [Bool.not_eq_true', decide_eq_false_iff_not]
  omega

theorem commit_sound (h : Sound P bodies L) (actionRef : JsValue) : Sound P bodies (commit L actionRef).2 := by
  unfold commit
  split
  · exact h
  rename_i ref r hstored
  obtain ⟨-, hget⟩ := stored_eq hstored
  have hdistinct := h.distinct ref r hget
  split
  · exact h
  split
  · exact h
  rename_i hunsettled
  split
  · exact h
  · have hstate : r.state = .reserved ∨ r.state = .dispatched := by
      by_contra hnot
      exact hunsettled (not_or.mp hnot)
    have hnot : r.state ≠ .committed := by
      rintro heq
      rw [heq] at hstate
      simp at hstate
    have hcounter := counterIn_updateEach (g := fun c =>
      ⟨(c.getD ⟨0, 0⟩).reserved - r.amount, (c.getD ⟨0, 0⟩).committed + r.amount⟩) hdistinct L.counters
    refine h.move _ ⟨?_, ?_, ?_⟩ hdistinct ?_
    · intro id hid
      exact kept_updateEach hdistinct L.counters hid
    · intro id
      rw [hcounter, quantityAt_stored hget]
      by_cases hid : id ∈ r.delegationIds
      · simp [held, hid, hstate, Ledger.counterAt, counterIn]
      · simp [held, hid, Ledger.counterAt]
    · intro id
      rw [hcounter, quantityAt_stored hget]
      by_cases hid : id ∈ r.delegationIds
      · simp [spent, hid, hnot, Ledger.counterAt, counterIn]
      · simp [spent, hid, Ledger.counterAt]
    · intro s b id hs hsid hb
      have hwithin := h.within s b id hs hsid hb
      rw [hcounter]
      split
      · rw [Ledger.counterAt, counterIn] at hwithin
        dsimp only
        omega
      · exact hwithin

theorem cancel_sound (h : Sound P bodies L) (actionRef : JsValue) : Sound P bodies (cancel L actionRef).2 := by
  unfold cancel
  split
  · exact h
  rename_i ref r hstored
  obtain ⟨-, hget⟩ := stored_eq hstored
  have hdistinct := h.distinct ref r hget
  split
  · exact h
  split
  · exact h
  rename_i hreserved
  split
  · exact h
  · have hstate : r.state = .reserved := not_not.mp hreserved
    have hcounter := counterIn_updateEach (g := fun c =>
      { c.getD ⟨0, 0⟩ with reserved := (c.getD ⟨0, 0⟩).reserved - r.amount }) hdistinct L.counters
    refine h.move _ ⟨?_, ?_, ?_⟩ hdistinct ?_
    · intro id hid
      exact kept_updateEach hdistinct L.counters hid
    · intro id
      rw [hcounter, quantityAt_stored hget]
      by_cases hid : id ∈ r.delegationIds
      · simp [held, hid, hstate, Ledger.counterAt, counterIn]
      · simp [held, hid, Ledger.counterAt]
    · intro id
      rw [hcounter, quantityAt_stored hget]
      by_cases hid : id ∈ r.delegationIds
      · simp [spent, hid, hstate, Ledger.counterAt, counterIn]
      · simp [spent, hid, Ledger.counterAt]
    · intro s b id hs hsid hb
      have hwithin := h.within s b id hs hsid hb
      rw [hcounter]
      split
      · rw [Ledger.counterAt, counterIn] at hwithin
        dsimp only
        omega
      · exact hwithin

theorem reserve_sound (haddress : AddressInjectiveOn P bodies) (h : Sound P bodies L)
    {verifiedChain : CallerValue} {actionRef unit amountString : JsValue}
    (hoffered : (Op.reserve verifiedChain actionRef unit amountString).bodies ⊆ bodies)
    {result : BudgetOperationResult} {L' : Ledger}
    (hreserve : reserve P L verifiedChain actionRef unit amountString = .ok (result, L')) : Sound P bodies L' := by
  unfold reserve at hreserve
  split at hreserve
  · cases hreserve
    exact h
  · cases hreserve
  · rename_i hold hchecks
    cases hreserve
    exact hold_sound haddress h hoffered (reserveChecks_ok hchecks)

theorem step_sound (haddress : AddressInjectiveOn P bodies) (h : Sound P bodies L) {op : Op}
    (hoffered : op.bodies ⊆ bodies) : Sound P bodies (step P L op) := by
  cases op with
  | reserve verifiedChain actionRef unit amountString =>
    rw [step]
    split
    · rename_i result L' hreserve
      exact reserve_sound haddress h hoffered hreserve
    · exact h
  | markDispatched actionRef => exact markDispatched_sound h actionRef
  | commit actionRef => exact commit_sound h actionRef
  | cancel actionRef => exact cancel_sound h actionRef

theorem run_sound (haddress : AddressInjectiveOn P bodies) {ops : List Op}
    (hoffered : ∀ op ∈ ops, op.bodies ⊆ bodies) : Sound P bodies (run P ops) := by
  induction ops using List.reverseRecOn with
  | nil => exact sound_empty
  | append_singleton ops op ih =>
    rw [run, List.foldl_append]
    exact step_sound haddress (ih (fun o ho => hoffered o (List.mem_append_left _ ho)))
      (hoffered op (by simp))

theorem admitChain_returns {members : List CallerValue} :
    ∀ (seen : List Str) (parent : Option AuthorityDelegation) (e : JcsError),
      admitChain P seen parent members ≠ .error (.threw e) := by
  induction members with
  | nil =>
    intro seen parent e h
    cases h
  | cons member rest ih =>
    intro seen parent e h
    rw [admitChain] at h
    split at h
    · cases h
    rename_i hshape
    simp only at h
    split at h
    · rename_i e' he
      have hjson := body_isJson ⟨snapshotPlainData (plain (snapshotPlainData member)), hshape⟩
      rw [computeAuthorityDelegationId, authorityDelegationIdInput, canonicalizeJCS_ok hjson] at he
      cases he
    split at h
    · cases h
    split at h
    · cases h
    · obtain hrest | ⟨chain, -, hchain⟩ := bind_eq_error.mp h
      · exact ih _ _ e hrest
      · cases hchain

theorem checkPrior_returns (L : Ledger) (actionRef unit : Str) (amount : Nat) (ids : List Str) (e : JcsError) :
    checkPrior L actionRef unit amount ids ≠ .error (.threw e) := by
  intro h
  unfold checkPrior at h
  split at h
  · cases h
  split at h
  · cases h
  split at h
  · cases h
  · cases h

theorem checkLimit_returns (L : Ledger) (unit : Str) (amount : Nat) (b : BoundedSpend) (e : JcsError) :
    checkLimit L unit amount b ≠ .error (.threw e) := by
  intro h
  unfold checkLimit refuse at h
  split at h
  · cases h
  split at h
  · cases h
  split at h
  · cases h
  · cases h

theorem reserve_returns (L : Ledger) (verifiedChain : CallerValue) (actionRef unit amountString : JsValue) :
    ∃ result, reserve P L verifiedChain actionRef unit amountString = .ok result := by
  unfold reserve
  split
  · exact ⟨_, rfl⟩
  · rename_i e hchecks
    exfalso
    unfold reserveChecks at hchecks
    split at hchecks
    · split at hchecks
      · cases hchecks
      split at hchecks
      · cases hchecks
      · obtain hchain | ⟨chain, -, hchecks⟩ := bind_eq_error.mp hchecks
        · exact admitChain_returns _ _ e hchain
        obtain hprior | ⟨_, -, hchecks⟩ := bind_eq_error.mp hchecks
        · exact checkPrior_returns L _ _ _ _ e hprior
        obtain hlimits | ⟨_, -, hchecks⟩ := bind_eq_error.mp hchecks
        · exact forEach_ne_error (fun _ b => checkLimit_returns L _ _ b e) 0 _ hlimits
        · cases hchecks
    · cases hchecks
  · exact ⟨_, rfl⟩

/-- In every state a run reaches, the counter of each delegation is the sum over the stored
reservations that name it, what is reserved and committed together is within the signed limit
of every bounded record with that address, and a reservation that is not settled can be
committed, or cancelled before dispatch. -/
theorem ledger_conserves (P : Primitives) (bodies : Set JsValue) (haddress : AddressInjectiveOn P bodies)
    (ops : List Op) (hoffered : ∀ op ∈ ops, op.bodies ⊆ bodies) :
    (∀ id, (run P ops).counterAt id = ⟨(run P ops).heldTotal id, (run P ops).spentTotal id⟩ ∧
      (run P ops).counter id = (decimal ((run P ops).heldTotal id), decimal ((run P ops).spentTotal id))) ∧
    (∀ (r : ShapedRecord) (id unit perAction cumulative : Str), authorityDelegationBody r.value ∈ bodies →
      computeAuthorityDelegationId P (authorityDelegationBody r.value) = .ok id →
      r.delegation.authority.spend = .bounded unit perAction cumulative →
      (run P ops).heldTotal id + (run P ops).spentTotal id ≤ bigInt cumulative) ∧
    ∀ ref r, (run P ops).reservations.get ref = some r →
      (r.state = .reserved ∨ r.state = .dispatched →
        (commit (run P ops) (.str ref)).1 = ⟨true, .COMMITTED, some .committed⟩) ∧
      (r.state = .reserved → (cancel (run P ops) (.str ref)).1 = ⟨true, .CANCELLED, some .cancelled⟩) := by
  have h := run_sound haddress hoffered
  refine ⟨?_, ?_, ?_⟩
  · intro id
    have hcounter : (run P ops).counterAt id = ⟨(run P ops).heldTotal id, (run P ops).spentTotal id⟩ := by
      rw [Counter.mk.injEq]
      exact ⟨h.reserved id, h.committed id⟩
    refine ⟨hcounter, ?_⟩
    rw [Ledger.counter, hcounter]
    rfl
  · intro r id unit perAction cumulative hr hid hspend
    have hwithin := h.within r ⟨r.delegation.delegationId, unit, bigInt perAction, bigInt cumulative⟩ id hr hid
      (by rw [boundedSpend, hspend])
    rw [h.reserved, h.committed] at hwithin
    exact_mod_cast hwithin
  · intro ref r hget
    have hstored : (run P ops).stored (.str ref) = some (ref, r) := by
      rw [Ledger.stored, hget, Option.map_some]
    constructor
    · intro hstate
      have hcovers := h.covers hget hstate
      obtain hstate | hstate := hstate
      · simp [commit, hstored, hstate, hcovers]
      · simp [commit, hstored, hstate, hcovers]
    · intro hstate
      have hcovers := h.covers hget (.inl hstate)
      simp [cancel, hstored, hstate, hcovers]

def sampleRun : List Op :=
  [.reserve (plain (.arr [rootRecord, childRecord])) (.str rootDigest) (.str (lit "USD")) (.str (lit "3")),
    .markDispatched (.str rootDigest), .commit (.str rootDigest)]

theorem ledger_conserves_committed :
    (run samplePrimitives sampleRun).counterAt (lit "sha256:" ++ rootDigest) = ⟨0, 3⟩ ∧
    (run samplePrimitives sampleRun).heldTotal (lit "sha256:" ++ rootDigest) +
      (run samplePrimitives sampleRun).spentTotal (lit "sha256:" ++ rootDigest) ≤ 9 := by
  have hoffered : ∀ op ∈ sampleRun, op.bodies ⊆ {.obj rootBody, .obj childBody} := by
    simp only [sampleRun, List.forall_mem_cons]
    refine ⟨?_, Set.empty_subset _, Set.empty_subset _, List.forall_mem_nil _⟩
    rintro _ ⟨v, hv, rfl⟩
    simp only [plainItems, List.mem_cons, Option.some.injEq, List.not_mem_nil, or_false] at hv
    obtain rfl | rfl := hv
    · exact .inl rfl
    · exact .inr rfl
  have hspend : (readDelegation rootRecord).map (fun d => d.authority.spend) =
      some (.bounded (lit "USD") (lit "5") (lit "9")) := by decide +kernel
  have hid : computeAuthorityDelegationId samplePrimitives (.obj rootBody) =
      .ok (lit "sha256:" ++ rootDigest) := by decide +kernel
  let root : ShapedRecord := ⟨rootRecord, by decide +kernel⟩
  rw [root.read_eq, Option.map_some, Option.some.injEq] at hspend
  refine ⟨by decide +kernel, ?_⟩
  exact (ledger_conserves samplePrimitives _ DelegationIssue.sample_addresses sampleRun hoffered).2.1 root _ _ _ _
    (.inl rfl) hid hspend

end AgentPassport.BudgetLedger
