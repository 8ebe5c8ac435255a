import AgentPassport.AdvisorDelegation

/-! How often an advisor was consulted (`consultAdvisor` of `v2/sub-delegate-advisor.ts`, with
`createDecisionLineageReceipt` of `core/data-lifecycle.ts`): the uses that are counted against the receipts
that are returned. -/
namespace AgentPassport.AdvisorUses
open JsText Js CanonicalJcs LegacyCanonical LegacyDelegation AdvisorDelegation CanonicalInjective Outcome

structure ContributingSource where
  sourceId : Str
  accessReceiptId : Str
  derivationDepth : JsNumber
  transformPath : List Str
  termsVersionAtAccess : Str
  lineageConfidence : Str
  compensationStatus : Str

structure DecisionLineageReceipt where
  receiptId : Str
  timestamp : Str
  decisionArtifactId : Str
  decisionType : Str
  contributingSources : List ContributingSource
  lineageCompleteness : Str
  externalHopsPresent : Bool
  transformChain : List Str
  governingPurpose : Option Str
  jurisdictionContext : Option Str
  explanation : Option Str
  signature : Str

def texts (items : List Str) : JsValue := .arr (items.map .str)

def optionalText : Option Str → JsValue
  | some s => .str s
  | none => .undefined

def ContributingSource.value (s : ContributingSource) : JsValue :=
  .obj [(lit "sourceId", .str s.sourceId), (lit "accessReceiptId", .str s.accessReceiptId),
    (lit "derivationDepth", .num s.derivationDepth), (lit "transformPath", texts s.transformPath),
    (lit "termsVersionAtAccess", .str s.termsVersionAtAccess), (lit "lineageConfidence", .str s.lineageConfidence),
    (lit "compensationStatus", .str s.compensationStatus)]

def DecisionLineageReceipt.unsigned (r : DecisionLineageReceipt) : JsValue :=
  .obj [(lit "receiptId", .str r.receiptId), (lit "timestamp", .str r.timestamp),
    (lit "decisionArtifactId", .str r.decisionArtifactId), (lit "decisionType", .str r.decisionType),
    (lit "contributingSources", .arr (r.contributingSources.map ContributingSource.value)),
    (lit "lineageCompleteness", .str r.lineageCompleteness), (lit "externalHopsPresent", .bool r.externalHopsPresent),
    (lit "transformChain", texts r.transformChain), (lit "governingPurpose", optionalText r.governingPurpose),
    (lit "jurisdictionContext", optionalText r.jurisdictionContext), (lit "explanation", optionalText r.explanation)]

structure LineageOptions where
  decisionArtifactId : Str
  decisionType : Str
  contributingSources : List ContributingSource
  lineageCompleteness : Str
  externalHopsPresent : Option Bool
  transformChain : Option (List Str)
  governingPurpose : Option Str
  jurisdictionContext : Option Str
  explanation : Option Str
  privateKey : Str

def buildReceipt (random : Str) (now : Int) (opts : LineageOptions) : DecisionLineageReceipt where
  receiptId := lit "dlr_" ++ random
  timestamp := toISOString now
  decisionArtifactId := opts.decisionArtifactId
  decisionType := opts.decisionType
  contributingSources := opts.contributingSources
  lineageCompleteness := opts.lineageCompleteness
  externalHopsPresent := opts.externalHopsPresent.getD false
  transformChain := opts.transformChain.getD []
  governingPurpose := opts.governingPurpose
  jurisdictionContext := opts.jurisdictionContext
  explanation := opts.explanation
  signature := []

section
variable (P : Primitives)

/-- It fails as the signing of a delegation does. -/
def createDecisionLineageReceipt (random : Str) (now : Int) (opts : LineageOptions) :
    Except DelegationError DecisionLineageReceipt := do
  let receipt := buildReceipt random now opts
  let canonical ← canonicalText (canonicalizeForWrite P.numText (lit "$") receipt.unsigned)
  match P.sign canonical opts.privateKey with
  | some signature => return { receipt with signature := signature }
  | none => throw .signing

structure ConsultAdvisorOptions where
  advisorDelegation : Delegation
  decisionType : Str
  decisionArtifactId : Str
  adviceHash : Str
  privateKey : Str
  governingPurpose : Option Str
  explanation : Option Str
  revocation : Option RevocationCheckOptions

/-- A call with what it draws: the readings of the check, and the random part and the time of the receipt. -/
structure Call where
  readings : Readings
  random : Str
  now : Int
  opts : ConsultAdvisorOptions

structure ConsultAdvisorResult where
  receipt : DecisionLineageReceipt
  usesRemaining : JsNumber

def ConsultAdvisorOptions.lineage (opts : ConsultAdvisorOptions) : LineageOptions where
  decisionArtifactId := opts.decisionArtifactId
  decisionType := opts.decisionType
  contributingSources := [⟨opts.advisorDelegation.delegatedTo, opts.adviceHash, zeroOf false, [],
    opts.advisorDelegation.delegationId, lit "complete", lit "settled"⟩]
  lineageCompleteness := lit "complete"
  externalHopsPresent := some false
  transformChain := some []
  governingPurpose := opts.governingPurpose
  jurisdictionContext := none
  explanation := opts.explanation
  privateKey := opts.privateKey

def getAdvisorUses (tracker : OrderedMap Str Nat) (delegationId : Str) : Nat := (tracker.get delegationId).getD 0

/-- `used >= max`. -/
def reached (used : Nat) : JsNumber → Bool
  | .finite d => d.scaled ≤ used * scaleOne
  | .infinite neg => neg
  | .nan => false

def statusLabel (status : DelegationStatus) : Str :=
  if status.revoked then lit "revoked" else if status.expired then lit "expired" else lit "failed verification"

def checkConsult (tracker : OrderedMap Str Nat) (call : Call) : Except AdvisorError Nat := do
  let d := call.opts.advisorDelegation
  if d.spendLimitUnit ≠ some .invocations then throw .notAdvisor
  else do
    let status ← fromLegacy (verifyDelegation P call.readings d call.opts.revocation)
    if !status.valid || status.expired || status.revoked then throw (.invalid (statusLabel status) status.errors)
    else
      let used := getAdvisorUses tracker d.delegationId
      let max := d.spendLimit.getD (zeroOf false)
      if reached used max then throw (.exhausted used max) else return used

/-- A call, and the tracker it leaves: the use is counted before the receipt is made. -/
def consultAdvisor (tracker : OrderedMap Str Nat) (call : Call) :
    Except AdvisorError ConsultAdvisorResult × OrderedMap Str Nat :=
  match checkConsult P tracker call with
  | .error e => (.error e, tracker)
  | .ok used =>
    let d := call.opts.advisorDelegation
    let usesRemaining := (d.spendLimit.getD (zeroOf false)).sub (.ofInt (used + 1))
    (do
      let receipt ← fromLegacy (createDecisionLineageReceipt P call.random call.now call.opts.lineage)
      return ⟨receipt, usesRemaining⟩, tracker.set d.delegationId (used + 1))

def run (calls : List Call) : OrderedMap Str Nat :=
  calls.foldl (fun tracker call => (consultAdvisor P tracker call).2) .empty

def consultedBy (tracker : OrderedMap Str Nat) (call : Call) : List Str :=
  if (consultAdvisor P tracker call).1.isOk then [call.opts.advisorDelegation.delegationId] else []

def consulted (tracker : OrderedMap Str Nat) : List Call → List Str
  | [] => []
  | call :: calls => consultedBy P tracker call ++ consulted (consultAdvisor P tracker call).2 calls

def Call.delegationId (call : Call) : Str := call.opts.advisorDelegation.delegationId

/-- `d.spendLimit ?? 0`. -/
def Call.limit (call : Call) : JsNumber := call.opts.advisorDelegation.spendLimit.getD (zeroOf false)

/-- `used > max`. -/
def exceeds (used : Nat) : JsNumber → Bool
  | .finite d => d.scaled < used * scaleOne
  | .infinite neg => neg
  | .nan => false

/-- The counts after a run are the receipts it returned, within the limits, and no call that failed counted. -/
structure CountedExactly (calls : List Call) : Prop where
  uses : ∀ id, getAdvisorUses (run P calls) id = (consulted P .empty calls).count id
  within : ∀ call ∈ calls, exceeds (getAdvisorUses (run P calls) call.delegationId) call.limit = false
  thrown : ∀ before call after, calls = before ++ call :: after →
    (consultAdvisor P (run P before) call).1.isOk = false → (consultAdvisor P (run P before) call).2 = run P before

/-- A call that gets past the checks has a key that signs. -/
def Signs (tracker : OrderedMap Str Nat) (call : Call) : Prop :=
  (checkConsult P tracker call).isOk = true → ∀ message, (P.sign message call.opts.privateKey).isSome = true

def WholeLimit : JsNumber → Prop
  | .finite d => ∃ n : Nat, d.scaled = n * scaleOne
  | .infinite neg => neg = false
  | .nan => True

/-- Every counted call can be signed, limits are whole, and an id has one limit. -/
structure Proper (calls : List Call) : Prop where
  signs : ∀ before call after, calls = before ++ call :: after → Signs P (run P before) call
  whole : ∀ call ∈ calls, WholeLimit call.limit
  oneLimit : ∀ call ∈ calls, ∀ call' ∈ calls, call.delegationId = call'.delegationId → call.limit = call'.limit

end

section
variable {numText : Double → Str}

/-- A value the write twin returns a text for, wherever it stands. -/
def Returned (numText : Double → Str) (v : JsValue) : Prop :=
  ∀ path, ∃ text, canonicalizeForWrite numText path v = .ok text

theorem forWriteItems_returned {items : List JsValue} (path : Str) (h : ∀ v ∈ items, Returned numText v) :
    ∀ i, ∃ parts, forWriteItems numText path i items = .ok parts := by
  induction items with
  | nil => exact fun i => ⟨[], by rw [forWriteItems]; rfl⟩
  | cons v rest ih =>
    intro i
    obtain ⟨hv, hrest⟩ := List.forall_mem_cons.mp h
    obtain ⟨part, hpart⟩ := hv (itemPath path i)
    obtain ⟨parts, hparts⟩ := ih hrest (i + 1)
    refine ⟨part :: parts, ?_⟩
    rw [forWriteItems, hpart, hparts]
    rfl

theorem Returned.arr {items : List JsValue} (h : ∀ v ∈ items, Returned numText v) : Returned numText (.arr items) := by
  intro path
  obtain ⟨parts, hparts⟩ := forWriteItems_returned path h 0
  exact ⟨_, by rw [canonicalizeForWrite, hparts]; rfl⟩

theorem pushPairs_returned {entries : List (Str × JsValue × Except LegacyError (Option Str))}
    (h : ∀ m ∈ entries, ∃ text, m.2.2 = .ok text) : ∃ pairs, pushPairs entries = .ok pairs := by
  induction entries with
  | nil => exact ⟨[], rfl⟩
  | cons m rest ih =>
    obtain ⟨name, v, written⟩ := m
    obtain ⟨⟨text, htext⟩, hrest⟩ := List.forall_mem_cons.mp h
    obtain ⟨pairs, hpairs⟩ := ih hrest
    rw [pushPairs]
    by_cases hnull : nullish v = true
    · exact ⟨pairs, by rw [if_pos hnull, hpairs]⟩
    · cases htext
      exact ⟨pairText name text :: pairs, by rw [if_neg hnull, hpairs]; rfl⟩

theorem Returned.obj {members : List (Str × JsValue)} (h : ∀ m ∈ members, Returned numText m.2) :
    Returned numText (.obj members) := by
  intro path
  have hentries : ∀ m ∈ sortByName (forWriteMembers numText path members), ∃ text, m.2.2 = .ok text := by
    intro m hm
    rw [(sortByName_perm _).mem_iff, forWriteMembers_eq] at hm
    obtain ⟨member, hmember, rfl⟩ := List.mem_map.mp hm
    exact h member hmember _
  obtain ⟨pairs, hpairs⟩ := pushPairs_returned hentries
  exact ⟨_, by rw [canonicalizeForWrite, hpairs]; rfl⟩

theorem Returned.str (s : Str) : Returned numText (.str s) := fun _ => ⟨_, rfl⟩

theorem Returned.bool (b : Bool) : Returned numText (.bool b) := fun _ => ⟨_, rfl⟩

theorem Returned.optionalText : ∀ text, Returned numText (optionalText text)
  | none => fun _ => ⟨_, rfl⟩
  | some s => Returned.str s

theorem Returned.texts (items : List Str) : Returned numText (texts items) := by
  refine Returned.arr ?_
  intro v hv
  obtain ⟨s, -, rfl⟩ := List.mem_map.mp hv
  exact Returned.str s

theorem Returned.zero : Returned numText (.num (zeroOf false)) := by
  intro path
  have hsafe : isUnsafeWriteInteger ⟨false, 0, -1074, by decide⟩ = false := by decide +kernel
  rw [zeroOf, canonicalizeForWrite, hsafe]
  exact ⟨_, rfl⟩

theorem source_returned (advisor adviceHash delegationId : Str) : Returned numText
    (ContributingSource.value ⟨advisor, adviceHash, zeroOf false, [], delegationId, lit "complete", lit "settled"⟩) := by
  refine Returned.obj ?_
  simp only [List.forall_mem_cons, List.not_mem_nil, false_implies, implies_true, and_true]
  exact ⟨Returned.str _, Returned.str _, Returned.zero, Returned.texts _, Returned.str _, Returned.str _, Returned.str _⟩

theorem unsigned_returned (random : Str) (now : Int) (opts : ConsultAdvisorOptions) :
    Returned numText (buildReceipt random now opts.lineage).unsigned := by
  refine Returned.obj ?_
  simp only [List.forall_mem_cons, List.not_mem_nil, false_implies, implies_true, and_true]
  refine ⟨Returned.str _, Returned.str _, Returned.str _, Returned.str _, Returned.arr ?_, Returned.str _,
    Returned.bool _, Returned.texts _, Returned.optionalText _, Returned.optionalText _, Returned.optionalText _⟩
  intro v hv
  obtain ⟨source, hsource, rfl⟩ := List.mem_map.mp hv
  cases List.mem_singleton.mp hsource
  exact source_returned _ _ _

end

section
variable {P : Primitives}

theorem createDecisionLineageReceipt_ok (random : Str) (now : Int) {opts : ConsultAdvisorOptions}
    (h : ∀ message, (P.sign message opts.privateKey).isSome = true) :
    ∃ receipt, createDecisionLineageReceipt P random now opts.lineage = .ok receipt := by
  obtain ⟨text, htext⟩ := @unsigned_returned P.numText random now opts (lit "$")
  obtain ⟨signature, hsign⟩ := Option.isSome_iff_exists.mp (h (text.getD []))
  have hsign : P.sign (text.getD []) opts.lineage.privateKey = some signature := hsign
  refine ⟨{ buildReceipt random now opts.lineage with signature := signature }, ?_⟩
  rw [createDecisionLineageReceipt, htext]
  show (match P.sign (text.getD []) opts.lineage.privateKey with
    | some signature => Except.ok { buildReceipt random now opts.lineage with signature := signature }
    | none => Except.error DelegationError.signing) = _
  rw [hsign]

variable {tracker : OrderedMap Str Nat}

variable {call : Call}

theorem checkConsult_ok {used : Nat} (h : checkConsult P tracker call = .ok used) :
    used = getAdvisorUses tracker call.delegationId ∧ reached used call.limit = false := by
  unfold checkConsult at h
  dsimp only at h
  split at h
  · cases h
  obtain ⟨status, -, h⟩ := bind_eq_ok.mp h
  split at h
  · cases h
  split at h
  · cases h
  · rename_i hreached
    cases h
    exact ⟨rfl, Bool.eq_false_iff.mpr hreached⟩

theorem consultAdvisor_cases (h : Signs P tracker call) : (∃ e, consultAdvisor P tracker call = (.error e, tracker)) ∨
    ∃ result, reached (getAdvisorUses tracker call.delegationId) call.limit = false ∧
      consultAdvisor P tracker call =
        (.ok result, tracker.set call.delegationId (getAdvisorUses tracker call.delegationId + 1)) := by
  rw [consultAdvisor]
  cases hcheck : checkConsult P tracker call with
  | error e => exact .inl ⟨e, rfl⟩
  | ok used =>
    obtain ⟨rfl, hreached⟩ := checkConsult_ok hcheck
    have hkey := h (by rw [hcheck]; rfl)
    obtain ⟨receipt, hreceipt⟩ := createDecisionLineageReceipt_ok call.random call.now hkey
    refine .inr ⟨⟨receipt, call.limit.sub (.ofInt (getAdvisorUses tracker call.delegationId + 1))⟩, hreached, ?_⟩
    dsimp only
    rw [hreceipt]
    rfl

theorem getAdvisorUses_set (tracker : OrderedMap Str Nat) (id id' : Str) (used : Nat) :
    getAdvisorUses (tracker.set id used) id' = if id = id' then used else getAdvisorUses tracker id' := by
  rw [getAdvisorUses, OrderedMap.get_set]
  split
  · rfl
  · rfl

theorem uses_step (h : Signs P tracker call) (id : Str) : getAdvisorUses (consultAdvisor P tracker call).2 id =
      getAdvisorUses tracker id + (consultedBy P tracker call).count id := by
  rw [consultedBy]
  obtain ⟨e, hcall⟩ | ⟨result, -, hcall⟩ := consultAdvisor_cases h
  · rw [hcall]
    rfl
  · rw [hcall, getAdvisorUses_set]
    show _ = _ + List.count id [call.delegationId]
    rw [List.count_singleton]
    by_cases hid : call.delegationId = id
    · rw [if_pos hid, ← hid, beq_self_eq_true, if_pos rfl]
    · rw [if_neg hid, beq_false_of_ne hid, if_neg Bool.false_ne_true, Nat.add_zero]

variable {limit : JsNumber}

theorem not_exceeds_succ {used : Nat} (hwhole : WholeLimit limit) (h : reached used limit = false) :
    exceeds (used + 1) limit = false := by
  cases limit with
  | finite d =>
    obtain ⟨n, hn⟩ := hwhole
    have hlt : used < n := by
      have hscaled := of_decide_eq_false h
      rw [hn, not_le] at hscaled
      exact Int.ofNat_lt.mp (lt_of_mul_lt_mul_right hscaled (le_of_lt scaleOne_pos))
    refine decide_eq_false (not_lt.mpr ?_)
    rw [hn]
    exact Int.mul_le_mul_of_nonneg_right (Int.ofNat_le.mpr hlt) (le_of_lt scaleOne_pos)
  | infinite neg => exact hwhole
  | nan => rfl

theorem not_exceeds_zero (hwhole : WholeLimit limit) : exceeds 0 limit = false := by
  cases limit with
  | finite d =>
    obtain ⟨n, hn⟩ := hwhole
    refine decide_eq_false (not_lt.mpr ?_)
    rw [hn]
    exact Int.mul_le_mul_of_nonneg_right (Int.ofNat_le.mpr (Nat.zero_le n)) (le_of_lt scaleOne_pos)
  | infinite neg => exact hwhole
  | nan => rfl

theorem within_step (h : Signs P tracker call) {id : Str} (hwhole : WholeLimit limit)
    (hlimit : call.delegationId = id → call.limit = limit) (hkept : exceeds (getAdvisorUses tracker id) limit = false) :
    exceeds (getAdvisorUses (consultAdvisor P tracker call).2 id) limit = false := by
  obtain ⟨e, hcall⟩ | ⟨result, hreached, hcall⟩ := consultAdvisor_cases h
  · rw [hcall]
    exact hkept
  · rw [hcall, getAdvisorUses_set]
    by_cases hid : call.delegationId = id
    · rw [if_pos hid]
      rw [hlimit hid] at hreached
      exact not_exceeds_succ hwhole hreached
    · rw [if_neg hid]
      exact hkept

theorem run_append (calls : List Call) (call : Call) :
    run P (calls ++ [call]) = (consultAdvisor P (run P calls) call).2 := by
  rw [run, List.foldl_append]
  rfl

theorem consulted_append (calls : List Call) (call : Call) : ∀ tracker : OrderedMap Str Nat,
    consulted P tracker (calls ++ [call]) = consulted P tracker calls ++
      consultedBy P (calls.foldl (fun tracker call => (consultAdvisor P tracker call).2) tracker) call := by
  induction calls with
  | nil =>
    intro tracker
    exact List.append_nil _
  | cons first rest ih =>
    intro tracker
    rw [List.cons_append, consulted, ih, consulted, List.append_assoc]
    rfl

theorem Proper.of_append {calls later : List Call} (h : Proper P (calls ++ later)) : Proper P calls := by
  constructor
  · intro before call after hcalls
    refine h.signs before call (after ++ later) ?_
    rw [hcalls, List.append_assoc, List.cons_append]
  · exact fun call hcall => h.whole call (List.mem_append_left later hcall)
  · intro call hcall call' hcall'
    exact h.oneLimit call (List.mem_append_left later hcall) call' (List.mem_append_left later hcall')

theorem run_uses (calls : List Call) (h : Proper P calls) (id : Str) :
    getAdvisorUses (run P calls) id = (consulted P .empty calls).count id := by
  induction calls using List.reverseRecOn with
  | nil => rfl
  | append_singleton calls call ih =>
    have hsigns := h.signs calls call [] rfl
    rw [run_append, uses_step hsigns, ih h.of_append, consulted_append, List.count_append]
    rfl

theorem run_within (calls : List Call) (h : Proper P calls) {id : Str} (hwhole : WholeLimit limit)
    (hlimit : ∀ call ∈ calls, call.delegationId = id → call.limit = limit) :
    exceeds (getAdvisorUses (run P calls) id) limit = false := by
  induction calls using List.reverseRecOn with
  | nil => exact not_exceeds_zero hwhole
  | append_singleton calls call ih =>
    rw [run_append]
    have hlast := hlimit call (List.mem_append_right _ (List.mem_singleton_self _))
    refine within_step (h.signs calls call [] rfl) hwhole hlast ?_
    exact ih h.of_append (fun call hcall => hlimit call (List.mem_append_left _ hcall))

/-- In a run of calls whose keys sign, with whole limits that are one for each id, every state that is reached counts
exactly the receipts. -/
theorem consultations_counted (P : Primitives) (calls : List Call) (h : Proper P calls) :
    ∀ reached later, calls = reached ++ later → CountedExactly P reached := by
  intro reached later hcalls
  subst hcalls
  have hreached := h.of_append
  constructor
  · exact run_uses reached hreached
  · intro call hcall
    refine run_within reached hreached (hreached.whole call hcall) ?_
    exact fun call' hcall' hid => hreached.oneLimit call' hcall' call hcall hid
  · intro before call after hsplit hfailed
    obtain ⟨e, hcall⟩ | ⟨result, -, hcall⟩ := consultAdvisor_cases (hreached.signs before call after hsplit)
    · rw [hcall]
    · rw [hcall] at hfailed
      cases hfailed

end

def receiptText : Str :=
  lit "\x7b\"contributingSources\":[\x7b\"accessReceiptId\":\"h\",\"compensationStatus\":\"settled\",\"deri" ++
    lit "vationDepth\":0,\"lineageConfidence\":\"complete\",\"sourceId\":\"" ++
    LegacyNarrowing.otherPublicKey ++
    lit "\",\"termsVersionAtAccess\":\"del_1\",\"transformPath\":[]\x7d],\"decisionArtifactId\":\"d\",\"decis" ++
    lit "ionType\":\"trade\",\"externalHopsPresent\":false,\"lineageCompleteness\":\"complete\",\"receiptId\"" ++
    lit ":\"dlr_0\",\"timestamp\":\"2026-01-01T12:00:00.000Z\",\"transformChain\":[]\x7d"

def signer : Primitives :=
  LegacyNarrowing.signing (⟨receiptText, LegacyNarrowing.childPrivateKey, LegacyNarrowing.childPublicKey,
    lit "4b15df2e1246cfeacd8105ac64144669a3acb804c13f5553a3cdb3e6fe89b2c7" ++
      lit "8a76cc486fa6628e9446d7a104b15f2d293540a44dd789ea039f8ff4ac551d03"⟩ :: advisorRecords)

def consult (advisor : Delegation) (privateKey : Str) : Call where
  readings := LegacyNarrowing.atNoon
  random := lit "0"
  now := LegacyNarrowing.noon
  opts := ⟨advisor, lit "trade", lit "d", lit "h", privateKey, none, none, none⟩

theorem consultations_counted_thrice : ∃ root advisor,
    createDelegation signer LegacyNarrowing.noon (lit "0") rootOptions = .ok root ∧
    subDelegateAdvisor signer LegacyNarrowing.atNoon (lit "1") (advisorOptions root wideWindow) = .ok advisor ∧
    CountedExactly signer (List.replicate 3 (consult advisor LegacyNarrowing.childPrivateKey)) := by
  obtain ⟨root, advisor, hroot, hadvisor, hlimit⟩ := mintAdvisor_ok wideWindow (fun p => p.2.spendLimit)
    (show (mintAdvisor signer wideWindow).toOption.map _ = some (some (.ofInt 2)) by decide +kernel)
  have hlimit : advisor.spendLimit = some (.ofInt 2) := hlimit
  refine ⟨root, advisor, hroot, hadvisor, consultations_counted _ _ ⟨?_, ?_, ?_⟩ _ [] (List.append_nil _).symm⟩
  · intro before call after hcalls hcheck message
    have hcall : call ∈ List.replicate 3 (consult advisor LegacyNarrowing.childPrivateKey) := by
      rw [hcalls]
      exact List.mem_append_right _ List.mem_cons_self
    cases List.eq_of_mem_replicate hcall
    rw [signer, LegacyNarrowing.signing, Option.isSome_ite]
    exact (by decide : (LegacyNarrowing.childPrivateKey.length = 64 && LegacyNarrowing.childPrivateKey.all isHex) = true)
  · intro call hcall
    cases List.eq_of_mem_replicate hcall
    obtain ⟨d, hd, hscaled⟩ := ofInt_exact (n := 2) (by decide)
    have htwo : (consult advisor LegacyNarrowing.childPrivateKey).limit = .finite d := by
      rw [Call.limit, consult, hlimit, Option.getD_some]
      exact hd
    rw [htwo]
    exact ⟨2, hscaled⟩
  · intro call hcall call' hcall' hid
    rw [List.eq_of_mem_replicate hcall, List.eq_of_mem_replicate hcall']

/-- A consultation under a key that does not sign fails and is counted. -/
theorem failed_consultation_counted : ∃ root advisor,
    createDelegation signer LegacyNarrowing.noon (lit "0") rootOptions = .ok root ∧
    subDelegateAdvisor signer LegacyNarrowing.atNoon (lit "1") (advisorOptions root wideWindow) = .ok advisor ∧
    ¬ CountedExactly signer [consult advisor []] := by
  obtain ⟨root, advisor, hroot, hadvisor, hcounted⟩ := mintAdvisor_ok wideWindow
    (fun p => ((consultAdvisor signer .empty (consult p.2 [])).1.isOk,
      getAdvisorUses (consultAdvisor signer .empty (consult p.2 [])).2 p.2.delegationId))
    (show (mintAdvisor signer wideWindow).toOption.map _ = some (false, 1) by decide +kernel)
  refine ⟨root, advisor, hroot, hadvisor, ?_⟩
  intro hexact
  obtain ⟨hfailed, huses⟩ := Prod.mk.inj hcounted
  have hsame := hexact.thrown [] (consult advisor []) [] rfl hfailed
  have hsame : (consultAdvisor signer .empty (consult advisor [])).2 = .empty := hsame
  rw [hsame] at huses
  cases huses

end AgentPassport.AdvisorUses
