import AgentPassport.AdvisorDelegation

/-! The trace of a legacy receipt to its principal (`core/attribution.ts`). Whether a hop is authentic is judged
over all delegations of its key pair; which of them is reported is chosen apart from that. -/
namespace AgentPassport.TraceBeneficiary
open JsText Js LegacyCanonical LegacyDelegation Outcome
open LegacyNarrowing (signing rootRecord rootPublicKey childPrivateKey childPublicKey atNoon)
open AdvisorDelegation (rootSignature)

/-- `members` are those that are signed and not read here. -/
structure ActionReceipt where
  receiptId : Str
  version : Str
  agentId : Str
  delegationId : Str
  delegationChain : Option (List Str)
  signature : Str
  members : List (Str × JsValue)

structure BeneficiaryInfo where
  principalId : Str

/-- The hop from `fromKey` to `toKey`. -/
structure DelegationHop where
  fromKey : Str
  toKey : Str
  delegationId : Str
  scope : List Str
  depth : Nat

structure BeneficiaryTrace where
  traceId : Str
  receiptId : Str
  executorAgent : Str
  beneficiary : Option Str
  chain : List DelegationHop
  totalDepth : Nat
  resolved : Bool
  verified : Bool

/-- One check of a delegation: the hop, and the place of the delegation among the matches of the hop. -/
structure Call where
  hop : Nat
  place : Nat

/-- What the resolver returns; none when it throws. It may answer each call differently. -/
abbrev Resolver := Call → Delegation → Option JsValue

structure AttributionRevocationOptions where
  revocationCheckPolicy : Option RevocationCheckPolicy
  cacheGraceMs : Option JsNumber
  resolveRevocation : Option Resolver

def resolveEvidence (revocation : Option AttributionRevocationOptions) (call : Call) (delegation : Delegation) :
    Option CachedRevocationState :=
  match revocation.bind (·.resolveRevocation) with
  | none => none
  | some resolve =>
    match resolve call delegation with
    | none => none
    | some raw =>
      if !raw.isObject then none
      else match raw.get (lit "revoked"), raw.get (lit "checkedAt") with
        | .bool revoked, .str checkedAt => some ⟨revoked, checkedAt⟩
        | _, _ => none

def checkOptions (revocation : Option AttributionRevocationOptions) (call : Call) (delegation : Delegation) :
    RevocationCheckOptions where
  revocationCheckPolicy := revocation.bind (·.revocationCheckPolicy)
  cachedRevocationState := resolveEvidence revocation call delegation
  cacheGraceMs := revocation.bind (·.cacheGraceMs)

structure Match where
  del : Delegation
  valid : Bool

/-- The order of the report: valid first, then by `delegationId`. -/
def orderedBefore (a b : Match) : Bool :=
  if a.valid ≠ b.valid then a.valid else a.del.delegationId ≤ b.del.delegationId

def ordered (found : List Match) : List Match := found.insertionSort (fun a b => orderedBefore a b = true)

/-- At the tail the delegation the receipt was issued under goes first. -/
def choose (isTail : Bool) (delegationId : Str) (found : List Match) : Option Match :=
  (if isTail then (ordered found).find? (fun m => m.del.delegationId = delegationId) else none).or (ordered found).head?

def orUnknown (text : Str) : Str := if text = [] then lit "unknown" else text

section
variable (P : Primitives) (clock : Call → Readings) (revocation : Option AttributionRevocationOptions)

def check (call : Call) (d : Delegation) : Except DelegationError Match := do
  let status ← verifyDelegation P (clock call) d (some (checkOptions revocation call d))
  return ⟨d, status.valid⟩

def pairDelegations (delegations : List Delegation) (fromKey toKey : Str) : List Delegation :=
  delegations.filter (fun d => d.delegatedBy = fromKey ∧ d.delegatedTo = toKey)

def hopMatches (delegations : List Delegation) (i : Nat) (fromKey toKey : Str) :
    Except DelegationError (List Match) :=
  (pairDelegations delegations fromKey toKey).zipIdx.mapM (fun (d, place) => check P clock revocation ⟨i, place⟩ d)

/-- One turn of the walk: the hop reported, and whether some delegation of the pair is valid. -/
def walkHop (delegations : List Delegation) (keyChain : List Str) (receiptDelegationId : Str) (i : Nat) :
    Except DelegationError (DelegationHop × Bool) := do
  let fromKey := keyChain.getD i []
  let toKey := keyChain.getD (i + 1) []
  let found ← hopMatches P clock revocation delegations i fromKey toKey
  let chosen := choose (i + 2 = keyChain.length) receiptDelegationId found
  return (
    { fromKey
      toKey
      delegationId := orUnknown ((chosen.map (·.del.delegationId)).getD [])
      scope := (chosen.map (·.del.scope)).getD []
      depth := i },
    found.any (·.valid))

def unsignedReceipt (receipt : ActionReceipt) : JsValue :=
  .obj ([(lit "receiptId", .str receipt.receiptId), (lit "version", .str receipt.version),
    (lit "agentId", .str receipt.agentId), (lit "delegationId", .str receipt.delegationId),
    (lit "delegationChain", (receipt.delegationChain.map (fun keys => JsValue.arr (keys.map .str))).getD .undefined)] ++
    receipt.members)

structure ReceiptCheck where
  valid : Bool
  errors : List Str

def verifyReceipt (receipt : ActionReceipt) (agentPublicKey : Str) : Except DelegationError ReceiptCheck := do
  let canonical ← canonicalText (canonicalize P.numText (unsignedReceipt receipt))
  let errors :=
    (if P.verify canonical receipt.signature agentPublicKey then [] else [lit "Invalid receipt signature"]) ++
      if receipt.version ≠ lit "1.1" then [lit "Unsupported receipt version"] else []
  return ⟨errors.length = 0, errors⟩

def isReceiptAuthentic (receipt : ActionReceipt) (keyChain : List Str) : Except DelegationError Bool :=
  match keyChain.getLast? with
  | none => return false
  | some executorKey => return (← verifyReceipt P receipt executorKey).valid

/-- `uuid` is the random text of the trace id, and the map is read by `get`. -/
def traceBeneficiary (uuid : Str) (receipt : ActionReceipt) (delegations : List Delegation)
    (beneficiaryMap : Str → Option BeneficiaryInfo) : Except DelegationError BeneficiaryTrace := do
  let keyChain := receipt.delegationChain.getD []
  let hops ← (List.range (keyChain.length - 1)).mapM
    (walkHop P clock revocation delegations keyChain receipt.delegationId)
  let chain := hops.map (·.1)
  let everyHopAuthentic := hops.all (·.2)
  let principalKey := keyChain.head?
  let beneficiary := principalKey.bind beneficiaryMap
  let resolved := beneficiary.isSome && decide (1 < keyChain.length) &&
    chain.all (fun h => h.delegationId ≠ lit "unknown")
  let receiptAuthentic ← isReceiptAuthentic P receipt keyChain
  return {
    traceId := lit "trace_" ++ uuid.take 12
    receiptId := receipt.receiptId
    executorAgent := receipt.agentId
    beneficiary := ((beneficiary.map (·.principalId)).filter (· ≠ [])).or principalKey
    chain
    totalDepth := chain.length
    resolved
    verified := decide (1 < keyChain.length) && receiptAuthentic && everyHopAuthentic }

end

theorem orderedBefore_total (a b : Match) : orderedBefore a b = true ∨ orderedBefore b a = true := by
  simp only [orderedBefore]
  cases ha : a.valid <;> cases hb : b.valid <;> simp [List.le_total]

theorem orderedBefore_trans {a b c : Match} (hab : orderedBefore a b = true) (hbc : orderedBefore b c = true) :
    orderedBefore a c = true := by
  simp only [orderedBefore] at *
  cases ha : a.valid <;> cases hb : b.valid <;> cases hc : c.valid <;> simp_all
  · exact List.le_trans hab hbc
  · exact List.le_trans hab hbc

theorem ordered_pairwise (found : List Match) :
    (ordered found).Pairwise (fun a b => b.valid = true → a.valid = true) := by
  have : Std.Total (fun a b : Match => orderedBefore a b = true) := ⟨orderedBefore_total⟩
  have : IsTrans Match (fun a b => orderedBefore a b = true) := ⟨fun _ _ _ => orderedBefore_trans⟩
  refine (List.pairwise_insertionSort (fun a b : Match => orderedBefore a b = true) found).imp ?_
  intro a b hab hb
  rw [orderedBefore, hb] at hab
  by_contra ha
  simp [ha] at hab

variable {found : List Match}

variable {m : Match}

theorem mem_ordered : m ∈ ordered found ↔ m ∈ found := List.mem_insertionSort _

theorem first_valid {p : Match → Bool} (h : (ordered found).find? p = some m) {v : Match} (hv : v ∈ found)
    (hp : p v = true) (hvalid : v.valid = true) : m.valid = true := by
  obtain ⟨-, front, back, heq, hfront⟩ := List.find?_eq_some_iff_append.mp h
  have hpairs := ordered_pairwise found
  have hmem := mem_ordered.mpr hv
  rw [heq] at hpairs hmem
  obtain hv | hv := List.mem_append.mp hmem
  · have hnot := hfront v hv
    rw [hp] at hnot
    cases hnot
  · obtain rfl | hv := List.mem_cons.mp hv
    · exact hvalid
    · exact List.rel_of_pairwise_cons (List.pairwise_append.mp hpairs).2.1 hv hvalid

/-- What the choice for a hop comes to. -/
structure Chosen (isTail : Bool) (delegationId : Str) (found : List Match) (m : Match) : Prop where
  mem : m ∈ found
  valid : m.valid = true ∨ (isTail = true ∧ m.del.delegationId = delegationId) ∨ ∀ v ∈ found, v.valid = false
  own : isTail = true → (∃ v ∈ found, v.del.delegationId = delegationId) → m.del.delegationId = delegationId ∧
    ((∃ v ∈ found, v.del.delegationId = delegationId ∧ v.valid = true) → m.valid = true)

theorem choose_head {isTail : Bool} {delegationId : Str}
    (hown : isTail = true → ∀ v ∈ found, v.del.delegationId ≠ delegationId) (h : (ordered found).head? = some m) :
    Chosen isTail delegationId found m := by
  have hfind : (ordered found).find? (fun _ => true) = some m := by
    rw [← h]
    cases ordered found <;> rfl
  refine ⟨mem_ordered.mp (List.mem_of_mem_head? h), ?_, fun htail ⟨v, hv, hid⟩ => absurd hid (hown htail v hv)⟩
  by_cases hany : ∃ v ∈ found, v.valid = true
  · obtain ⟨v, hv, hvalid⟩ := hany
    exact .inl (first_valid hfind hv rfl hvalid)
  · push Not at hany
    exact .inr (.inr fun v hv => Bool.eq_false_iff.mpr (hany v hv))

theorem choose_chosen (isTail : Bool) (delegationId : Str) (hne : found ≠ []) :
    ∃ m, choose isTail delegationId found = some m ∧ Chosen isTail delegationId found m := by
  obtain ⟨first, hfirst⟩ : ∃ first, (ordered found).head? = some first := by
    obtain ⟨v, hv⟩ := List.exists_mem_of_ne_nil _ hne
    cases hsorted : ordered found with
    | nil =>
      rw [← mem_ordered, hsorted] at hv
      cases hv
    | cons first rest => exact ⟨first, rfl⟩
  rw [choose]
  cases isTail with
  | false => exact ⟨first, hfirst, choose_head (fun h => by cases h) hfirst⟩
  | true =>
    rw [if_pos rfl]
    cases hfind : (ordered found).find? (fun m => decide (m.del.delegationId = delegationId)) with
    | none =>
      refine ⟨first, hfirst, choose_head (fun _ v hv hid => ?_) hfirst⟩
      have hnot := List.find?_eq_none.mp hfind v (mem_ordered.mpr hv)
      exact hnot (decide_eq_true hid)
    | some m =>
      have hid : m.del.delegationId = delegationId := by simpa using List.find?_some hfind
      refine ⟨m, rfl, mem_ordered.mp (List.mem_of_find?_eq_some hfind), .inr (.inl ⟨rfl, hid⟩), fun _ _ => ⟨hid, ?_⟩⟩
      rintro ⟨v, hv, hvid, hvalid⟩
      exact first_valid hfind hv (decide_eq_true hvid) hvalid

section
variable {α β : Type} {R : α → β → Prop} {l : List α} {ys : List β}

theorem forall₂_getElem? (h : List.Forall₂ R l ys) {i : Nat} {x : α} (hx : l[i]? = some x) :
    ∃ y, ys[i]? = some y ∧ R x y := by
  induction h generalizing i with
  | nil => cases hx
  | @cons a b rest others hab _ ih =>
    cases i with
    | zero =>
      obtain rfl := Option.some.inj hx
      exact ⟨b, rfl, hab⟩
    | succ i => exact ih hx

theorem forall₂_getElem?_right (h : List.Forall₂ R l ys) {i : Nat} {y : β} (hy : ys[i]? = some y) :
    ∃ x, l[i]? = some x ∧ R x y := by
  obtain ⟨x, hx, hR⟩ := forall₂_getElem? h.flip hy
  exact ⟨x, hx, hR⟩

end

section
variable {P : Primitives} {clock : Call → Readings} {revocation : Option AttributionRevocationOptions}

def Passes (P : Primitives) (clock : Call → Readings) (revocation : Option AttributionRevocationOptions) (call : Call)
    (d : Delegation) : Prop :=
  ∃ status, verifyDelegation P (clock call) d (some (checkOptions revocation call d)) = .ok status ∧
    status.valid = true

theorem check_ok {call : Call} {d : Delegation} (h : check P clock revocation call d = .ok m) :
    m.del = d ∧ (m.valid = true ↔ Passes P clock revocation call d) := by
  obtain ⟨status, hstatus, h⟩ := bind_eq_ok.mp h
  cases h
  refine ⟨rfl, fun hvalid => ⟨status, hstatus, hvalid⟩, ?_⟩
  rintro ⟨status', hstatus', hvalid⟩
  cases hstatus.symm.trans hstatus'
  exact hvalid

theorem hopMatches_ok {delegations : List Delegation} {i : Nat} {fromKey toKey : Str}
    (h : hopMatches P clock revocation delegations i fromKey toKey = .ok found) :
    (∀ m ∈ found, ∃ place, (pairDelegations delegations fromKey toKey)[place]? = some m.del ∧
      (m.valid = true ↔ Passes P clock revocation ⟨i, place⟩ m.del)) ∧
    ∀ (place : Nat) (d : Delegation), (pairDelegations delegations fromKey toKey)[place]? = some d →
      ∃ m ∈ found, m.del = d ∧ (m.valid = true ↔ Passes P clock revocation ⟨i, place⟩ d) := by
  have hall := mapM_forall₂.mp h
  constructor
  · intro m hm
    obtain ⟨place, hplace⟩ := List.mem_iff_getElem?.mp hm
    obtain ⟨⟨d, k⟩, hd, hcheck⟩ := forall₂_getElem?_right hall hplace
    rw [List.getElem?_zipIdx, Option.map_eq_some_iff] at hd
    obtain ⟨d', hd', heq⟩ := hd
    cases heq
    obtain ⟨rfl, hvalid⟩ := check_ok hcheck
    rw [Nat.zero_add] at hvalid
    exact ⟨place, hd', hvalid⟩
  · intro place d hd
    have hindexed : (pairDelegations delegations fromKey toKey).zipIdx[place]? = some (d, place) := by
      rw [List.getElem?_zipIdx, hd, Option.map_some, Nat.zero_add]
    obtain ⟨m, hm, hcheck⟩ := forall₂_getElem? hall hindexed
    obtain ⟨hdel, hvalid⟩ := check_ok hcheck
    exact ⟨m, List.mem_of_getElem? hm, hdel, hvalid⟩

/-- The hop reports this delegation of its pair, and why. -/
structure Reported (P : Primitives) (clock : Call → Readings) (revocation : Option AttributionRevocationOptions)
    (delegations : List Delegation) (receiptDelegationId : Str) (isTail : Prop) (i : Nat) (hop : DelegationHop)
    (place : Nat) (d : Delegation) : Prop where
  candidate : (pairDelegations delegations hop.fromKey hop.toKey)[place]? = some d
  delegationId : hop.delegationId = orUnknown d.delegationId
  scope : hop.scope = d.scope
  passes : Passes P clock revocation ⟨i, place⟩ d ∨ (isTail ∧ d.delegationId = receiptDelegationId)
  own : isTail → (∃ e ∈ pairDelegations delegations hop.fromKey hop.toKey, e.delegationId = receiptDelegationId) →
    d.delegationId = receiptDelegationId ∧
      ((∃ (other : Nat) (e : Delegation), (pairDelegations delegations hop.fromKey hop.toKey)[other]? = some e ∧
        e.delegationId = receiptDelegationId ∧ Passes P clock revocation ⟨i, other⟩ e) →
          Passes P clock revocation ⟨i, place⟩ d)

theorem walkHop_ok {delegations : List Delegation} {keyChain : List Str} {receiptDelegationId : Str} {i : Nat}
    {hop : DelegationHop} (h : walkHop P clock revocation delegations keyChain receiptDelegationId i = .ok (hop, true)) :
    hop.fromKey = keyChain.getD i [] ∧ hop.toKey = keyChain.getD (i + 1) [] ∧
    (∃ (place : Nat) (e : Delegation), (pairDelegations delegations hop.fromKey hop.toKey)[place]? = some e ∧
      Passes P clock revocation ⟨i, place⟩ e) ∧
    ∃ place d, Reported P clock revocation delegations receiptDelegationId (i + 2 = keyChain.length) i hop place d := by
  obtain ⟨found, hfound, h⟩ := bind_eq_ok.mp h
  obtain ⟨hback, hforth⟩ := hopMatches_ok hfound
  obtain ⟨rfl, hany⟩ := Prod.mk.inj (Except.ok.inj h)
  obtain ⟨v, hv, hvalid⟩ := List.any_eq_true.mp hany
  obtain ⟨vplace, hvplace, hvpasses⟩ := hback v hv
  obtain ⟨m, hchoose, hchosen⟩ := choose_chosen (decide (i + 2 = keyChain.length)) receiptDelegationId
    (List.ne_nil_of_mem hv)
  obtain ⟨place, hplace, hpasses⟩ := hback m hchosen.mem
  refine ⟨rfl, rfl, ⟨vplace, v.del, hvplace, hvpasses.mp hvalid⟩, place, m.del, hplace, ?_, ?_, ?_, ?_⟩
  · rw [hchoose]
    rfl
  · rw [hchoose]
    rfl
  · obtain hm | ⟨htail, hid⟩ | hnone := hchosen.valid
    · exact .inl (hpasses.mp hm)
    · exact .inr ⟨of_decide_eq_true htail, hid⟩
    · rw [hnone v hv] at hvalid
      cases hvalid
  · rintro htail ⟨e, he, hid⟩
    obtain ⟨eplace, heplace⟩ := List.mem_iff_getElem?.mp he
    obtain ⟨w, hw, rfl, -⟩ := hforth eplace e heplace
    obtain ⟨hown, hownValid⟩ := hchosen.own (decide_eq_true htail) ⟨w, hw, hid⟩
    refine ⟨hown, ?_⟩
    rintro ⟨other, e, hother, heid, hepasses⟩
    obtain ⟨u, hu, rfl, huvalid⟩ := hforth other e hother
    exact hpasses.mp (hownValid ⟨u, hu, heid, huvalid.mpr hepasses⟩)

/-- In a verified trace every hop reports a delegation that passes, except that the last hop reports the one the
receipt was issued under wherever it is among the matches. -/
theorem verified_trace_reports {uuid : Str} {receipt : ActionReceipt} {delegations : List Delegation}
    {beneficiaryMap : Str → Option BeneficiaryInfo} {trace : BeneficiaryTrace}
    (h : traceBeneficiary P clock revocation uuid receipt delegations beneficiaryMap = .ok trace)
    (hverified : trace.verified = true) :
    trace.chain ≠ [] ∧ trace.chain.length + 1 = (receipt.delegationChain.getD []).length ∧
    ∀ (i : Nat) (hop : DelegationHop), trace.chain[i]? = some hop →
      (receipt.delegationChain.getD [])[i]? = some hop.fromKey ∧
      (receipt.delegationChain.getD [])[i + 1]? = some hop.toKey ∧
      (∃ (place : Nat) (e : Delegation), (pairDelegations delegations hop.fromKey hop.toKey)[place]? = some e ∧
        Passes P clock revocation ⟨i, place⟩ e) ∧
      ∃ place d, Reported P clock revocation delegations receipt.delegationId (i + 1 = trace.chain.length) i hop
        place d := by
  obtain ⟨hops, hhops, h⟩ := bind_eq_ok.mp h
  obtain ⟨authentic, -, h⟩ := bind_eq_ok.mp h
  cases h
  generalize receipt.delegationChain.getD [] = keyChain at hhops hverified ⊢
  have hall := mapM_forall₂.mp hhops
  have hlength := hall.length_eq
  rw [List.length_range] at hlength
  simp only [Bool.and_eq_true, decide_eq_true_eq, List.all_eq_true] at hverified
  obtain ⟨⟨hlong, -⟩, hauthentic⟩ := hverified
  dsimp only
  have hchain : (hops.map (·.1)).length + 1 = keyChain.length := by
    rw [List.length_map]
    omega
  refine ⟨?_, hchain, ?_⟩
  · intro hnil
    rw [hnil] at hchain
    rw [← hchain] at hlong
    exact absurd hlong (by decide)
  · intro i hop hhop
    rw [List.getElem?_map, Option.map_eq_some_iff] at hhop
    obtain ⟨⟨hop, valid⟩, hpair, rfl⟩ := hhop
    obtain ⟨j, hj, hwalk⟩ := forall₂_getElem?_right hall hpair
    obtain ⟨hlt, rfl⟩ := List.getElem?_eq_some_iff.mp hj
    rw [List.length_range] at hlt
    rw [List.getElem_range] at hwalk
    obtain rfl : valid = true := hauthentic _ (List.mem_of_getElem? hpair)
    obtain ⟨hfrom, hto, hpasses, place, d, hreported⟩ := walkHop_ok hwalk
    have hkey : ∀ k < keyChain.length, keyChain[k]? = some (keyChain.getD k []) := by
      intro k hk
      rw [List.getD_eq_getElem?_getD, List.getElem?_eq_getElem hk, Option.getD_some]
    have htail : (i + 2 = keyChain.length) = (i + 1 = (hops.map (·.1)).length) := propext (by omega)
    refine ⟨hfrom ▸ hkey i (by omega), hto ▸ hkey (i + 1) (by omega), hpasses, place, d, ?_⟩
    rw [← htail]
    exact hreported

end

def receiptText : Str :=
  lit "\x7b\"agentId\":\"" ++ childPublicKey ++ lit "\",\"delegationChain\":[\"" ++ rootPublicKey ++ lit "\",\"" ++
    childPublicKey ++ lit "\"],\"delegationId\":\"f\",\"receiptId\":\"r\",\"version\":\"1.1\"\x7d"

def receiptSignature : Str :=
  lit "ec7b494fcb03a76e74d8f13ba9f901f7f025e907bedff0d5f1cea6186e8134fa" ++
    lit "a433fb9b873e1490c5752db3390d058ce187879e7758b04e6bb454dfe563da04"

def samplePrimitives : Primitives :=
  signing [rootRecord [] (lit "\"x\"]") rootSignature,
    ⟨receiptText, childPrivateKey, childPublicKey, receiptSignature⟩]

def sampleDelegation (delegationId signature : Str) : Delegation where
  delegationId := delegationId
  delegatedTo := childPublicKey
  delegatedBy := rootPublicKey
  scope := [lit "x"]
  scopeInterpretation := none
  expiresAt := lit "2026-01-02T12:00:00.000Z"
  spendLimit := none
  spentAmount := some (.ofInt 0)
  spendLimitUnit := none
  maxDepth := .ofInt 3
  currentDepth := .ofInt 0
  createdAt := lit "2026-01-01T12:00:00.000Z"
  notBefore := some (lit "2026-01-01T12:00:00.000Z")
  derivation_rights := none
  observation_policy := none
  credentialCheckPolicy := none
  signature := signature

def sampleReceipt : ActionReceipt where
  receiptId := lit "r"
  version := lit "1.1"
  agentId := childPublicKey
  delegationId := lit "f"
  delegationChain := some [rootPublicKey, childPublicKey]
  signature := receiptSignature
  members := []

def sampleClock : Call → Readings := fun _ => atNoon

def sampleDelegations : List Delegation :=
  [sampleDelegation (lit "f") [], sampleDelegation (lit "del_0") rootSignature]

theorem sample_trace :
    (traceBeneficiary samplePrimitives sampleClock none [] sampleReceipt sampleDelegations (fun _ => none)).toOption.map
      (fun trace => (trace.verified, trace.chain.map (·.delegationId))) = some (true, [lit "f"]) := by
  decide +kernel

theorem verified_trace_reports_forged : ∃ trace,
    traceBeneficiary samplePrimitives sampleClock none [] sampleReceipt sampleDelegations (fun _ => none) = .ok trace ∧
    trace.verified = true ∧ trace.chain.length + 1 = 2 ∧ ∀ (i : Nat) (hop : DelegationHop), trace.chain[i]? = some hop →
      ∃ place d, Reported samplePrimitives sampleClock none sampleDelegations (lit "f") (i + 1 = trace.chain.length)
        i hop place d := by
  obtain ⟨trace, h, hshape⟩ := exists_ok_of_map sample_trace
  obtain ⟨hverified, -⟩ := Prod.mk.inj hshape
  obtain ⟨-, hlength, hall⟩ := verified_trace_reports h hverified
  exact ⟨trace, h, hverified, hlength, fun i hop hhop => (hall i hop hhop).2.2.2⟩

/-- The trace is verified through the signed delegation, and reports the one that no check passes. -/
theorem verified_trace_with_forged_tail : ∃ trace,
    traceBeneficiary samplePrimitives sampleClock none [] sampleReceipt sampleDelegations (fun _ => none) = .ok trace ∧
    trace.verified = true ∧ ∃ hop ∈ trace.chain, hop.delegationId = lit "f" ∧
      ∀ d ∈ sampleDelegations, d.delegationId = hop.delegationId →
        ∀ call, ¬ Passes samplePrimitives sampleClock none call d := by
  obtain ⟨trace, h, hshape⟩ := exists_ok_of_map sample_trace
  obtain ⟨hverified, hchain⟩ := Prod.mk.inj hshape
  obtain ⟨hop, hhop, hid⟩ := List.mem_map.mp (hchain ▸ List.mem_singleton_self (lit "f"))
  refine ⟨trace, h, hverified, hop, hhop, hid, ?_⟩
  intro d hd hdid call hpasses
  obtain rfl : d = sampleDelegation (lit "f") [] := by
    obtain rfl | hd := List.mem_cons.mp hd
    · rfl
    · rw [List.mem_singleton.mp hd, hid] at hdid
      exact absurd hdid (by decide)
  have hrefused : (verifyDelegation samplePrimitives (sampleClock call) (sampleDelegation (lit "f") [])
      (some ⟨none, none, none⟩)).toOption.map (·.valid) = some false := by
    rw [sampleClock]
    decide +kernel
  obtain ⟨status, hstatus, hinvalid⟩ := exists_ok_of_map hrefused
  obtain ⟨status', hstatus', hvalid⟩ := hpasses
  cases hstatus.symm.trans hstatus'
  rw [hvalid] at hinvalid
  cases hinvalid

end AgentPassport.TraceBeneficiary
