import AgentPassport.ChainSelection

/-! A selection decides on one chain: which one it is, that no other was read where no switch is
authorized, and that the ledger holds at most one reservation more, on that chain. -/
namespace AgentPassport.ChainSelection
open JsText Js CanonicalJcs PlainData DelegationScope DelegationSchema DelegationVerify DelegationChain
open DelegationIssue DelegationJson BudgetLedger Outcome
open CanonicalInjective (canonicalizeJCS_ok isJson_omit)

theorem dataMembers_plain (items : List JsValue) : dataMembers (plainItems items) = some (items.map plain) := by
  induction items with
  | nil => rfl
  | cons v rest ih =>
    rw [plainItems, dataMembers, ih]
    rfl

theorem plainItems_length (items : List JsValue) : (plainItems items).length = items.length := by
  induction items with
  | nil => rfl
  | cons v rest ih => rw [plainItems, List.length_cons, List.length_cons, ih]

/-- What the container of the snapshots holds. -/
def copies (members : List CallerValue) : List CallerValue := (members.map snapshotPlainData).map plain

variable {members : List CallerValue} {raw : CallerValue}

theorem readContainer_records (h : readPlainDataChainContainer 1 256 raw = .ok members) :
    readPlainDataChainContainer 1 256 (plain (.arr (members.map snapshotPlainData))) = .ok (copies members) := by
  obtain ⟨slots, -, hmin, hmax, hmembers⟩ := readContainer_ok.mp h
  have hlen := dataMembers_length hmembers
  refine readContainer_ok.mpr ⟨plainItems (members.map snapshotPlainData), by rw [plain], ?_, ?_, dataMembers_plain _⟩
  · rw [plainItems_length, List.length_map, hlen]
    exact hmin
  · rw [plainItems_length, List.length_map, hlen]
    exact hmax

theorem copies_snapshot (members : List CallerValue) :
    (copies members).map snapshotPlainData = members.map snapshotPlainData := by
  rw [copies, List.map_map, List.map_map]
  apply List.map_congr_left
  intro v _
  exact snapshot_idem v

theorem shapeAll_congr {members members' : List CallerValue} :
    members.map snapshotPlainData = members'.map snapshotPlainData → ∀ i, shapeAll i members = shapeAll i members' := by
  induction members generalizing members' with
  | nil =>
    intro h i
    rw [List.map_nil, eq_comm, List.map_eq_nil_iff] at h
    rw [h]
  | cons v rest ih =>
    intro h i
    cases members' with
    | nil => cases h
    | cons v' rest' =>
      obtain ⟨hv, hrest⟩ := List.cons.inj h
      rw [shapeAll, shapeAll, ih hrest]
      simp only [hv]

theorem admitChain_congr {P : Primitives} {members members' : List CallerValue} :
    members.map snapshotPlainData = members'.map snapshotPlainData →
      ∀ seen parent, admitChain P seen parent members = admitChain P seen parent members' := by
  induction members generalizing members' with
  | nil =>
    intro h seen parent
    rw [List.map_nil, eq_comm, List.map_eq_nil_iff] at h
    rw [h]
  | cons v rest ih =>
    intro h seen parent
    cases members' with
    | nil => cases h
    | cons v' rest' =>
      obtain ⟨hv, hrest⟩ := List.cons.inj h
      rw [admitChain, admitChain]
      generalize snapshotPlainData v = snapshot at hv ⊢
      subst hv
      simp only [ih hrest]

section
variable {P : Primitives} {options : AuthorityChainVerificationOptions}

theorem verify_records (h : readPlainDataChainContainer 1 256 raw = .ok members) :
    verifyAuthorityDelegationChain P options (plain (.arr (members.map snapshotPlainData))) =
      verifyAuthorityDelegationChain P options raw := by
  unfold verifyAuthorityDelegationChain
  rw [h, readContainer_records h]
  simp only [shapeAll_congr (copies_snapshot members) 0]

variable {spend : RequiredSpend}

variable {L : Ledger}

theorem reserve_records (h : readPlainDataChainContainer 1 256 raw = .ok members) :
    reserveSpend P L (plain (.arr (members.map snapshotPlainData))) spend = reserveSpend P L raw spend := by
  unfold reserveSpend reserve reserveChecks
  rw [h, readContainer_records h]
  simp only [admitChain_congr (copies_snapshot members)]

def leafGrants (chain : CallerValue) : Option (List Str) :=
  match readPlainDataChainContainer 1 256 chain with
  | .ok members =>
    ((members.map snapshotPlainData).getLast?.bind readDelegation).map (fun leaf => leaf.authority.scope.grants)
  | .error _ => none

/-- The verifier accepts the chain, and the grants of its own leaf cover everything needed. -/
structure Eligible (P : Primitives) (options : AuthorityChainVerificationOptions) (needed : List Str)
    (chain : CallerValue) : Prop where
  valid : Valid P options chain
  covers : ∃ grants, leafGrants chain = some grants ∧
    ∀ want ∈ needed, ∃ grant ∈ grants, scopeGrantCovers grant want = true

theorem coversAll_iff {grants needed : List Str} : coversAll grants needed = true ↔
    ∀ want ∈ needed, ∃ grant ∈ grants, scopeGrantCovers grant want = true := by
  simp only [coversAll, List.all_eq_true, List.any_eq_true]

theorem mem_tail_of_isChain {α : Type} {R : α → α → Prop} {l : List α} (h : l.IsChain R) :
    ∀ x ∈ l.tail, ∃ y, R y x := by
  induction l with
  | nil =>
    intro x hx
    cases hx
  | cons a rest ih =>
    cases rest with
    | nil =>
      intro x hx
      cases hx
    | cons b rest =>
      rw [List.isChain_cons_cons] at h
      exact List.forall_mem_cons.mpr ⟨⟨a, h.1⟩, ih h.2⟩

theorem isRoot_shaped (r : ShapedRecord) (h : isRoot r.value = true) : r.delegation.parentDelegationId = none := by
  obtain ⟨top, htop, -⟩ := shaped_obj r
  have hfields := (delegation_fields r htop).1
  rw [htop, isRoot] at h
  split at h
  · rename_i hnull
    rw [hnull] at hfields
    exact (Option.some.inj hfields).symm
  · cases h

theorem valid_not_set (h : readPlainDataChainContainer 1 256 raw = .ok members) (hvalid : Valid P options raw) :
    (members.map snapshotPlainData).tail.any isRoot = false := by
  obtain ⟨members', now, chain, hmembers, -, -, hchain, haccepted⟩ := (verify_valid_iff raw).mp hvalid
  rw [h] at hmembers
  cases hmembers
  rw [← hchain, List.any_eq_false]
  intro v hv
  rw [← List.map_tail] at hv
  obtain ⟨r, hr, rfl⟩ := List.mem_map.mp hv
  intro hroot
  obtain ⟨parent, hparent⟩ := mem_tail_of_isChain haccepted.linked r hr
  rw [isRoot_shaped r hroot] at hparent
  cases hparent

theorem valid_leaf (h : readPlainDataChainContainer 1 256 raw = .ok members) (hvalid : Valid P options raw) :
    ∃ leaf, (members.map snapshotPlainData).getLast?.bind readDelegation = some leaf := by
  obtain ⟨slots, -, hmin, -, hdata⟩ := readContainer_ok.mp h
  obtain ⟨members', now, chain, hmembers, -, -, hchain, -⟩ := (verify_valid_iff raw).mp hvalid
  rw [h] at hmembers
  cases hmembers
  have hne : chain ≠ [] := by
    intro hnil
    have hlen := congrArg List.length hchain
    rw [hnil, List.length_map, List.length_map, dataMembers_length hdata, List.length_nil] at hlen
    omega
  refine ⟨(chain.getLast hne).delegation, ?_⟩
  rw [← hchain, List.getLast?_map, List.getLast?_eq_getLast_of_ne_nil hne, Option.map_some, Option.bind_some]
  exact (chain.getLast hne).read_eq

theorem ok_ne_threw {e : JcsError} : (.ok () : Except DelegationVerify.Exit Unit) ≠ .error (.threw e) := by
  intro h
  cases h

theorem refuseAt_ne_threw {state : Refusal} {code : AuthorityFailureCode} {i : Nat} {message : String} {e : JcsError} :
    refuseAt state code i message ≠ .error (.threw e) := by
  intro h
  cases h

theorem refuseIf_ne_threw {c : Prop} [Decidable c] {state : Refusal} {code : AuthorityFailureCode} {i : Nat}
    {message : String} {e : JcsError} {x : Except DelegationVerify.Exit Unit} (h : x ≠ .error (.threw e)) :
    (if c then refuseAt state code i message else x) ≠ .error (.threw e) := by
  split
  · exact refuseAt_ne_threw
  · exact h

theorem checkId_returns (i : Nat) (r : ShapedRecord) (e : JcsError) : checkId P i r ≠ .error (.threw e) := by
  intro h
  rw [checkId, computeAuthorityDelegationId, authorityDelegationIdInput, canonicalizeJCS_ok (body_isJson r)] at h
  obtain hid | ⟨id, -, h⟩ := bind_eq_error.mp h
  · cases hid
  · split at h
    · exact refuseAt_ne_threw h
    · cases h

theorem checkSignature_returns (i : Nat) (r : ShapedRecord) (e : JcsError) :
    checkSignature P options i r ≠ .error (.threw e) := by
  intro h
  rw [checkSignature] at h
  split at h
  · exact refuseAt_ne_threw h
  · rw [verifyAuthorityDelegationSignature, authorityDelegationSignatureInput, unsignedDelegation,
      canonicalizeJCS_ok (isJson_omit _ (shaped_isJson r))] at h
    obtain hverified | ⟨verified, -, h⟩ := bind_eq_error.mp h
    · cases hverified
    · split at h
      · exact refuseAt_ne_threw h
      · cases h

theorem checkDistinct_returns {e : JcsError} {chain : List ShapedRecord} :
    ∀ (i : Nat) (seen : List Str), checkDistinct i seen chain ≠ .error (.threw e) := by
  induction chain with
  | nil => exact fun _ _ => ok_ne_threw
  | cons r rest ih => exact fun i seen => refuseIf_ne_threw (ih (i + 1) _)

theorem checkRoot_returns (chain : List ShapedRecord) (e : JcsError) : checkRoot options chain ≠ .error (.threw e) := by
  cases chain with
  | nil => exact ok_ne_threw
  | cons root rest =>
    intro h
    obtain htrust | ⟨_, -, hparent⟩ := bind_eq_error.mp h
    · unfold checkRootTrust at htrust
      split at htrust
      · exact refuseAt_ne_threw htrust
      · split at htrust
        · exact refuseAt_ne_threw htrust
        · exact refuseAt_ne_threw htrust
        · exact refuseAt_ne_threw htrust
        · cases htrust
    · exact refuseIf_ne_threw ok_ne_threw hparent

theorem checkNarrowing_returns (i : Nat) (parent child : ShapedRecord) (e : JcsError) :
    checkNarrowing i parent child ≠ .error (.threw e) := by
  intro h
  rw [checkNarrowing] at h
  split at h
  · cases h
  · cases h

theorem checkRevocation_returns (i : Nat) (r : ShapedRecord) (e : JcsError) :
    checkRevocation options i r ≠ .error (.threw e) := by
  intro h
  rw [checkRevocation] at h
  split at h
  · exact refuseAt_ne_threw h
  · exact refuseAt_ne_threw h
  · cases h

theorem verifyChain_returns (now : Str) (chain : List ShapedRecord) (e : JcsError) :
    verifyChain P options now chain ≠ .error (.threw e) := by
  intro h
  unfold verifyChain at h
  obtain hids | ⟨_, -, h⟩ := bind_eq_error.mp h
  · exact forEach_ne_error (fun i r => checkId_returns i r e) 0 chain hids
  obtain hsigned | ⟨_, -, h⟩ := bind_eq_error.mp h
  · exact forEach_ne_error (fun i r => checkSignature_returns i r e) 0 chain hsigned
  obtain hdistinct | ⟨_, -, h⟩ := bind_eq_error.mp h
  · exact checkDistinct_returns 0 [] hdistinct
  obtain hroot | ⟨_, -, h⟩ := bind_eq_error.mp h
  · exact checkRoot_returns chain e hroot
  obtain hparents | ⟨_, -, h⟩ := bind_eq_error.mp h
  · exact forPairs_ne_error (fun i a b => refuseIf_ne_threw ok_ne_threw) 1 chain hparents
  obtain hcontinuous | ⟨_, -, h⟩ := bind_eq_error.mp h
  · exact forPairs_ne_error (fun i a b => refuseIf_ne_threw ok_ne_threw) 1 chain hcontinuous
  obtain hissued | ⟨_, -, h⟩ := bind_eq_error.mp h
  · exact forPairs_ne_error (fun i a b => refuseIf_ne_threw ok_ne_threw) 1 chain hissued
  obtain hnarrow | ⟨_, -, h⟩ := bind_eq_error.mp h
  · exact forPairs_ne_error (fun i a b => checkNarrowing_returns i a b e) 1 chain hnarrow
  obtain hcurrent | ⟨_, -, h⟩ := bind_eq_error.mp h
  · exact forEach_ne_error (fun i r => refuseIf_ne_threw (refuseIf_ne_threw ok_ne_threw)) 0 chain hcurrent
  · exact forEach_ne_error (fun i r => checkRevocation_returns i r e) 0 chain h

theorem shapeAll_returns {members : List CallerValue} :
    ∀ (i : Nat) (e : JcsError), shapeAll i members ≠ .error (.threw e) := by
  induction members with
  | nil =>
    intro i e h
    cases h
  | cons member rest ih =>
    intro i e h
    rw [shapeAll] at h
    split at h
    · obtain hrest | ⟨chain, -, hchain⟩ := bind_eq_error.mp h
      · exact ih _ e hrest
      · cases hchain
    · cases h

theorem settle_returns {x : Except DelegationVerify.Exit Unit} (h : ∀ e, x ≠ .error (.threw e)) :
    ∃ result, settle x = .ok result := by
  cases x with
  | ok u => exact ⟨_, rfl⟩
  | error left =>
    cases left with
    | refused state failures => exact ⟨_, rfl⟩
    | threw e => exact absurd rfl (h e)

theorem verify_returns (P : Primitives) (options : AuthorityChainVerificationOptions) (raw : CallerValue) :
    ∃ result, verifyAuthorityDelegationChain P options raw = .ok result := by
  unfold verifyAuthorityDelegationChain
  split
  · exact ⟨_, rfl⟩
  · exact ⟨_, rfl⟩
  · split
    · exact ⟨_, rfl⟩
    · split
      · exact ⟨_, rfl⟩
      · apply settle_returns
        intro e h
        obtain hshape | ⟨chain, -, hchain⟩ := bind_eq_error.mp h
        · exact shapeAll_returns 0 e hshape
        · exact verifyChain_returns _ chain e hchain

/-- An evaluation that does not authorize, of the chain it was asked for. -/
structure Declined (entry : ReadHeldChain) (evaluated : Evaluated) : Prop where
  chainId : evaluated.evaluation.chainId = entry.chainId
  outcome : evaluated.evaluation.outcome ≠ .authorizes
  result : evaluated.result = none

variable {entry : ReadHeldChain}

theorem declined_of {outcome : ChainEvaluationOutcome} {code : EvaluationCode}
    {chainState : Option AuthorityValidationState} (h : outcome ≠ .authorizes) :
    Declined entry ⟨⟨entry.chainId, outcome, code, chainState⟩, none⟩ :=
  ⟨rfl, h, rfl⟩

theorem endOn_declined {α : Type} (entry : ReadHeldChain) (code : EvaluationCode) (state : AuthorityValidationState) :
    ∃ e, (endOn entry code state : Except Exit α) = .error (.ended e) ∧ Declined entry e := by
  rw [endOn]
  split
  · exact ⟨_, rfl, declined_of (by decide)⟩
  · exact ⟨_, rfl, declined_of (by decide)⟩

variable {chain : CallerValue} {result : AuthorityValidationResult}

theorem verify_ok (h : verifyAuthorityDelegationChain P options chain = .ok result) :
    verify P options chain = .ok result := by
  rw [verify, h]

variable {needed : List Str}

theorem not_eligible_of_unread {r : PlainDataChainRejection} (h : readPlainDataChainContainer 1 256 raw = .error r) :
    ¬ Eligible P options needed raw := by
  intro heligible
  obtain ⟨members, now, chain, hmembers, -⟩ := (verify_valid_iff raw).mp heligible.valid
  rw [h] at hmembers
  cases hmembers

theorem presented_cases (c : ChainValue) :
    (c = .revokedProxy ∧ presented c = .error (.threw .typeError)) ∨ ∃ chain, presented c = .ok chain := by
  cases c with
  | revokedProxy => exact .inl ⟨rfl, rfl⟩
  | value v =>
    refine .inr ?_
    unfold presented
    split
    · rename_i hproxy
      cases hproxy
    · exact ⟨_, rfl⟩
    · exact ⟨_, rfl⟩

theorem evaluateScope_unread {r : PlainDataChainRejection}
    (h : readPlainDataChainContainer 1 256 entry.chain.caller = .error r) :
    (∃ e, evaluateScope P options entry needed = .error (.ended e) ∧ Declined entry e) ∨
      entry.chain = .revokedProxy ∧ evaluateScope P options entry needed = .error (.threw .typeError) := by
  simp only [evaluateScope, h]
  obtain ⟨hproxy, hpresented⟩ | ⟨chain, hpresented⟩ := presented_cases entry.chain
  · rw [hpresented]
    exact .inr ⟨hproxy, rfl⟩
  · obtain ⟨result, hverify⟩ := verify_returns P options chain
    obtain ⟨e, hend, hdeclined⟩ := endOn_declined (α := List JsValue × AuthorityValidationResult) entry
      (result.failures.head?.elim (.failure .SCHEMA_INVALID) (fun f => .failure f.code)) result.state
    refine .inl ⟨e, ?_, hdeclined⟩
    simp only [hpresented, bind, Except.bind, verify_ok hverify]
    exact hend

theorem evaluateScope_valid {leaf : AuthorityDelegation}
    (h : readPlainDataChainContainer 1 256 entry.chain.caller = .ok members)
    (hverify : verifyAuthorityDelegationChain P options entry.chain.caller = .ok result)
    (hstate : result.state = .valid) (hleaf : (members.map snapshotPlainData).getLast?.bind readDelegation = some leaf) :
    evaluateScope P options entry needed =
      if coversAll leaf.authority.scope.grants needed then .ok (members.map snapshotPlainData, result)
      else refuse entry .scopeNotCovered (some result.state) := by
  have hset := valid_not_set h ⟨result, hverify, hstate⟩
  rw [← verify_records h] at hverify
  simp only [evaluateScope, h, hset, Bool.false_eq_true, if_false, bind, Except.bind, verify_ok hverify, ne_eq,
    hstate, not_true_eq_false, hleaf]
  rfl

theorem evaluateScope_invalid (needed : List Str)
    (h : readPlainDataChainContainer 1 256 entry.chain.caller = .ok members)
    (hverify : verifyAuthorityDelegationChain P options entry.chain.caller = .ok result)
    (hstate : result.state ≠ .valid) :
    ∃ e, evaluateScope P options entry needed = .error (.ended e) ∧ Declined entry e := by
  rw [← verify_records h] at hverify
  simp only [evaluateScope, h]
  split
  · exact ⟨_, rfl, declined_of (by decide)⟩
  · simp only [bind, Except.bind, verify_ok hverify, if_pos hstate]
    exact endOn_declined entry _ _

/-- Before its spend is looked at, a chain passes exactly when it is eligible; else it is declined,
unless it is a revoked proxy, which throws. -/
theorem evaluateScope_cases (entry : ReadHeldChain) (needed : List Str) :
    (∃ members result, readPlainDataChainContainer 1 256 entry.chain.caller = .ok members ∧
      Eligible P options needed entry.chain.caller ∧
      evaluateScope P options entry needed = .ok (members.map snapshotPlainData, result)) ∨
    (∃ e, evaluateScope P options entry needed = .error (.ended e) ∧ Declined entry e ∧
      ¬ Eligible P options needed entry.chain.caller) ∨
    entry.chain = .revokedProxy ∧ evaluateScope P options entry needed = .error (.threw .typeError) := by
  cases hread : readPlainDataChainContainer 1 256 entry.chain.caller with
  | error r =>
    obtain ⟨e, hend, hdeclined⟩ | hthrew := evaluateScope_unread (P := P) hread
    · exact .inr (.inl ⟨e, hend, hdeclined, not_eligible_of_unread hread⟩)
    · exact .inr (.inr hthrew)
  | ok members =>
    obtain ⟨result, hverify⟩ := verify_returns P options entry.chain.caller
    by_cases hstate : result.state = .valid
    · have hvalid : Valid P options entry.chain.caller := ⟨result, hverify, hstate⟩
      obtain ⟨leaf, hleaf⟩ := valid_leaf hread hvalid
      have hgrants : leafGrants entry.chain.caller = some leaf.authority.scope.grants := by
        simp only [leafGrants, hread, hleaf, Option.map_some]
      rw [evaluateScope_valid hread hverify hstate hleaf]
      by_cases hcovers : coversAll leaf.authority.scope.grants needed = true
      · exact .inl ⟨members, result, rfl, ⟨hvalid, _, hgrants, coversAll_iff.mp hcovers⟩, if_pos hcovers⟩
      · refine .inr (.inl ⟨_, if_neg hcovers, declined_of (by decide), ?_⟩)
        rintro ⟨-, grants, hsome, hall⟩
        rw [hgrants] at hsome
        cases hsome
        exact hcovers (coversAll_iff.mpr hall)
    · obtain ⟨e, hend, hdeclined⟩ := evaluateScope_invalid needed hread hverify hstate
      refine .inr (.inl ⟨e, hend, hdeclined, ?_⟩)
      rintro ⟨⟨result', hresult', hstate'⟩, -⟩
      rw [hverify] at hresult'
      cases hresult'
      exact hstate hstate'

/-- The ledger after a chain has admitted the spend of an action, where there is one. -/
def Admits (P : Primitives) (spend : Option RequiredSpend) (chain : CallerValue) (R R' : Option Ledger) : Prop :=
  match spend with
  | none => R' = R
  | some spend => ∃ L r L', R = some L ∧ reserveSpend P L chain spend = .ok (r, L') ∧ r.ok = true ∧ R' = some L'

theorem reserve_refused {L L' : Ledger} {r : BudgetOperationResult} (h : reserveSpend P L chain spend = .ok (r, L'))
    (hok : r.ok = false) : L' = L := by
  unfold reserveSpend reserve at h
  split at h
  · cases h
    rfl
  · cases h
  · cases h
    cases hok

variable {R R' : Option Ledger}

/-- One evaluation authorizes on an eligible chain that admits the spend, and else declines and leaves
the ledger as it was. -/
theorem evaluateHeldChain_cases {spend : Option RequiredSpend} {e : Evaluated}
    (h : evaluateHeldChain P options entry needed spend R = .ok (e, R')) :
    (e.evaluation.chainId = entry.chainId ∧ e.evaluation.outcome = .authorizes ∧ (∃ result, e.result = some result) ∧
      Eligible P options needed entry.chain.caller ∧ Admits P spend entry.chain.caller R R') ∨
    (Declined entry e ∧ R' = R ∧
      ¬ (Eligible P options needed entry.chain.caller ∧ ∃ R'', Admits P spend entry.chain.caller R R'')) := by
  unfold evaluateHeldChain at h
  obtain ⟨members, result, hread, heligible, hscope⟩ | ⟨e', hscope, hdeclined, hnot⟩ | ⟨-, hscope⟩ :=
    evaluateScope_cases (P := P) entry needed
  · rw [hscope] at h
    cases spend with
    | none =>
      cases h
      exact .inl ⟨rfl, rfl, ⟨result, rfl⟩, heligible, rfl⟩
    | some spend =>
      cases R with
      | none =>
        cases h
        refine .inr ⟨declined_of (by decide), rfl, ?_⟩
        rintro ⟨-, R'', L, r, L', hL, -⟩
        cases hL
      | some L =>
        simp only [reserve_records hread] at h
        cases hreserve : reserveSpend P L entry.chain.caller spend with
        | error e' =>
          rw [hreserve] at h
          cases h
          refine .inr ⟨declined_of (by decide), rfl, ?_⟩
          rintro ⟨-, R'', L₁, r, L₂, hL, hr, -⟩
          cases hL
          rw [hreserve] at hr
          cases hr
        | ok pair =>
          obtain ⟨r, L'⟩ := pair
          simp only [hreserve] at h
          cases hok : r.ok with
          | true =>
            rw [if_pos hok] at h
            cases h
            exact .inl ⟨rfl, rfl, ⟨result, rfl⟩, heligible, L, r, L', rfl, hreserve, hok, rfl⟩
          | false =>
            rw [if_neg (by rw [hok]; decide)] at h
            cases h
            refine .inr ⟨declined_of (by decide), congrArg some (reserve_refused hreserve hok), ?_⟩
            rintro ⟨-, R'', L₁, r', L₂, hL, hr, hok', -⟩
            cases hL
            rw [hreserve] at hr
            cases hr
            rw [hok] at hok'
            cases hok'
  · rw [hscope] at h
    cases h
    exact .inr ⟨hdeclined, rfl, fun hboth => hnot hboth.1⟩
  · rw [hscope] at h
    cases h

section Returns
variable (options) (hproxy : entry.chain ≠ .revokedProxy)
include hproxy

theorem evaluateHeldChain_returns (needed : List Str) (spend : Option RequiredSpend) (R : Option Ledger) :
    ∃ r, evaluateHeldChain P options entry needed spend R = .ok r := by
  unfold evaluateHeldChain
  obtain ⟨members, result, -, -, hscope⟩ | ⟨e, hscope, -⟩ | ⟨hrevoked, -⟩ := evaluateScope_cases (P := P) entry needed
  · rw [hscope]
    cases spend with
    | none => exact ⟨_, rfl⟩
    | some spend =>
      cases R with
      | none => exact ⟨_, rfl⟩
      | some L =>
        simp only
        split
        · exact ⟨_, rfl⟩
        · split
          · exact ⟨_, rfl⟩
          · exact ⟨_, rfl⟩
  · rw [hscope]
    exact ⟨_, rfl⟩
  · exact absurd hrevoked hproxy

theorem decideEntry_returns (requirement : Requirement) (R : Option Ledger) :
    ∃ r, decideEntry P options requirement R entry = .ok r := by
  obtain ⟨⟨checked, R₀⟩, hchecked⟩ := evaluateHeldChain_returns (P := P) options hproxy
    requirement.grants none none
  rw [decideEntry, hchecked]
  by_cases houtcome : checked.evaluation.outcome = .authorizes
  · cases hspend : requirement.spend with
    | none => exact ⟨_, if_neg (not_not.mpr houtcome)⟩
    | some spend =>
      obtain ⟨r, hr⟩ := evaluateHeldChain_returns (P := P) options hproxy requirement.grants (some spend) R
      exact ⟨_, (if_neg (not_not.mpr houtcome)).trans (bind_eq_ok.mpr ⟨r, hr, rfl⟩)⟩
  · exact ⟨_, if_pos houtcome⟩

end Returns

def chainIds (chain : CallerValue) : List Str :=
  match readPlainDataChainContainer 1 256 chain with
  | .ok members => members.filterMap (fun v => (readDelegation (snapshotPlainData v)).map AuthorityDelegation.delegationId)
  | .error _ => []

/-- The ledger has one reservation more, of this spend on records of this chain, and is otherwise as
it was. -/
def ReservedOn (spend : RequiredSpend) (chain : CallerValue) (L L' : Ledger) : Prop :=
  ∃ r : Reservation, r.actionRef = spend.actionRef ∧ r.unit = spend.unit ∧ r.amount = bigInt spend.amount ∧
    r.state = .reserved ∧ r.delegationIds ⊆ chainIds chain ∧
    (∀ ref, L'.reservations.get ref = if spend.actionRef = ref then some r else L.reservations.get ref) ∧
    ∀ id, L'.counterAt id = if id ∈ r.delegationIds then
      { L.counterAt id with reserved := (L.counterAt id).reserved + r.amount } else L.counterAt id

theorem reserveChecks_hold {hold : Hold}
    (h : reserveChecks P L chain (.str spend.actionRef) (.str spend.unit) (.str spend.amount) = .ok hold) :
    ∃ members records, readPlainDataChainContainer 1 256 chain = .ok members ∧
      admitChain P [] none members = .ok records ∧
      hold = ⟨spend.actionRef, spend.unit, bigInt spend.amount,
        records.filterMap (fun r => boundedSpend r.delegation)⟩ := by
  simp only [reserveChecks, str?] at h
  split at h
  · cases h
  split at h
  · cases h
  rename_i members hmembers
  obtain ⟨records, hrecords, h⟩ := bind_eq_ok.mp h
  obtain ⟨-, h⟩ := bind_unit_eq_ok.mp h
  obtain ⟨-, h⟩ := bind_unit_eq_ok.mp h
  cases h
  exact ⟨members, records, hmembers, hrecords, rfl⟩

theorem admitted_ids {records : List ShapedRecord} (hmembers : readPlainDataChainContainer 1 256 chain = .ok members)
    (hrecords : admitChain P [] none members = .ok records) :
    records.map (fun r => r.delegation.delegationId) ⊆ chainIds chain := by
  intro id hid
  obtain ⟨r, hr, rfl⟩ := List.mem_map.mp hid
  obtain ⟨v, hv, hvalue⟩ := ((admitChain_ok hrecords).2.2 r hr).1
  rw [chainIds, hmembers]
  refine List.mem_filterMap.mpr ⟨v, hv, ?_⟩
  rw [← hvalue, r.read_eq, Option.map_some]

theorem hold_reservedOn {hold : Hold}
    (h : reserveChecks P L chain (.str spend.actionRef) (.str spend.unit) (.str spend.amount) = .ok hold) :
    ReservedOn spend chain L (L.hold hold) := by
  have hdistinct := (reserveChecks_ok h).distinct
  obtain ⟨members, records, hmembers, hrecords, rfl⟩ := reserveChecks_hold h
  refine ⟨⟨spend.actionRef, spend.unit, bigInt spend.amount, _, .reserved⟩, rfl, rfl, rfl, rfl,
    List.Subset.trans (bounded_sublist records).subset (admitted_ids hmembers hrecords), ?_, ?_⟩
  · intro ref
    rw [Ledger.hold, OrderedMap.get_set]
    rfl
  · intro id
    rw [Ledger.counterAt, Ledger.hold, counterIn_updateEach hdistinct]
    rfl

theorem reserveSpend_effect {L L' : Ledger} {r : BudgetOperationResult} (h : reserveSpend P L chain spend = .ok (r, L')) :
    L' = L ∨ ReservedOn spend chain L L' := by
  unfold reserveSpend reserve at h
  split at h
  · cases h
    exact .inl rfl
  · cases h
  · rename_i hold hchecks
    cases h
    exact .inr (hold_reservedOn hchecks)

/-- The ledger is as it was, or has one reservation more, on this chain. -/
def AtMostOn (spend : Option RequiredSpend) (chain : CallerValue) (L : Ledger) (R' : Option Ledger) : Prop :=
  R' = some L ∨ ∃ s L', spend = some s ∧ R' = some L' ∧ ReservedOn s chain L L'

theorem Admits.atMostOn {spend : Option RequiredSpend} {R' : Option Ledger} (h : Admits P spend chain (some L) R') :
    AtMostOn spend chain L R' := by
  cases spend with
  | none => exact .inl h
  | some s =>
    obtain ⟨L₁, r, L', hL, hreserve, -, hR'⟩ := h
    cases hL
    obtain hsame | hreserved := reserveSpend_effect hreserve
    · exact .inl (by rw [hR', hsame])
    · exact .inr ⟨s, L', rfl, hR', hreserved⟩

/-- An eligible chain that admits the spend of the action, in this state of the ledger. -/
def Authorizes (P : Primitives) (options : AuthorityChainVerificationOptions) (requirement : Requirement)
    (R : Option Ledger) (entry : ReadHeldChain) : Prop :=
  Eligible P options requirement.grants entry.chain.caller ∧
    ∃ R', Admits P requirement.spend entry.chain.caller R R'

variable {requirement : Requirement}

variable {evaluation : ChainEvaluation}

theorem scopePass_cases {u u' : Unit} {given : Option (Option AuthorityValidationResult)}
    (h : scopePass P options requirement u entry = .ok (evaluation, given, u')) :
    ((∃ result, given = some (some result)) ∧ Eligible P options requirement.grants entry.chain.caller) ∨
      (given = none ∧ ¬ Eligible P options requirement.grants entry.chain.caller) := by
  obtain ⟨⟨e, R'⟩, heval, h⟩ := bind_eq_ok.mp h
  obtain ⟨-, houtcome, ⟨result, hresult⟩, heligible, -⟩ | ⟨hdeclined, -, hnot⟩ := evaluateHeldChain_cases heval
  · simp only [houtcome, if_true, hresult] at h
    cases h
    exact .inl ⟨⟨result, rfl⟩, heligible⟩
  · simp only [if_neg hdeclined.outcome] at h
    cases h
    exact .inr ⟨rfl, fun heligible => hnot ⟨heligible, none, rfl⟩⟩

theorem decideEntry_cases {given : Option AuthorityValidationResult}
    (h : decideEntry P options requirement R entry = .ok (evaluation, given, R')) : evaluation.chainId = entry.chainId ∧
      (((∃ result, given = some result) ∧ Eligible P options requirement.grants entry.chain.caller ∧
          Admits P requirement.spend entry.chain.caller R R') ∨
        (given = none ∧ R' = R ∧ ¬ Authorizes P options requirement R entry)) := by
  obtain ⟨⟨checked, R₀⟩, hchecked, h⟩ := bind_eq_ok.mp h
  obtain ⟨hid, houtcome, ⟨result, hresult⟩, heligible, -⟩ | ⟨hdeclined, -, hnot⟩ := evaluateHeldChain_cases hchecked
  · simp only [houtcome, ne_eq, not_true_eq_false, if_false] at h
    cases hspend : requirement.spend with
    | none =>
      rw [hspend] at h
      cases h
      exact ⟨hid, .inl ⟨⟨result, hresult⟩, heligible, rfl⟩⟩
    | some spend =>
      rw [hspend] at h
      obtain ⟨⟨admitted, R₁⟩, hadmitted, h⟩ := bind_eq_ok.mp h
      obtain ⟨hid', houtcome', ⟨result', hresult'⟩, -, hadmits⟩ | ⟨hdeclined, hsame, hnot⟩ :=
        evaluateHeldChain_cases hadmitted
      · simp only [houtcome', if_true] at h
        cases h
        exact ⟨hid', .inl ⟨⟨result', hresult'⟩, heligible, hadmits⟩⟩
      · simp only [if_neg hdeclined.outcome] at h
        cases h
        refine ⟨hdeclined.chainId, .inr ⟨rfl, hsame, ?_⟩⟩
        rw [Authorizes, hspend]
        exact hnot
  · simp only [ne_eq, hdeclined.outcome, not_false_eq_true, if_true] at h
    cases h
    exact ⟨hdeclined.chainId, .inr ⟨rfl, rfl, fun hauthorizes => hnot ⟨hauthorizes.1, none, rfl⟩⟩⟩

def FirstOf {α : Type} (p : α → Prop) (l : List α) (a : α) : Prop :=
  ∃ before after, l = before ++ a :: after ∧ p a ∧ ∀ x ∈ before, ¬ p x

theorem FirstOf.unique {α : Type} {p : α → Prop} {l : List α} :
    ∀ {a b : α}, FirstOf p l a → FirstOf p l b → a = b := by
  induction l with
  | nil =>
    rintro a b ⟨before, after, hsplit, -⟩
    cases before <;> cases hsplit
  | cons x rest ih =>
    rintro a b ⟨before, after, hsplit, ha, hbefore⟩ ⟨before', after', hsplit', hb, hbefore'⟩
    cases before with
    | nil =>
      cases hsplit
      cases before' with
      | nil =>
        cases hsplit'
        rfl
      | cons y before' =>
        cases hsplit'
        exact absurd ha (hbefore' _ List.mem_cons_self)
    | cons y before =>
      cases hsplit
      cases before' with
      | nil =>
        cases hsplit'
        exact absurd hb (hbefore _ List.mem_cons_self)
      | cons y' before' =>
        obtain ⟨-, hrest⟩ := List.cons.inj hsplit'
        exact ih ⟨before, after, rfl, ha, fun x hx => hbefore x (List.mem_cons_of_mem _ hx)⟩
          ⟨before', after', hrest, hb, fun x hx => hbefore' x (List.mem_cons_of_mem _ hx)⟩

theorem selectChainForAction_cases {input : ChainSelectionInput} {outcome : SelectionOutcome}
    (h : selectChainForAction P input R = .ok (outcome, R')) : (outcome.chainId = none ∧ R' = R) ∨
      ∃ held requirement entry, readHeldSet input.held = .ok held ∧
        readRequirement input.requiredGrants input.requiredSpend = some requirement ∧
        outcome.chainId = some entry.chainId ∧
        FirstOf (fun e => Eligible P input.options requirement.grants e.chain.caller) held entry ∧
        Admits P requirement.spend entry.chain.caller R R' := by
  unfold selectChainForAction at h
  split at h
  · cases h
    exact .inl ⟨rfl, rfl⟩
  rename_i held hheld
  split at h
  · cases h
    exact .inl ⟨rfl, rfl⟩
  rename_i requirement hrequirement
  obtain ⟨⟨evaluations, chosen, u⟩, hloop, h⟩ := bind_eq_ok.mp h
  have hkeep : ∀ u entry b u', scopePass P input.options requirement u entry = .ok (b, none, u') → u' = u :=
    fun _ _ _ _ _ => rfl
  cases chosen with
  | none =>
    cases h
    exact .inl ⟨rfl, rfl⟩
  | some pair =>
    obtain ⟨entry, given⟩ := pair
    obtain ⟨before, after, b, hsplit, hentry, hbefore⟩ := firstSuccess_some hkeep hloop
    obtain ⟨⟨result, hresult⟩, heligible⟩ | ⟨hnone, -⟩ := scopePass_cases hentry
    · cases hresult
      have hfirst : FirstOf (fun e => Eligible P input.options requirement.grants e.chain.caller) held entry := by
        refine ⟨before, after, hsplit, heligible, ?_⟩
        intro x hx
        obtain ⟨b, hb⟩ := hbefore x hx
        obtain ⟨⟨result, hsome⟩, -⟩ | ⟨-, hnot⟩ := scopePass_cases hb
        · cases hsome
        · exact hnot
      simp only at h
      cases hspend : requirement.spend with
      | none =>
        rw [hspend] at h
        cases h
        refine .inr ⟨held, requirement, entry, hheld, hrequirement, rfl, hfirst, ?_⟩
        rw [hspend]
        rfl
      | some spend =>
        rw [hspend] at h
        obtain ⟨⟨admitted, R₁⟩, hadmitted, h⟩ := bind_eq_ok.mp h
        obtain ⟨-, houtcome, ⟨result', hresult'⟩, -, hadmits⟩ | ⟨hdeclined, hsame, -⟩ :=
          evaluateHeldChain_cases hadmitted
        · simp only [houtcome, hresult'] at h
          cases h
          refine .inr ⟨held, requirement, entry, hheld, hrequirement, rfl, hfirst, ?_⟩
          rw [hspend]
          exact hadmits
        · rw [hdeclined.result] at h
          split at h
          · rename_i hnone
            cases hnone
          · cases h
            exact .inl ⟨rfl, hsame⟩
    · cases hnone

def candidatesOf (preferred : ReadHeldChain) (held : List ReadHeldChain) : Option Str → List ReadHeldChain
  | none => [preferred]
  | some _ => preferred :: held.filter (fun entry => entry.chainId ≠ preferred.chainId)

structure ReadsFallback (input : ChainSelectionWithFallbackInput) (held : List ReadHeldChain)
    (requirement : Requirement) (preferred : ReadHeldChain) (fallbackRef : Option Str) : Prop where
  heldSet : readHeldSet input.held = .ok held
  required : readRequirement input.requiredGrants input.requiredSpend = some requirement
  entry : preferredEntry input.preferredChainId held = some preferred
  fallback : readFallback input.fallback = .ok fallbackRef

theorem decideEntry_keeps (R : Option Ledger) (entry : ReadHeldChain) (evaluation : ChainEvaluation)
    (R' : Option Ledger) (h : decideEntry P options requirement R entry = .ok (evaluation, none, R')) : R' = R := by
  obtain ⟨-, ⟨⟨result, hresult⟩, -⟩ | ⟨-, hsame, -⟩⟩ := decideEntry_cases h
  · cases hresult
  · exact hsame

theorem decideEntry_chainId (R : Option Ledger) (entry : ReadHeldChain) (evaluation : ChainEvaluation)
    (given : Option AuthorityValidationResult) (R' : Option Ledger)
    (h : decideEntry P options requirement R entry = .ok (evaluation, given, R')) :
    evaluation.chainId = entry.chainId :=
  (decideEntry_cases h).1

theorem not_authorizes_of_decided (h : decideEntry P options requirement R entry = .ok (evaluation, none, R')) :
    ¬ Authorizes P options requirement R entry := by
  obtain ⟨-, ⟨⟨result, hresult⟩, -⟩ | ⟨-, -, hnot⟩⟩ := decideEntry_cases h
  · cases hresult
  · exact hnot

/-- A fallback call fails before it reads a chain, or decides on the first of its candidates that
authorizes the action in the state of the ledger it was given. -/
theorem selectWithFallback_cases {input : ChainSelectionWithFallbackInput} {outcome : SelectionOutcome}
    (h : selectWithFallback P input R = .ok (outcome, R')) :
    ((∀ held requirement preferred ref, ¬ ReadsFallback input held requirement preferred ref) ∧
      outcome.chainId = none ∧ outcome.evaluations = [] ∧ R' = R) ∨
    ∃ held requirement preferred ref, ReadsFallback input held requirement preferred ref ∧
      outcome.evaluations.map ChainEvaluation.chainId <+: (candidatesOf preferred held ref).map ReadHeldChain.chainId ∧
      ((outcome.chainId = none ∧ R' = R ∧
          ∀ e ∈ candidatesOf preferred held ref, ¬ Authorizes P input.options requirement R e) ∨
        ∃ entry, outcome.chainId = some entry.chainId ∧
          FirstOf (Authorizes P input.options requirement R) (candidatesOf preferred held ref) entry ∧
          Admits P requirement.spend entry.chain.caller R R') := by
  unfold selectWithFallback at h
  split at h
  · rename_i code hheld
    cases h
    refine .inl ⟨?_, rfl, rfl, rfl⟩
    intro held requirement preferred ref hreads
    cases hheld.symm.trans hreads.heldSet
  rename_i held hheld
  split at h
  · rename_i hrequirement
    cases h
    refine .inl ⟨?_, rfl, rfl, rfl⟩
    intro held' requirement preferred ref hreads
    cases hrequirement.symm.trans hreads.required
  rename_i requirement hrequirement
  split at h
  · rename_i hpreferred
    cases h
    refine .inl ⟨?_, rfl, rfl, rfl⟩
    intro held' requirement' preferred ref hreads
    cases hheld.symm.trans hreads.heldSet
    cases hpreferred.symm.trans hreads.entry
  rename_i preferred hpreferred
  split at h
  · rename_i code hfallback
    cases h
    refine .inl ⟨?_, rfl, rfl, rfl⟩
    intro held' requirement' preferred' ref hreads
    cases hfallback.symm.trans hreads.fallback
  rename_i ref hfallback
  have hreads : ReadsFallback input held requirement preferred ref := ⟨hheld, hrequirement, hpreferred, hfallback⟩
  obtain ⟨⟨first, given, R₁⟩, hdecide, hrest⟩ := bind_eq_ok.mp h
  obtain ⟨hid, ⟨⟨result, rfl⟩, heligible, hadmits⟩ | ⟨rfl, hsame, hnot⟩⟩ := decideEntry_cases hdecide
  · cases hrest
    have hhead : ∃ rest, candidatesOf preferred held ref = preferred :: rest := by
      cases ref with
      | none => exact ⟨_, rfl⟩
      | some ref => exact ⟨_, rfl⟩
    obtain ⟨rest, hhead⟩ := hhead
    refine .inr ⟨held, requirement, preferred, ref, hreads, ?_, .inr ⟨preferred, rfl, ?_, hadmits⟩⟩
    · rw [hhead]
      show [first.chainId] <+: preferred.chainId :: rest.map ReadHeldChain.chainId
      rw [hid]
      exact ⟨_, rfl⟩
    · exact ⟨[], rest, hhead, ⟨heligible, _, hadmits⟩, List.forall_mem_nil _⟩
  · subst hsame
    cases ref with
    | none =>
      cases hrest
      refine .inr ⟨held, requirement, preferred, none, hreads, ?_, .inl ⟨rfl, rfl, ?_⟩⟩
      · show [first.chainId] <+: [preferred.chainId]
        exact hid ▸ List.prefix_refl _
      · exact List.forall_mem_singleton.mpr hnot
    | some ref =>
      obtain ⟨⟨evaluations, chosen, R₂⟩, hloop, hrest⟩ := bind_eq_ok.mp hrest
      have hrecord : (first :: evaluations).map ChainEvaluation.chainId <+:
          (candidatesOf preferred held (some ref)).map ReadHeldChain.chainId := by
        rw [candidatesOf, List.map_cons, List.map_cons, hid, List.prefix_cons_inj]
        exact firstSuccess_record decideEntry_chainId hloop
      refine .inr ⟨held, requirement, preferred, some ref, hreads, ?_⟩
      cases chosen with
      | none =>
        cases hrest
        obtain ⟨hsame, hall⟩ := firstSuccess_none decideEntry_keeps hloop
        refine ⟨hrecord, .inl ⟨rfl, hsame, List.forall_mem_cons.mpr ⟨hnot, ?_⟩⟩⟩
        intro e he
        obtain ⟨b, hb⟩ := hall e he
        exact not_authorizes_of_decided hb
      | some pair =>
        obtain ⟨entry, result⟩ := pair
        cases hrest
        obtain ⟨before, after, b, hsplit, hentry, hbefore⟩ := firstSuccess_some decideEntry_keeps hloop
        obtain ⟨-, ⟨-, heligible, hadmits⟩ | ⟨hnone, -⟩⟩ := decideEntry_cases hentry
        · refine ⟨hrecord, .inr ⟨entry, rfl, ⟨preferred :: before, after, ?_, ⟨heligible, _, hadmits⟩, ?_⟩, hadmits⟩⟩
          · rw [candidatesOf, hsplit, List.cons_append]
          · refine List.forall_mem_cons.mpr ⟨hnot, ?_⟩
            intro e he
            obtain ⟨b, hb⟩ := hbefore e he
            exact not_authorizes_of_decided hb
        · cases hnone

/-- No entry that is read holds a revoked proxy, on which `Array.isArray` throws. -/
def NoRevokedProxy (held : HeldSet) : Prop :=
  ∀ entries, readHeldSet held = .ok entries → ∀ entry ∈ entries, entry.chain ≠ .revokedProxy

theorem selectWithFallback_returns {input : ChainSelectionWithFallbackInput} (h : NoRevokedProxy input.held)
    (R : Option Ledger) : ∃ r, selectWithFallback P input R = .ok r := by
  unfold selectWithFallback
  split
  · exact ⟨_, rfl⟩
  rename_i held hheld
  have hproxy := h held hheld
  split
  · exact ⟨_, rfl⟩
  rename_i requirement _
  split
  · exact ⟨_, rfl⟩
  rename_i preferred hpreferred
  split
  · exact ⟨_, rfl⟩
  rename_i ref _
  obtain ⟨id, -, hfind⟩ := Option.bind_eq_some_iff.mp hpreferred
  obtain ⟨⟨first, given, R₁⟩, hfirst⟩ := decideEntry_returns (P := P) input.options
    (hproxy preferred (List.mem_of_find?_eq_some hfind)) requirement R
  rw [hfirst]
  cases given with
  | some result => exact ⟨_, rfl⟩
  | none =>
    cases ref with
    | none => exact ⟨_, rfl⟩
    | some ref =>
      obtain ⟨⟨evaluations, chosen, R₂⟩, hloop⟩ := firstSuccess_returns (l := held.filter
        (fun entry => entry.chainId ≠ preferred.chainId)) (fun R entry hentry => decideEntry_returns (P := P)
          input.options (hproxy entry (List.mem_of_mem_filter hentry)) requirement R) R₁
      refine Exists.imp (fun r hr => bind_eq_ok.mpr ⟨_, rfl, bind_eq_ok.mpr ⟨_, hloop, hr⟩⟩) ?_
      cases chosen with
      | none => exact ⟨_, rfl⟩
      | some pair => exact ⟨_, rfl⟩

theorem selectWithFallback_first {input : ChainSelectionWithFallbackInput} (h : NoRevokedProxy input.held)
    (R : Option Ledger) : ∃ outcome R', selectWithFallback P input R = .ok (outcome, R') ∧
      ∀ held requirement preferred ref entry, ReadsFallback input held requirement preferred ref →
        FirstOf (Authorizes P input.options requirement R) (candidatesOf preferred held ref) entry →
        outcome.chainId = some entry.chainId := by
  obtain ⟨⟨outcome, R'⟩, hrun⟩ := selectWithFallback_returns (P := P) h R
  refine ⟨outcome, R', hrun, ?_⟩
  intro held requirement preferred ref entry hreads hfirst
  obtain ⟨hnone, -⟩ | ⟨held', requirement', preferred', ref', hreads', -, hdecided⟩ := selectWithFallback_cases hrun
  · exact absurd hreads (hnone held requirement preferred ref)
  · cases hreads.heldSet.symm.trans hreads'.heldSet
    cases hreads.required.symm.trans hreads'.required
    cases hreads.entry.symm.trans hreads'.entry
    cases hreads.fallback.symm.trans hreads'.fallback
    obtain ⟨-, -, hall⟩ | ⟨entry', hid, hfirst', -⟩ := hdecided
    · obtain ⟨before, after, hsplit, hauthorizes, -⟩ := hfirst
      exact absurd hauthorizes (hall entry (hsplit ▸ List.mem_append_right before List.mem_cons_self))
    · rw [hid, hfirst.unique hfirst']

theorem selectWithFallback_absent {input : ChainSelectionWithFallbackInput} {R : Option Ledger} {other : HeldSet}
    {held held' : List ReadHeldChain} {preferred : ReadHeldChain} (habsent : input.fallback = .absent)
    (hheld : readHeldSet input.held = .ok held) (hother : readHeldSet other = .ok held')
    (hpreferred : preferredEntry input.preferredChainId held = some preferred)
    (hpreferred' : preferredEntry input.preferredChainId held' = some preferred) :
    selectWithFallback P { input with held := other } R = selectWithFallback P input R := by
  unfold selectWithFallback
  simp only [hheld, hother, hpreferred, hpreferred', habsent, readFallback]
  cases readRequirement input.requiredGrants input.requiredSpend with
  | none => rfl
  | some requirement =>
    simp only
    cases decideEntry P input.options requirement R preferred with
    | error t => rfl
    | ok decided =>
      obtain ⟨first, given, R'⟩ := decided
      -- the loop over the held set is not reached
      cases given with
      | none => rfl
      | some result => rfl

end

/-- A selection decides on the first eligible chain in held order. A fallback call decides on the first
of its candidates that authorizes the action, which without an authorization is the preferred chain
alone, whatever else is held; where no entry is a revoked proxy it returns, with that candidate. The
ledger gains at most one reservation, on the chain that is reported, and nothing when none is. -/
theorem selection_single_chain (P : Primitives) (L : Ledger) :
    (∀ input outcome R', selectChainForAction P input (some L) = .ok (outcome, R') →
      (outcome.chainId = none → R' = some L) ∧
      ∀ id, outcome.chainId = some id → ∃ held requirement entry, readHeldSet input.held = .ok held ∧
        readRequirement input.requiredGrants input.requiredSpend = some requirement ∧ entry.chainId = id ∧
        FirstOf (fun e => Eligible P input.options requirement.grants e.chain.caller) held entry ∧
        AtMostOn requirement.spend entry.chain.caller L R') ∧
    (∀ input outcome R', selectWithFallback P input (some L) = .ok (outcome, R') →
      (outcome.chainId = none → R' = some L) ∧
      (∀ id, outcome.chainId = some id → ∃ held requirement preferred ref entry,
        ReadsFallback input held requirement preferred ref ∧ entry.chainId = id ∧
        FirstOf (Authorizes P input.options requirement (some L)) (candidatesOf preferred held ref) entry ∧
        AtMostOn requirement.spend entry.chain.caller L R') ∧
      (∀ held requirement preferred ref, ReadsFallback input held requirement preferred ref →
        outcome.chainId = none →
        ∀ e ∈ candidatesOf preferred held ref, ¬ Authorizes P input.options requirement (some L) e) ∧
      (input.fallback = .absent → ∀ held preferred, readHeldSet input.held = .ok held →
        preferredEntry input.preferredChainId held = some preferred →
        (∀ id, outcome.chainId = some id → id = preferred.chainId) ∧
        (∀ evaluation ∈ outcome.evaluations, evaluation.chainId = preferred.chainId) ∧
        ∀ other held', readHeldSet other = .ok held' →
          preferredEntry input.preferredChainId held' = some preferred →
          selectWithFallback P { input with held := other } (some L) = .ok (outcome, R'))) ∧
    ∀ input : ChainSelectionWithFallbackInput, NoRevokedProxy input.held →
      ∃ outcome R', selectWithFallback P input (some L) = .ok (outcome, R') ∧
        ∀ held requirement preferred ref entry, ReadsFallback input held requirement preferred ref →
          FirstOf (Authorizes P input.options requirement (some L)) (candidatesOf preferred held ref) entry →
          outcome.chainId = some entry.chainId := by
  refine ⟨?_, ?_, fun input h => selectWithFallback_first h (some L)⟩
  · intro input outcome R' h
    obtain ⟨hnone, hsame⟩ | ⟨held, requirement, entry, hheld, hrequirement, hid, hfirst, hadmits⟩ :=
      selectChainForAction_cases h
    · refine ⟨fun _ => hsame, ?_⟩
      intro id hid
      cases hnone.symm.trans hid
    · refine ⟨?_, ?_⟩
      · intro hnone
        cases hnone.symm.trans hid
      · intro id hid'
        exact ⟨held, requirement, entry, hheld, hrequirement, Option.some.inj (hid.symm.trans hid'), hfirst,
          hadmits.atMostOn⟩
  · intro input outcome R' h
    have habsent : ∀ held preferred, input.fallback = .absent → readHeldSet input.held = .ok held →
        preferredEntry input.preferredChainId held = some preferred → ∀ other held', readHeldSet other = .ok held' →
        preferredEntry input.preferredChainId held' = some preferred →
        selectWithFallback P { input with held := other } (some L) = .ok (outcome, R') := by
      intro held preferred hnull hheld hpreferred other held' hother hpreferred'
      rw [selectWithFallback_absent hnull hheld hother hpreferred hpreferred']
      exact h
    obtain ⟨hreads, hnone, hempty, hsame⟩ |
      ⟨held, requirement, preferred, ref, hreads, hrecord, hdecided⟩ := selectWithFallback_cases h
    · refine ⟨fun _ => hsame, ?_, ?_, ?_⟩
      · intro id hid
        cases hnone.symm.trans hid
      · intro held requirement preferred ref hread
        exact absurd hread (hreads held requirement preferred ref)
      · intro hnull held preferred hheld hpreferred
        refine ⟨?_, ?_, habsent held preferred hnull hheld hpreferred⟩
        · intro id hid
          cases hnone.symm.trans hid
        · rw [hempty]
          exact List.forall_mem_nil _
    · have hsame : ∀ held' requirement' preferred' ref', ReadsFallback input held' requirement' preferred' ref' →
          held' = held ∧ requirement' = requirement ∧ preferred' = preferred ∧ ref' = ref := by
        intro held' requirement' preferred' ref' hreads'
        cases hreads.heldSet.symm.trans hreads'.heldSet
        cases hreads.required.symm.trans hreads'.required
        cases hreads.entry.symm.trans hreads'.entry
        cases hreads.fallback.symm.trans hreads'.fallback
        exact ⟨rfl, rfl, rfl, rfl⟩
      refine ⟨?_, ?_, ?_, ?_⟩
      · intro hnone
        obtain ⟨-, hledger, -⟩ | ⟨entry, hid, -⟩ := hdecided
        · exact hledger
        · cases hnone.symm.trans hid
      · intro id hid
        obtain ⟨hnone, -⟩ | ⟨entry, hentry, hfirst, hadmits⟩ := hdecided
        · cases hnone.symm.trans hid
        · exact ⟨held, requirement, preferred, ref, entry, hreads, Option.some.inj (hentry.symm.trans hid), hfirst,
            hadmits.atMostOn⟩
      · intro held' requirement' preferred' ref' hreads' hnone
        obtain ⟨rfl, rfl, rfl, rfl⟩ := hsame held' requirement' preferred' ref' hreads'
        obtain ⟨-, -, hall⟩ | ⟨entry, hid, -⟩ := hdecided
        · exact hall
        · cases hnone.symm.trans hid
      · intro hnull held' preferred' hheld hpreferred
        cases hreads.heldSet.symm.trans hheld
        cases hreads.entry.symm.trans hpreferred
        have href : ref = none := by
          have hfallback := hreads.fallback
          rw [hnull] at hfallback
          exact (Except.ok.inj hfallback).symm
        subst href
        refine ⟨?_, ?_, habsent held preferred hnull hheld hpreferred⟩
        · intro id hid
          obtain ⟨hnone, -⟩ | ⟨entry, hentry, ⟨before, after, hsplit, -⟩, -⟩ := hdecided
          · cases hnone.symm.trans hid
          · have hmem : entry ∈ candidatesOf preferred held none := by
              rw [hsplit]
              exact List.mem_append_right _ List.mem_cons_self
            rw [hentry, List.mem_singleton.mp hmem] at hid
            exact (Option.some.inj hid).symm
        · intro evaluation hmem
          exact List.mem_singleton.mp (hrecord.subset (List.mem_map_of_mem hmem))

def sampleHeld : HeldSet :=
  .array 2 (some [.object (some (.str (lit "leaf"))) (some (.value (plain (.arr [childRecord])))),
    .object (some (.str (lit "main"))) (some (.value (plain (.arr [rootRecord, childRecord]))))])

def sampleSelection : ChainSelectionInput where
  held := sampleHeld
  requiredGrants := some [.str (lit "data:read")]
  requiredSpend := .object (some (.str (lit "USD"))) (some (.str (lit "3"))) (some (.str rootDigest))
  options := sampleOptions

def sampleFallback : ChainSelectionWithFallbackInput :=
  { sampleSelection with preferredChainId := some (.str (lit "leaf")), fallback := .given (some (.str (lit "ref-1"))) }

theorem sampleHeld_noRevokedProxy : NoRevokedProxy sampleHeld := by
  have hread : readHeldSet sampleHeld = .ok [⟨lit "leaf", .value (plain (.arr [childRecord]))⟩,
      ⟨lit "main", .value (plain (.arr [rootRecord, childRecord]))⟩] := rfl
  intro entries hentries entry hmem
  rw [hread] at hentries
  cases hentries
  obtain rfl | rfl := List.mem_pair.mp hmem
  · exact ChainValue.noConfusion
  · exact ChainValue.noConfusion

theorem selection_single_chain_sample :
    (∃ outcome R', ∃ requirement : Requirement, ∃ entry : ReadHeldChain,
      selectChainForAction samplePrimitives sampleSelection (some .empty) = .ok (outcome, R') ∧
      outcome.chainId = some (lit "main") ∧ entry.chainId = lit "main" ∧
      AtMostOn requirement.spend entry.chain.caller .empty R') ∧
    ∃ outcome R', ∃ requirement : Requirement, ∃ entry : ReadHeldChain,
      selectWithFallback samplePrimitives sampleFallback (some .empty) = .ok (outcome, R') ∧
      outcome.chainId = some (lit "main") ∧ entry.chainId = lit "main" ∧
      AtMostOn requirement.spend entry.chain.caller .empty R' := by
  have hselect : (selectChainForAction samplePrimitives sampleSelection (some .empty)).toOption.map
      (fun pair => pair.1.chainId) = some (some (lit "main")) := by decide +kernel
  have hfallback : (selectWithFallback samplePrimitives sampleFallback (some .empty)).toOption.map
      (fun pair => pair.1.chainId) = some (some (lit "main")) := by decide +kernel
  have hboth := selection_single_chain samplePrimitives .empty
  refine ⟨?_, ?_⟩
  · obtain ⟨⟨outcome, R'⟩, hrun, hid⟩ := exists_ok_of_map hselect
    obtain ⟨held, requirement, entry, -, -, hentry, -, hledger⟩ := (hboth.1 sampleSelection outcome R' hrun).2 _ hid
    exact ⟨outcome, R', requirement, entry, hrun, hid, hentry, hledger⟩
  · obtain ⟨outcome, R', hrun, -⟩ := hboth.2.2 sampleFallback sampleHeld_noRevokedProxy
    rw [hrun] at hfallback
    have hid : outcome.chainId = some (lit "main") := Option.some.inj hfallback
    obtain ⟨held, requirement, preferred, ref, entry, -, hentry, -, hledger⟩ :=
      (hboth.2.1 sampleFallback outcome R' hrun).2.1 _ hid
    exact ⟨outcome, R', requirement, entry, hrun, hid, hentry, hledger⟩

end AgentPassport.ChainSelection
