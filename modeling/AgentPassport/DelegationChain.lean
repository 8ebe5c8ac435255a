import AgentPassport.CanonicalInjective
import AgentPassport.DelegationVerify

/-! What a chain that verifies has been shown to be, and what follows for every pair of its
members from checks between neighbours. -/
namespace AgentPassport.DelegationChain
open JsText Js CanonicalJcs PlainData DelegationSchema DelegationCompare DelegationVerify Outcome
open CanonicalInjective

/-- Everything the phases after the first ask of a chain. -/
structure Accepted (P : Primitives) (options : AuthorityChainVerificationOptions) (now : Str)
    (chain : List ShapedRecord) : Prop where
  ids : ∀ r ∈ chain,
    computeAuthorityDelegationId P (authorityDelegationBody r.value) = .ok r.delegation.delegationId
  signatures : ∀ r ∈ chain, ∃ key,
    options.resolveVerificationKey r.delegation.issuer r.delegation.verificationMethod
      r.delegation.issuedAt = .key key ∧ isKeyMaterial key = true ∧
    verifyAuthorityDelegationSignature P r.value r.delegation.signature key = .ok true
  distinct : (chain.map (fun r => r.delegation.delegationId)).Nodup
  trusted : ∀ root ∈ chain.head?, ∃ trustRoot, options.trustRoot = some trustRoot ∧
    trustRoot (snapshotPlainData (plain root.value)) = .decided true
  rootParent : ∀ root ∈ chain.head?, root.delegation.parentDelegationId = none
  linked : chain.IsChain (fun parent child =>
    child.delegation.parentDelegationId = some parent.delegation.delegationId)
  continuous : chain.IsChain (fun parent child => child.delegation.issuer = parent.delegation.subject)
  issued : chain.IsChain (fun parent child =>
    parent.delegation.authority.time.notBefore ≤ child.delegation.issuedAt ∧
      child.delegation.issuedAt < parent.delegation.authority.time.notAfter)
  narrowing : chain.IsChain (fun parent child =>
    compareAuthority parent.delegation.authority child.delegation.authority = [])
  current : ∀ r ∈ chain, r.delegation.authority.time.notBefore ≤ now ∧
    now < r.delegation.authority.time.notAfter
  active : ∀ r ∈ chain, options.resolveRevocation (snapshotPlainData (plain r.value)) = .active

def memberBodies (slots : List (Option CallerValue)) : Set JsValue :=
  {body | ∃ v, some v ∈ slots ∧ body = authorityDelegationBody (snapshotPlainData v)}

/-- Among these bodies, equal content addresses come from equal bodies. -/
def AddressInjectiveOn (P : Primitives) (bodies : Set JsValue) : Prop :=
  ∀ a ∈ bodies, ∀ b ∈ bodies, ∀ id, computeAuthorityDelegationId P a = .ok id →
    computeAuthorityDelegationId P b = .ok id → Same a b

theorem AddressInjectiveOn.mono {P : Primitives} {bodies bodies' : Set JsValue}
    (h : AddressInjectiveOn P bodies) (hsub : bodies' ⊆ bodies) : AddressInjectiveOn P bodies' :=
  fun a ha b hb => h a (hsub ha) b (hsub hb)

section Phases
variable {P : Primitives} {options : AuthorityChainVerificationOptions}

theorem refuseAt_ne_ok {state : Refusal} {code : AuthorityFailureCode} {i : Nat} {message : String} :
    refuseAt state code i message ≠ .ok () := by
  intro h
  cases h

theorem orThrow_eq_ok {α : Type} {x : Except JcsError α} {a : α} : orThrow x = .ok a ↔ x = .ok a := by
  cases x with
  | error e => simp [orThrow]
  | ok b => simp [orThrow]

theorem checkId_ok (i : Nat) (r : ShapedRecord) : checkId P i r = .ok () ↔
    computeAuthorityDelegationId P (authorityDelegationBody r.value) = .ok r.delegation.delegationId := by
  unfold checkId
  rw [bind_eq_ok]
  constructor
  · rintro ⟨id, hid, h⟩
    split at h
    · exact absurd h refuseAt_ne_ok
    · rename_i heq
      rw [orThrow_eq_ok.mp hid, not_not.mp heq]
  · intro h
    exact ⟨_, orThrow_eq_ok.mpr h, by simp [pure, Except.pure]⟩

theorem usableKey_eq_ok {answer : KeyAnswer} {key : Str} :
    usableKey answer = .ok key ↔ answer = .key key ∧ isKeyMaterial key = true := by
  cases answer with
  | key material =>
    rw [usableKey]
    split
    · rename_i hmaterial
      simp only [Except.ok.injEq, KeyAnswer.key.injEq]
      constructor
      · rintro rfl
        exact ⟨rfl, hmaterial⟩
      · rintro ⟨rfl, -⟩
        rfl
    · rename_i hmaterial
      simp only [reduceCtorEq, KeyAnswer.key.injEq, false_iff]
      rintro ⟨rfl, hkey⟩
      exact hmaterial hkey
  | outcome name =>
    simp only [usableKey]
    split_ifs <;> simp
  | other => simp [usableKey]

theorem checkSignature_ok (i : Nat) (r : ShapedRecord) : checkSignature P options i r = .ok () ↔
    ∃ key, options.resolveVerificationKey r.delegation.issuer r.delegation.verificationMethod
      r.delegation.issuedAt = .key key ∧ isKeyMaterial key = true ∧
      verifyAuthorityDelegationSignature P r.value r.delegation.signature key = .ok true := by
  unfold checkSignature
  constructor
  · intro h
    split at h
    · exact absurd h refuseAt_ne_ok
    · rename_i key hkey
      obtain ⟨hanswer, hmaterial⟩ := usableKey_eq_ok.mp hkey
      obtain ⟨verified, hverified, h⟩ := bind_eq_ok.mp h
      refine ⟨key, hanswer, hmaterial, ?_⟩
      cases verified with
      | true => exact orThrow_eq_ok.mp hverified
      | false => exact absurd h refuseAt_ne_ok
  · rintro ⟨key, hanswer, hmaterial, hverified⟩
    rw [usableKey_eq_ok.mpr ⟨hanswer, hmaterial⟩]
    exact bind_eq_ok.mpr ⟨true, orThrow_eq_ok.mpr hverified, rfl⟩

theorem checkDistinct_ok (chain : List ShapedRecord) : ∀ (i : Nat) (seen : List Str),
    checkDistinct i seen chain = .ok () ↔ (chain.map (fun r => r.delegation.delegationId)).Nodup ∧
      ∀ r ∈ chain, r.delegation.delegationId ∉ seen := by
  induction chain with
  | nil =>
    intro i seen
    simp [checkDistinct]
  | cons r rest ih =>
    intro i seen
    rw [checkDistinct]
    split
    · rename_i hseen
      refine iff_of_false refuseAt_ne_ok ?_
      rintro ⟨-, hall⟩
      exact hall r List.mem_cons_self hseen
    · rename_i hnew
      rw [ih, List.map_cons, List.nodup_cons, List.forall_mem_cons]
      constructor
      · rintro ⟨hnodup, hall⟩
        refine ⟨⟨?_, hnodup⟩, hnew, fun x hx hmem => hall x hx (List.mem_cons_of_mem _ hmem)⟩
        intro hmem
        obtain ⟨x, hx, heq⟩ := List.mem_map.mp hmem
        exact hall x hx (heq ▸ List.mem_cons_self)
      · rintro ⟨⟨hhead, hnodup⟩, -, hall⟩
        refine ⟨hnodup, ?_⟩
        intro x hx hmem
        obtain heq | hmem := List.mem_cons.mp hmem
        · exact hhead (heq ▸ List.mem_map_of_mem hx)
        · exact hall x hx hmem

theorem checkRootTrust_ok (root : ShapedRecord) : checkRootTrust options root = .ok () ↔
    ∃ trustRoot, options.trustRoot = some trustRoot ∧
      trustRoot (snapshotPlainData (plain root.value)) = .decided true := by
  unfold checkRootTrust
  split
  · rename_i hnone
    refine iff_of_false refuseAt_ne_ok ?_
    rintro ⟨trustRoot, hsome, -⟩
    rw [hnone] at hsome
    cases hsome
  · rename_i trustRoot hsome
    have hiff : (∃ t, options.trustRoot = some t ∧
        t (snapshotPlainData (plain root.value)) = .decided true) ↔
        trustRoot (snapshotPlainData (plain root.value)) = .decided true := by
      simp [hsome]
    rw [hiff]
    cases trustRoot (snapshotPlainData (plain root.value)) with
    | threw => exact iff_of_false refuseAt_ne_ok (by simp)
    | notBoolean => exact iff_of_false refuseAt_ne_ok (by simp)
    | decided trusted =>
      cases trusted with
      | false => exact iff_of_false refuseAt_ne_ok (by simp)
      | true => simp

theorem refuse_ite_ok {c : Prop} [Decidable c] {state : Refusal} {code : AuthorityFailureCode} {i : Nat}
    {message : String} : (if c then refuseAt state code i message else .ok ()) = .ok () ↔ ¬ c := by
  split
  · rename_i hc
    exact iff_of_false refuseAt_ne_ok (not_not.mpr hc)
  · rename_i hc
    exact iff_of_true rfl hc

theorem checkRoot_ok (chain : List ShapedRecord) : checkRoot options chain = .ok () ↔
    (∀ root ∈ chain.head?, ∃ trustRoot, options.trustRoot = some trustRoot ∧
      trustRoot (snapshotPlainData (plain root.value)) = .decided true) ∧
    ∀ root ∈ chain.head?, root.delegation.parentDelegationId = none := by
  cases chain with
  | nil => simp [checkRoot]
  | cons root rest =>
    rw [checkRoot, bind_unit_eq_ok, checkRootTrust_ok, checkRootParent, refuse_ite_ok, not_not]
    simp

theorem checkParent_ok (i : Nat) (parent child : ShapedRecord) : checkParent i parent child = .ok () ↔
    child.delegation.parentDelegationId = some parent.delegation.delegationId := by
  rw [checkParent, refuse_ite_ok, not_not]

theorem checkContinuity_ok (i : Nat) (parent child : ShapedRecord) :
    checkContinuity i parent child = .ok () ↔ child.delegation.issuer = parent.delegation.subject := by
  rw [checkContinuity, refuse_ite_ok, not_not]

theorem checkIssuance_ok (i : Nat) (parent child : ShapedRecord) : checkIssuance i parent child = .ok () ↔
    parent.delegation.authority.time.notBefore ≤ child.delegation.issuedAt ∧
      child.delegation.issuedAt < parent.delegation.authority.time.notAfter := by
  rw [checkIssuance, refuse_ite_ok, not_or, List.not_lt, List.not_le]

theorem checkNarrowing_ok (i : Nat) (parent child : ShapedRecord) : checkNarrowing i parent child = .ok () ↔
    compareAuthority parent.delegation.authority child.delegation.authority = [] := by
  unfold checkNarrowing
  simp only
  split
  · rename_i hne
    constructor
    · intro h
      cases h
    · intro h
      exact absurd h hne
  · rename_i heq
    exact iff_of_true rfl (not_not.mp heq)

theorem checkCurrent_ok (now : Str) (i : Nat) (r : ShapedRecord) : checkCurrent now i r = .ok () ↔
    r.delegation.authority.time.notBefore ≤ now ∧ now < r.delegation.authority.time.notAfter := by
  unfold checkCurrent
  split
  · rename_i hearly
    refine iff_of_false refuseAt_ne_ok ?_
    rintro ⟨hstart, -⟩
    exact List.not_lt.mpr hstart hearly
  · rename_i hstarted
    rw [refuse_ite_ok, List.not_le]
    exact (and_iff_right (List.not_lt.mp hstarted)).symm

theorem checkRevocation_ok (i : Nat) (r : ShapedRecord) : checkRevocation options i r = .ok () ↔
    options.resolveRevocation (snapshotPlainData (plain r.value)) = .active := by
  unfold checkRevocation
  split
  · rename_i h
    exact iff_of_false refuseAt_ne_ok (by simp [h])
  · rename_i h
    exact iff_of_false refuseAt_ne_ok (by simp [h])
  · rename_i h
    exact iff_of_true rfl h

theorem verifyChain_ok (now : Str) (chain : List ShapedRecord) :
    verifyChain P options now chain = .ok () ↔ Accepted P options now chain := by
  unfold verifyChain
  simp only [bind_unit_eq_ok]
  rw [forEach_eq_ok checkId_ok, forEach_eq_ok checkSignature_ok, checkDistinct_ok, checkRoot_ok,
    forPairs_eq_ok checkParent_ok, forPairs_eq_ok checkContinuity_ok, forPairs_eq_ok checkIssuance_ok,
    forPairs_eq_ok checkNarrowing_ok, forEach_eq_ok (checkCurrent_ok now), forEach_eq_ok checkRevocation_ok]
  constructor
  · rintro ⟨hids, hsigs, ⟨hdistinct, -⟩, ⟨htrust, hroot⟩, hlinked, hcont, hissued, hnarrow, hcurrent, hactive⟩
    exact ⟨hids, hsigs, hdistinct, htrust, hroot, hlinked, hcont, hissued, hnarrow, hcurrent, hactive⟩
  · intro h
    exact ⟨h.ids, h.signatures, ⟨h.distinct, fun _ _ => List.not_mem_nil⟩, ⟨h.trusted, h.rootParent⟩,
      h.linked, h.continuous, h.issued, h.narrowing, h.current, h.active⟩

end Phases

theorem shapeAll_ok (members : List CallerValue) : ∀ (i : Nat) (chain : List ShapedRecord),
    shapeAll i members = .ok chain ↔ chain.map ShapedRecord.value = members.map snapshotPlainData := by
  induction members with
  | nil =>
    intro i chain
    simp only [shapeAll, pure, Except.pure, Except.ok.injEq, List.map_nil, List.map_eq_nil_iff]
    exact eq_comm
  | cons member rest ih =>
    intro i chain
    rw [shapeAll]
    split
    · rename_i h
      rw [bind_eq_ok]
      constructor
      · rintro ⟨tail, htail, hchain⟩
        cases hchain
        rw [List.map_cons, List.map_cons, (ih _ _).mp htail]
      · intro hchain
        cases chain with
        | nil => cases hchain
        | cons r tail =>
          obtain ⟨hr, htail⟩ := List.cons.inj hchain
          obtain ⟨value, shape⟩ := r
          cases hr
          exact ⟨tail, (ih _ _).mpr htail, rfl⟩
    · rename_i h
      constructor
      · intro hthrow
        cases hthrow
      · intro hchain
        cases chain with
        | nil => cases hchain
        | cons r tail =>
          obtain ⟨hr, -⟩ := List.cons.inj hchain
          have hshape : validateAuthorityDelegationShape (plain (snapshotPlainData member)) = [] := by
            rw [validateAuthorityDelegationShape, snapshot_idem, ← hr]
            exact r.shape
          exact absurd hshape h

section
variable {P : Primitives} {options : AuthorityChainVerificationOptions}

theorem settle_valid {x : Except Exit Unit} {r : AuthorityValidationResult} (h : settle x = .ok r)
    (hvalid : r.state = .valid) : x = .ok () := by
  unfold settle at h
  split at h
  · rfl
  · rename_i state failures
    cases h
    cases state <;> cases hvalid
  · cases h

/-- A chain is valid exactly when its container can be read, the clock is canonical, every
member has the shape of a record, and the records are accepted. -/
theorem verify_valid_iff (rawChain : CallerValue) :
    (∃ r, verifyAuthorityDelegationChain P options rawChain = .ok r ∧ r.state = .valid) ↔
      ∃ members now chain, readPlainDataChainContainer 1 256 rawChain = .ok members ∧
        str? options.now = some now ∧ canonicalTimestamp now = true ∧
        chain.map ShapedRecord.value = members.map snapshotPlainData ∧ Accepted P options now chain := by
  unfold verifyAuthorityDelegationChain
  constructor
  · rintro ⟨r, h, hvalid⟩
    split at h
    · cases h
      cases hvalid
    · cases h
      cases hvalid
    rename_i members hmembers
    split at h
    · cases h
      cases hvalid
    rename_i now hnow
    split at h
    · cases h
      cases hvalid
    rename_i hcanonical
    obtain ⟨chain, hshape, hverify⟩ := bind_eq_ok.mp (settle_valid h hvalid)
    exact ⟨members, now, chain, hmembers, hnow, by simpa using hcanonical, (shapeAll_ok _ _ _).mp hshape,
      (verifyChain_ok now chain).mp hverify⟩
  · rintro ⟨members, now, chain, hmembers, hnow, hcanonical, hchain, haccepted⟩
    refine ⟨⟨.valid, []⟩, ?_, rfl⟩
    have hrun : (do
        let chain ← shapeAll 0 members
        verifyChain P options now chain) = .ok () :=
      bind_eq_ok.mpr ⟨chain, (shapeAll_ok _ _ _).mpr hchain, (verifyChain_ok now chain).mpr haccepted⟩
    simp only [hmembers, hnow, hcanonical, Bool.not_true, Bool.false_eq_true, if_false, hrun]
    rfl

variable {chain : List ShapedRecord}

/-- By induction on the distance: what neighbours narrow, every descendant narrows. -/
theorem Accepted.narrower {now : Str} (h : Accepted P options now chain) {i j : Nat} (hij : i < j)
    (hj : j < chain.length) : Narrower (j - i) chain[i].delegation.authority chain[j].delegation.authority := by
  have hneighbours := List.isChain_iff_getElem.mp h.narrowing
  induction j with
  | zero => omega
  | succ k ih =>
    have hlast := narrower_of_compare (hneighbours k hj)
    by_cases hik : i = k
    · subst hik
      have hone : i + 1 - i = 1 := by omega
      rw [hone]
      exact hlast
    · have hprev := ih (by omega) (by omega)
      have hsum : k + 1 - i = (k - i) + 1 := by omega
      rw [hsum]
      exact hprev.trans chain[i].wellFormed hlast

theorem Accepted.length_le {now : Str} (h : Accepted P options now chain) :
    ∀ root ∈ chain.head?, chain.length ≤ root.delegation.authority.remaining + 1 := by
  intro root hroot
  cases chain with
  | nil => cases hroot
  | cons first rest =>
    cases hroot
    by_cases hrest : rest = []
    · rw [hrest]
      simp
    · have hpos := List.length_pos_of_ne_nil hrest
      have hdepth := (h.narrower hpos (by simp)).depth
      simp only [List.getElem_cons_zero] at hdepth
      rw [List.length_cons]
      omega

theorem Accepted.length_le_256 {now : Str} (h : Accepted P options now chain) : chain.length ≤ 256 := by
  cases chain with
  | nil => simp
  | cons root rest =>
    have hlen := h.length_le root rfl
    have hdepth := root.wellFormed.remaining
    omega

end

/-- A chain that verifies as valid narrows between all pairs of its members, is linked from
each member to the next, is current, and is no longer than its root's depth allows. -/
theorem valid_chain_narrows (P : Primitives) (options : AuthorityChainVerificationOptions)
    (rawChain : CallerValue) {r : AuthorityValidationResult}
    (h : verifyAuthorityDelegationChain P options rawChain = .ok r) (hvalid : r.state = .valid) :
    ∃ (members : List CallerValue) (now : Str) (chain : List ShapedRecord),
      readPlainDataChainContainer 1 256 rawChain = .ok members ∧
      str? options.now = some now ∧ chain.map ShapedRecord.value = members.map snapshotPlainData ∧
      (∀ i j (_ : i < j) (_ : j < chain.length),
        Narrower (j - i) chain[i].delegation.authority chain[j].delegation.authority) ∧
      (∀ k (_ : k + 1 < chain.length),
        chain[k + 1].delegation.issuer = chain[k].delegation.subject ∧
        chain[k + 1].delegation.parentDelegationId = some chain[k].delegation.delegationId) ∧
      (∀ record ∈ chain, record.delegation.authority.time.notBefore ≤ now ∧
        now < record.delegation.authority.time.notAfter) ∧
      ∀ root ∈ chain.head?, chain.length ≤ root.delegation.authority.remaining + 1 := by
  obtain ⟨members, now, chain, hmembers, hnow, -, hchain, haccepted⟩ := (verify_valid_iff rawChain).mp ⟨r, h, hvalid⟩
  refine ⟨members, now, chain, hmembers, hnow, hchain, ?_, ?_, haccepted.current, haccepted.length_le⟩
  · intro i j hij hj
    exact haccepted.narrower hij hj
  · intro k hk
    exact ⟨List.isChain_iff_getElem.mp haccepted.continuous k hk,
      List.isChain_iff_getElem.mp haccepted.linked k hk⟩

/-! ### A chain of two records

The digests and signatures are those of SHA-256 and Ed25519 on the preimages of the two
records, which are told apart by their lengths. -/

def sampleAuthority (grant perAction cumulative : String) (remaining : Double) : JsValue :=
  .obj [(lit "scope", .obj [(lit "profile", .str SCOPE_PROFILE_V1),
      (lit "grants", .arr [.str (lit grant)])]),
    (lit "spend", .obj [(lit "mode", .str (lit "bounded")), (lit "unit", .str (lit "USD")),
      (lit "per_action", .str (lit perAction)), (lit "cumulative", .str (lit cumulative))]),
    (lit "depth", .obj [(lit "remaining", .num (.finite remaining))]),
    (lit "time", .obj [(lit "not_before", .str (lit "2026-01-01T00:00:00.000Z")),
      (lit "not_after", .str (lit "2026-02-01T00:00:00.000Z"))]),
    (lit "reputation", .obj [(lit "profile", .str REPUTATION_PROFILE_V1), (lit "ceiling", .num (.finite .one))]),
    (lit "values", .obj [(lit "profile", .str VALUES_PROFILE_V1), (lit "required", .arr [])]),
    (lit "reversibility", .obj [(lit "profile", .str REVERSIBILITY_PROFILE_V1),
      (lit "ceiling", .str (lit "tentative"))])]

def sampleBody (parent : JsValue) (issuer subject : String) (authority : JsValue) : List (Str × JsValue) :=
  [(lit "record_type", .str AUTHORITY_DELEGATION_RECORD_TYPE),
    (lit "version", .str AUTHORITY_DELEGATION_VERSION), (lit "parent_delegation_id", parent),
    (lit "issuer", .str (lit issuer)), (lit "subject", .str (lit subject)),
    (lit "verification_method", .str (lit (issuer ++ "#key"))),
    (lit "issued_at", .str (lit "2026-01-01T00:00:00.000Z")),
    (lit "nonce", .str (lit "00000000000000000000000000000000")), (lit "authority", authority)]

def rootDigest : Str :=
  ["8456a60df1e8d710", "e076739ec0e16366", "090f5310e46892cc", "e31d6b129465f3ee"].flatMap lit

def childDigest : Str :=
  ["ede161da44321a1a", "29e4626dbf67bdad", "2bf232bab729cadf", "b637090131c4835c"].flatMap lit

def rootKey : Str :=
  ["8a88e3dd7409f195", "fd52db2d3cba5d72", "ca6709bf1d94121b", "f3748801b40f6f5c"].flatMap lit

def childKey : Str :=
  ["8139770ea87d175f", "56a35466c34c7ecc", "cb8d8a91b4ee37a2", "5df60f5b8fc9b394"].flatMap lit

def childPrivateKey : Str :=
  ["0202020202020202", "0202020202020202", "0202020202020202", "0202020202020202"].flatMap lit

def rootSignature : Str :=
  ["bc5114c12f771caa", "1ce057ff66d5d6ff", "62baeaeafdb567e7", "60fc649f3ca20a86",
    "3cb2ef259edd048f", "f435a9956dfec27e", "c438e3e3af2e3d9a", "36fb69d810357806"].flatMap lit

def childSignature : Str :=
  ["cc66097e61bd72b4", "bd00b20895be963c", "85feb56cd8d8c03d", "7b92f0912833756f",
    "c65c01d7826c3878", "ff89b8d97565cbb7", "a4fc48bfce996369", "057fd18a197f0904"].flatMap lit

def samplePrimitives : Primitives where
  numText := integerText
  sha256Hex m := if m.length = 725 then rootDigest else childDigest
  sign m key := if m.length = 893 ∧ key = childPrivateKey then some childSignature else none
  verify m signature key :=
    (m.length = 822 && signature = rootSignature && key = rootKey) ||
      (m.length = 893 && signature = childSignature && key = childKey)

def sampleOptions : AuthorityChainVerificationOptions where
  now := .str (lit "2026-01-15T12:00:00.000Z")
  resolveVerificationKey issuer _ _ := if issuer = lit "did:root" then .key rootKey else .key childKey
  trustRoot := some (fun _ => .decided true)
  resolveRevocation _ := .active

def rootBody : List (Str × JsValue) :=
  sampleBody .null "did:root" "did:mid" (sampleAuthority "data:*" "5" "9" .one)

def rootRecord : JsValue :=
  .obj (rootBody ++ [(lit "delegation_id", JsValue.str (lit "sha256:" ++ rootDigest)),
    (lit "signature", .str rootSignature)])

theorem zero_canonical : (0 : Nat) < 2 ^ 53 ∧ (-1074 : Int) ≤ -1074 ∧ (-1074 : Int) ≤ 971 ∧
    (2 ^ 52 ≤ (0 : Nat) ∨ (-1074 : Int) = -1074) := by decide

def childBody : List (Str × JsValue) :=
  sampleBody (.str (lit "sha256:" ++ rootDigest)) "did:mid" "did:leaf"
    (sampleAuthority "data:read" "4" "8" ⟨false, 0, -1074, zero_canonical⟩)

def childRecord : JsValue :=
  .obj (childBody ++ [(lit "delegation_id", JsValue.str (lit "sha256:" ++ childDigest)),
    (lit "signature", .str childSignature)])

theorem valid_chain_narrows_two :
    verifyAuthorityDelegationChain samplePrimitives sampleOptions (plain (.arr [rootRecord, childRecord])) =
      .ok ⟨.valid, []⟩ ∧
    ∃ chain : List ShapedRecord, chain.length = 2 ∧ ∃ _ : 1 < chain.length,
      Narrower 1 chain[0].delegation.authority chain[1].delegation.authority := by
  have hverify : verifyAuthorityDelegationChain samplePrimitives sampleOptions
      (plain (.arr [rootRecord, childRecord])) = .ok ⟨.valid, []⟩ := by decide +kernel
  refine ⟨hverify, ?_⟩
  obtain ⟨members, now, chain, hmembers, -, hchain, hpairs, -⟩ :=
    valid_chain_narrows samplePrimitives sampleOptions _ hverify rfl
  have hlen : chain.length = 2 := by
    cases hmembers
    have := congrArg List.length hchain
    rwa [List.length_map, List.length_map] at this
  exact ⟨chain, hlen, by omega, hpairs 0 1 (by decide) (by omega)⟩

end AgentPassport.DelegationChain
