import AgentPassport.RevocationEvidence

/-! Revocation evidence is a fold over sets: what the rows say of the artifacts read. -/
namespace AgentPassport.EvidenceLaws
open JsText Js CanonicalJcs LegacyCanonical CanonicalRead EvidenceRows Utf8 Sha256 BindingRevocation Outcome
open RevocationEvidence
open CanonicalInjective (NumberRendering integerText integerText_rendering)
open CanonicalBytes (emit_text)
open CanonicalWrite (agrees)
open DelegationSchema (str?)

abbrev ArtifactFinding := Finding Subject Str RevocationArtifactEntry Failure

section
variable (R : Runtime)

/-- What an artifact comes to when it has been checked. -/
def admitted (artifact : JsValue) (subject : Subject) (refId : Str) : Option Failure → ArtifactFinding
  | some failure => .discarded subject failure
  | none =>
    match revocationArtifactDigest R artifact with
    | .error _ => .discarded subject ⟨.invalid, lit "artifact has no canonical form at the write boundary"⟩
    | .ok digest => .survived subject digest ⟨digest, refId⟩

def findingOf (input : RevocationVerificationInput) (artifact : JsValue) : Except EvidenceError ArtifactFinding :=
  match classify artifact with
  | .unclassifiable reason => return .unplaced ⟨.malformed, reason⟩
  | .delegation record => do
    let failure ← checkDelegationArtifact R record input.delegations
    return admitted R artifact (.delegation, record.delegationId) record.revocationId failure
  | .principal_binding id record => do
    let failure ← checkBindingArtifact R id record input.bindings input.resolver
    return admitted R artifact (.principal_binding, id) ((str? (record.get (lit "revocation_id"))).getD []) failure

variable {R}

theorem addArtifact_eq (st : Subjects) (index : Nat) (artifact : JsValue) (subject : Subject) (refId : Str)
    (failure : Option Failure) :
    addArtifact R st index artifact subject refId failure =
      st.place subjectKey index (admitted R artifact subject refId failure) := by
  cases failure with
  | some failure => rfl
  | none =>
    cases hdigest : revocationArtifactDigest R artifact with
    | error e => simp [addArtifact, admitted, hdigest, setRow, Rows.place, Finding.subject?, Row.receive]
    | ok digest =>
      by_cases hseen : ((st.row subjectKey subject).artifacts.get digest).isSome
      · simp [addArtifact, admitted, hdigest, setRow, Rows.place, Finding.subject?, Row.receive, hseen]
      · simp [addArtifact, admitted, hdigest, setRow, Rows.place, Finding.subject?, Row.receive, hseen]

theorem readArtifact_eq (input : RevocationVerificationInput) (st : Subjects) (index : Nat) (artifact : JsValue) :
    readArtifact R input st index artifact = (findingOf R input artifact).map (st.place subjectKey index) := by
  cases hclass : classify artifact with
  | unclassifiable reason =>
    simp only [readArtifact, findingOf, hclass]
    rfl
  | delegation record =>
    simp only [readArtifact, findingOf, hclass, addArtifact_eq]
    cases checkDelegationArtifact R record input.delegations with
    | error e => rfl
    | ok failure => rfl
  | principal_binding id record =>
    simp only [readArtifact, findingOf, hclass, addArtifact_eq]
    cases checkBindingArtifact R id record input.bindings input.resolver with
    | error e => rfl
    | ok failure => rfl

variable (R) in
/-- The finding of an artifact whose checks throw nothing. -/
def finding (input : RevocationVerificationInput) (artifact : Artifact) : ArtifactFinding :=
  match findingOf R input artifact.value with
  | .ok f => f
  | .error _ => .unplaced ⟨.malformed, []⟩

theorem readArtifacts_ok (input : RevocationVerificationInput) (artifacts : List Artifact) :
    ∀ (st st' : Subjects) (index : Nat), readArtifacts R input st index artifacts = .ok st' ↔
      (∀ a ∈ artifacts, (findingOf R input a.value).isOk = true) ∧
        st' = st.run subjectKey index (artifacts.map (finding R input)) := by
  induction artifacts with
  | nil =>
    intro st st' index
    constructor
    · intro h
      cases h
      exact ⟨by simp, rfl⟩
    · intro h
      rw [h.2]
      rfl
  | cons a rest ih =>
    intro st st' index
    rw [readArtifacts, readArtifact_eq, List.forall_mem_cons, List.map_cons, Rows.run]
    cases hfinding : findingOf R input a.value with
    | error e =>
      refine iff_of_false ?_ ?_
      · intro h
        cases h
      · intro h
        cases h.1.1
    | ok f =>
      have hf : finding R input a = f := by rw [finding, hfinding]
      rw [hf]
      exact (ih (st.place subjectKey index f) st' (index + 1)).trans
        ⟨fun h => ⟨⟨rfl, h.1⟩, h.2⟩, fun h => ⟨h.1.2, h.2⟩⟩

def subjectOf (artifact : JsValue) : Option Subject :=
  match classify artifact with
  | .unclassifiable _ => none
  | .delegation record => some (.delegation, record.delegationId)
  | .principal_binding id _ => some (.principal_binding, id)

variable (R)

def Passes (input : RevocationVerificationInput) (artifact : JsValue) : Prop :=
  match classify artifact with
  | .unclassifiable _ => False
  | .delegation record =>
    verifyRevocation R record = .ok true ∧
      ∃ d, input.delegations.get record.delegationId = some d ∧ record.revokedBy = d.delegatedBy
  | .principal_binding id record =>
    (∃ verified, verifyPrincipalBindingRevocationV1 R record input.resolver = .ok verified ∧
      verified.state = .valid) ∧ (input.bindings.get id).isSome = true

def HasForm (artifact : JsValue) : Prop := ∃ text, canonicalizeJCSForWrite R.numText artifact = .ok text

/-- What has to be canonicalized before a signature or an identifier can be looked at has a text. -/
def Readable (artifact : JsValue) : Prop :=
  match classify artifact with
  | .unclassifiable _ => True
  | .delegation record => (canonicalize R.numText (omitMember (lit "signature") record.value)).isOk = true
  | .principal_binding _ record =>
    validateRevocation R record = true → (canonicalizeJCS R.numText (idForm record)).isOk = true

/-- Delegations and bindings stand under their own identifiers. -/
structure KeyedByOwnIds (input : RevocationVerificationInput) : Prop where
  delegations : ∀ id d, input.delegations.get id = some d → d.delegationId = id
  bindings : ∀ id b, input.bindings.get id = some b → b.binding_id = id

variable {R}

variable {record : RevocationRecord}

theorem checkDelegation_none {input : RevocationVerificationInput} (hkeyed : KeyedByOwnIds input) :
    checkDelegationArtifact R record input.delegations = .ok none ↔
      verifyRevocation R record = .ok true ∧
        ∃ d, input.delegations.get record.delegationId = some d ∧ record.revokedBy = d.delegatedBy := by
  rw [checkDelegationArtifact]
  cases hverify : verifyRevocation R record with
  | error e => simp [throw, throwThe, MonadExceptOf.throw]
  | ok verified =>
    cases verified with
    | false => simp [pure, Except.pure]
    | true =>
      cases hget : input.delegations.get record.delegationId with
      | none => simp [pure, Except.pure]
      | some d =>
        have hid := hkeyed.delegations _ _ hget
        by_cases hby : record.revokedBy = d.delegatedBy
        · simp [hid, hby, pure, Except.pure]
        · simp [hid, hby, pure, Except.pure]

theorem checkBinding_none {input : RevocationVerificationInput} (hkeyed : KeyedByOwnIds input) {id : Str}
    {record : JsValue} : checkBindingArtifact R id record input.bindings input.resolver = .ok none ↔
      (∃ verified, verifyPrincipalBindingRevocationV1 R record input.resolver = .ok verified ∧
        verified.state = .valid) ∧ (input.bindings.get id).isSome = true := by
  rw [checkBindingArtifact]
  cases hverify : verifyPrincipalBindingRevocationV1 R record input.resolver with
  | error e => simp [throw, throwThe, MonadExceptOf.throw]
  | ok verified =>
    by_cases hvalid : verified.state = .valid
    · cases hget : input.bindings.get id with
      | none => simp [hvalid, pure, Except.pure]
      | some b =>
        have hid := hkeyed.bindings _ _ hget
        simp [hvalid, hid, pure, Except.pure]
    · simp [hvalid, pure, Except.pure]

theorem verified_of_check {id : Str} {record : JsValue} {bindings : OrderedMap Str PrincipalBinding}
    {resolver : HistoricalKeyResolver} (h : checkBindingArtifact R id record bindings resolver = .ok none) :
    ∃ verified, verifyPrincipalBindingRevocationV1 R record resolver = .ok verified ∧ verified.state = .valid := by
  rw [checkBindingArtifact] at h
  cases hverify : verifyPrincipalBindingRevocationV1 R record resolver with
  | error e =>
    rw [hverify] at h
    cases h
  | ok verified =>
    rw [hverify] at h
    dsimp only at h
    by_cases hvalid : verified.state = .valid
    · exact ⟨verified, rfl, hvalid⟩
    · rw [if_pos hvalid] at h
      cases h

theorem admitted_subject (artifact : JsValue) (subject : Subject) (refId : Str) (failure : Option Failure) :
    (admitted R artifact subject refId failure).subject? = some subject := by
  cases failure with
  | some failure => rfl
  | none =>
    cases hdigest : revocationArtifactDigest R artifact with
    | error e => simp [admitted, hdigest, Finding.subject?]
    | ok digest => simp [admitted, hdigest, Finding.subject?]

variable {artifact : JsValue}

theorem digest_ok {digest : Str} : revocationArtifactDigest R artifact = .ok digest ↔
    ∃ text, canonicalizeJCSForWrite R.numText artifact = .ok text ∧
      lit "sha256:" ++ hex (R.sha256 (preimage text)) = digest := by
  simp [revocationArtifactDigest, bind_eq_ok, pure, Except.pure]

theorem admitted_survived {subject s : Subject} {refId d : Str} {failure : Option Failure} {e : RevocationArtifactEntry} :
    admitted R artifact subject refId failure = .survived s d e ↔
      failure = none ∧ s = subject ∧ revocationArtifactDigest R artifact = .ok d ∧ e = ⟨d, refId⟩ := by
  cases failure with
  | some failure => simp [admitted]
  | none =>
    cases hdigest : revocationArtifactDigest R artifact with
    | error e => simp [admitted, hdigest]
    | ok digest =>
      simp only [admitted, hdigest, Finding.survived.injEq, true_and, Except.ok.injEq]
      constructor
      · intro h
        obtain ⟨rfl, rfl, rfl⟩ := h
        exact ⟨rfl, rfl, rfl⟩
      · intro h
        obtain ⟨rfl, rfl, rfl⟩ := h
        exact ⟨rfl, rfl, rfl⟩

theorem nonEmptyString_get {name : String} {s : Str} (h : nonEmptyString artifact name = some s) :
    artifact.get (lit name) = .str s := by
  rw [nonEmptyString] at h
  cases hget : artifact.get (lit name) with
  | str t =>
    cases t with
    | nil => simp [hget] at h
    | cons c t => simpa [hget] using h
  | _ => simp [hget] at h

theorem classifyBinding_cases (artifact : JsValue) : (∃ reason, classifyBinding artifact = .unclassifiable reason) ∨
    ∃ id, classifyBinding artifact = .principal_binding id artifact := by
  rw [classifyBinding]
  split_ifs
  · exact .inl ⟨_, rfl⟩
  · cases nonEmptyString artifact "binding_id" with
    | none => exact .inl ⟨_, rfl⟩
    | some id => exact .inr ⟨id, rfl⟩

theorem classifyDelegation_cases (artifact : JsValue) :
    (∃ reason, classifyDelegation artifact = .unclassifiable reason) ∨
    ∃ record, classifyDelegation artifact = .delegation record ∧ record.value = artifact ∧
      artifact.get (lit "revocationId") = .str record.revocationId := by
  rw [classifyDelegation]
  cases nonEmptyString artifact "delegationId" with
  | none => exact .inl ⟨_, rfl⟩
  | some delegationId =>
    cases hid : nonEmptyString artifact "revocationId" with
    | none => exact .inl ⟨_, rfl⟩
    | some revocationId =>
      cases nonEmptyString artifact "revokedBy" with
      | none => exact .inl ⟨_, rfl⟩
      | some revokedBy =>
        cases nonEmptyString artifact "signature" with
        | none => exact .inl ⟨_, rfl⟩
        | some signature => exact .inr ⟨_, rfl, rfl, nonEmptyString_get hid⟩

theorem classify_delegation (h : classify artifact = .delegation record) : ∃ members, artifact = .obj members ∧
      ¬ (member? (lit "record_type") members).isSome = true ∧ record.value = artifact ∧
      artifact.get (lit "revocationId") = .str record.revocationId := by
  cases artifact with
  | obj members =>
    rw [classify] at h
    by_cases htype : (member? (lit "record_type") members).isSome = true
    · rw [if_pos htype] at h
      obtain ⟨reason, hclass⟩ | ⟨id, hclass⟩ := classifyBinding_cases (.obj members)
      · rw [hclass] at h
        cases h
      · rw [hclass] at h
        cases h
    · rw [if_neg htype] at h
      obtain ⟨reason, hclass⟩ | ⟨record', hclass, hvalue, hid⟩ := classifyDelegation_cases (.obj members)
      · rw [hclass] at h
        cases h
      · rw [hclass] at h
        cases h
        exact ⟨members, rfl, htype, hvalue, hid⟩
  | _ => cases h

theorem classify_binding {artifact record : JsValue} {id : Str} (h : classify artifact = .principal_binding id record) :
    record = artifact ∧ ∃ members, artifact = .obj members ∧ (member? (lit "record_type") members).isSome = true := by
  cases artifact with
  | obj members =>
    rw [classify] at h
    by_cases htype : (member? (lit "record_type") members).isSome = true
    · rw [if_pos htype] at h
      obtain ⟨reason, hclass⟩ | ⟨id', hclass⟩ := classifyBinding_cases (.obj members)
      · rw [hclass] at h
        cases h
      · rw [hclass] at h
        cases h
        exact ⟨rfl, members, rfl, htype⟩
    · rw [if_neg htype] at h
      obtain ⟨reason, hclass⟩ | ⟨record', hclass, -, -⟩ := classifyDelegation_cases (.obj members)
      · rw [hclass] at h
        cases h
      · rw [hclass] at h
        cases h
  | _ => cases h

theorem verifyRevocation_isOk : (verifyRevocation R record).isOk = true ↔
    (canonicalize R.numText (omitMember (lit "signature") record.value)).isOk = true := by
  rw [verifyRevocation]
  cases canonicalize R.numText (omitMember (lit "signature") record.value) with
  | error e => exact iff_of_false (fun h => nomatch h) (fun h => nomatch h)
  | ok text => exact iff_of_true rfl rfl

theorem checkDelegation_isOk (delegations : OrderedMap Str Delegation) :
    (checkDelegationArtifact R record delegations).isOk = true ↔ (verifyRevocation R record).isOk = true := by
  rw [checkDelegationArtifact]
  cases verifyRevocation R record with
  | error e => exact iff_of_false (fun h => nomatch h) (fun h => nomatch h)
  | ok verified =>
    refine iff_of_true ?_ rfl
    cases verified with
    | false => rfl
    | true =>
      cases delegations.get record.delegationId with
      | none => rfl
      | some d =>
        dsimp only
        split_ifs
        · rfl
        · rfl
        · rfl

theorem checkBinding_isOk (id : Str) {record : JsValue} (bindings : OrderedMap Str PrincipalBinding)
    {resolver : HistoricalKeyResolver} : (checkBindingArtifact R id record bindings resolver).isOk = true ↔
      (verifyPrincipalBindingRevocationV1 R record resolver).isOk = true := by
  rw [checkBindingArtifact]
  cases verifyPrincipalBindingRevocationV1 R record resolver with
  | error e => exact iff_of_false (fun h => nomatch h) (fun h => nomatch h)
  | ok verified =>
    refine iff_of_true ?_ rfl
    dsimp only
    split_ifs
    · rfl
    · cases bindings.get id with
      | none => rfl
      | some b =>
        dsimp only
        split_ifs
        · rfl
        · rfl

theorem findingOf_isOk (input : RevocationVerificationInput) (a : Artifact) :
    (findingOf R input a.value).isOk = true ↔ Readable R a.value := by
  rw [findingOf, Readable]
  cases hclass : classify a.value with
  | unclassifiable reason => exact iff_of_true rfl trivial
  | delegation record =>
    dsimp only
    rw [← verifyRevocation_isOk, ← checkDelegation_isOk input.delegations]
    cases checkDelegationArtifact R record input.delegations with
    | error e => exact iff_of_false (fun h => nomatch h) (fun h => nomatch h)
    | ok failure => exact iff_of_true rfl rfl
  | principal_binding id record =>
    obtain ⟨rfl, -⟩ := classify_binding hclass
    dsimp only
    rw [← verify_isOk a.made input.resolver, ← checkBinding_isOk id input.bindings]
    cases checkBindingArtifact R id a.value input.bindings input.resolver with
    | error e => exact iff_of_false (fun h => nomatch h) (fun h => nomatch h)
    | ok failure => exact iff_of_true rfl rfl

variable {a : Artifact}

theorem finding_eq {input : RevocationVerificationInput} {f : ArtifactFinding} (h : findingOf R input a.value = .ok f) :
    finding R input a = f := by
  rw [finding, h]

theorem finding_subject {input : RevocationVerificationInput} (h : Readable R a.value) :
    (finding R input a).subject? = subjectOf a.value := by
  obtain ⟨f, hf⟩ := exists_of_isOk ((findingOf_isOk input a).mpr h)
  rw [finding_eq hf]
  rw [findingOf] at hf
  rw [subjectOf]
  cases hclass : classify a.value with
  | unclassifiable reason =>
    rw [hclass] at hf
    cases hf
    rfl
  | delegation record =>
    rw [hclass] at hf
    obtain ⟨failure, -, hf⟩ := bind_eq_ok.mp hf
    cases hf
    exact admitted_subject _ _ _ _
  | principal_binding id record =>
    rw [hclass] at hf
    obtain ⟨failure, -, hf⟩ := bind_eq_ok.mp hf
    cases hf
    exact admitted_subject _ _ _ _

/-- A finding survives when the artifact passes and has a form; then it is its digest with the
identifier the artifact carries. -/
theorem finding_survived {input : RevocationVerificationInput} (hkeyed : KeyedByOwnIds input) (h : Readable R a.value)
    {s : Subject} : (∃ d e, finding R input a = .survived s d e) ↔
      subjectOf a.value = some s ∧ Passes R input a.value ∧ HasForm R a.value := by
  obtain ⟨f, hf⟩ := exists_of_isOk ((findingOf_isOk input a).mpr h)
  rw [finding_eq hf]
  rw [findingOf] at hf
  rw [subjectOf, Passes]
  have hform : (∃ d, revocationArtifactDigest R a.value = .ok d) ↔ HasForm R a.value := by
    simp only [digest_ok, HasForm]
    constructor
    · intro h
      obtain ⟨d, text, htext, -⟩ := h
      exact ⟨text, htext⟩
    · intro h
      obtain ⟨text, htext⟩ := h
      exact ⟨_, text, htext, rfl⟩
  have hadmitted : ∀ {subject : Subject} {refId : Str} {failure : Option Failure} {passes : Prop},
      (failure = none ↔ passes) → f = admitted R a.value subject refId failure →
      ((∃ d e, f = .survived s d e) ↔ some subject = some s ∧ passes ∧ HasForm R a.value) := by
    intro subject refId failure passes hpasses hf
    rw [hf, ← hpasses, ← hform, Option.some.injEq]
    simp only [admitted_survived]
    constructor
    · intro h
      obtain ⟨d, e, hfailure, hs, hd, -⟩ := h
      exact ⟨hs.symm, hfailure, d, hd⟩
    · intro h
      obtain ⟨hs, hfailure, d, hd⟩ := h
      exact ⟨d, _, hfailure, hs.symm, hd, rfl⟩
  cases hclass : classify a.value with
  | unclassifiable reason =>
    rw [hclass] at hf
    cases hf
    simp
  | delegation record =>
    rw [hclass] at hf
    obtain ⟨failure, hcheck, hf⟩ := bind_eq_ok.mp hf
    have hpasses : checkDelegationArtifact R record input.delegations = .ok none ↔ _ := checkDelegation_none hkeyed
    rw [hcheck, Except.ok.injEq] at hpasses
    exact hadmitted hpasses (Except.ok.inj hf).symm
  | principal_binding id record =>
    rw [hclass] at hf
    obtain ⟨failure, hcheck, hf⟩ := bind_eq_ok.mp hf
    have hpasses : checkBindingArtifact R id record input.bindings input.resolver = .ok none ↔ _ :=
      checkBinding_none hkeyed
    rw [hcheck, Except.ok.injEq] at hpasses
    exact hadmitted hpasses (Except.ok.inj hf).symm

/-- The digest preimages of a list of artifacts, where there is a form. -/
def preimages (R : Runtime) (artifacts : List Artifact) : List (List UInt8) :=
  artifacts.filterMap (fun a => (canonicalizeJCSForWrite R.numText a.value).toOption.map preimage)

theorem mem_preimages {artifacts : List Artifact} (ha : a ∈ artifacts) {text : Str}
    (htext : canonicalizeJCSForWrite R.numText a.value = .ok text) : preimage text ∈ preimages R artifacts :=
  List.mem_filterMap.mpr ⟨a, ha, by rw [htext]; rfl⟩

theorem preimage_inj {s t : Str} (hs : WellFormed s) (ht : WellFormed t) (h : preimage s = preimage t) : s = t := by
  have hcons := List.append_cancel_left (h : _ ++ 0 :: utf8 s = _ ++ 0 :: utf8 t)
  exact utf8_inj hs ht (List.cons.inj hcons).2

theorem form_text (hnum : NumberRendering R.numText) {text : Str}
    (h : canonicalizeJCSForWrite R.numText a.value = .ok text) : WellFormed text := by
  obtain ⟨hjson, htext⟩ := read_as _ text a.made (agrees _ _ text h).1
  exact htext ▸ emit_text hnum hjson

theorem survived_entry {input : RevocationVerificationInput} {s : Subject} {d : Str} {e : RevocationArtifactEntry}
    (h : finding R input a = .survived s d e) :
    revocationArtifactDigest R a.value = .ok d ∧ e.revocation_artifact_digest = d ∧
      ∃ members, a.value = .obj members ∧
        ((¬ (member? (lit "record_type") members).isSome = true ∧ a.value.get (lit "revocationId") = .str e.ref_id) ∨
          ((member? (lit "record_type") members).isSome = true ∧
            a.value.get (lit "revocation_id") = .str e.ref_id)) := by
  rw [finding] at h
  cases hf : findingOf R input a.value with
  | error err =>
    rw [hf] at h
    cases h
  | ok f =>
    rw [hf] at h
    subst h
    rw [findingOf] at hf
    cases hclass : classify a.value with
    | unclassifiable reason =>
      rw [hclass] at hf
      cases hf
    | delegation record =>
      rw [hclass] at hf
      obtain ⟨failure, hcheck, hf⟩ := bind_eq_ok.mp hf
      obtain ⟨-, -, hdigest, he⟩ := admitted_survived.mp (Except.ok.inj hf)
      obtain ⟨members, hobj, htype, -, hid⟩ := classify_delegation hclass
      rw [he]
      exact ⟨hdigest, rfl, members, hobj, .inl ⟨htype, hid⟩⟩
    | principal_binding id record =>
      rw [hclass] at hf
      obtain ⟨failure, hcheck, hf⟩ := bind_eq_ok.mp hf
      obtain ⟨hfailure, -, hdigest, he⟩ := admitted_survived.mp (Except.ok.inj hf)
      obtain ⟨rfl, members, hobj, htype⟩ := classify_binding hclass
      rw [he]
      refine ⟨hdigest, rfl, members, hobj, .inr ⟨htype, ?_⟩⟩
      obtain ⟨verified, hverified, hstate⟩ := verified_of_check (hfailure ▸ hcheck)
      obtain ⟨revocationId, hget⟩ := id_of_valid hverified hstate
      rw [hget]
      rfl

theorem findings_consistent (hnum : NumberRendering R.numText) {input : RevocationVerificationInput}
    {artifacts : List Artifact} (hhash : CollisionFree R.sha256 (preimages R artifacts)) :
    Consistent (artifacts.map (finding R input)) := by
  intro s d e s' e' h h'
  obtain ⟨a, ha, ha'⟩ := List.mem_map.mp h
  obtain ⟨b, hb, hb'⟩ := List.mem_map.mp h'
  obtain ⟨hdigest, hed, ms, hms, hid⟩ := survived_entry ha'
  obtain ⟨hdigest', hed', ns, hns, hid'⟩ := survived_entry hb'
  obtain ⟨text, htext, hd⟩ := digest_ok.mp hdigest
  obtain ⟨text', htext', hd'⟩ := digest_ok.mp hdigest'
  have hhex : R.sha256 (preimage text) = R.sha256 (preimage text') :=
    hex_inj (List.append_cancel_left (hd.trans hd'.symm))
  have hpreimage := hhash _ (mem_preimages ha htext) _ (mem_preimages hb htext') hhex
  have heq : text = text' := preimage_inj (form_text hnum htext) (form_text hnum htext') hpreimage
  subst heq
  have hmadea := a.made
  have hmadeb := b.made
  rw [hms] at htext hmadea
  rw [hns] at htext' hmadeb
  have hsame := same_of_text hnum hmadea hmadeb htext htext'
  have href : e.ref_id = e'.ref_id := by
    rw [hms] at hid
    rw [hns] at hid'
    have htype := same_member hsame (lit "record_type")
    obtain ⟨hnone, hid⟩ | ⟨hsome, hid⟩ := hid
    · obtain ⟨hnone', hid'⟩ | ⟨hsome', hid'⟩ := hid'
      · exact same_string hsame hid hid'
      · exact absurd (htype.mpr hsome') hnone
    · obtain ⟨hnone', hid'⟩ | ⟨hsome', hid'⟩ := hid'
      · exact absurd (htype.mp hsome) hnone'
      · exact same_string hsame hid hid'
  obtain ⟨digest, ref⟩ := e
  obtain ⟨digest', ref'⟩ := e'
  rw [RevocationArtifactEntry.mk.injEq]
  exact ⟨hed.trans hed'.symm, href⟩

end

theorem subjectKey_injective : Function.Injective subjectKey := by
  have hne : ∀ s t : Str, lit "delegation" ++ s ≠ lit "principal_binding" ++ t := by
    intro s t h
    have hhead := congrArg (List.take 1) h
    rw [List.take_append_of_le_length (by decide), List.take_append_of_le_length (by decide)] at hhead
    revert hhead
    decide
  intro a b h
  obtain ⟨kind, id⟩ := a
  obtain ⟨kind', id'⟩ := b
  cases kind with
  | delegation =>
    cases kind' with
    | delegation => exact congrArg (Prod.mk _) (List.cons.inj (List.append_cancel_left h)).2
    | principal_binding => exact absurd h (hne _ _)
  | principal_binding =>
    cases kind' with
    | delegation => exact absurd h.symm (hne _ _)
    | principal_binding => exact congrArg (Prod.mk _) (List.cons.inj (List.append_cancel_left h)).2

variable {id id' : Str}

@[simp] theorem subjectLe_same {kind : RevocationSubjectKind} : subjectLe (kind, id) (kind, id') ↔ id ≤ id' := by
  simp [subjectLe, List.lt_irrefl]

@[simp] theorem subjectLe_delegation : subjectLe (.delegation, id) (.principal_binding, id') ↔ True := by
  have hlt : kindText .delegation < kindText .principal_binding := by decide
  exact iff_true_intro (.inl hlt)

@[simp] theorem subjectLe_binding : subjectLe (.principal_binding, id) (.delegation, id') ↔ False := by
  have hlt : ¬ kindText .principal_binding < kindText .delegation := by decide
  have hne : kindText .principal_binding ≠ kindText .delegation := by decide
  simp [subjectLe, hlt, hne]

instance : Std.Total subjectLe := ⟨by
  intro ⟨kind, id⟩ ⟨kind', id'⟩
  cases kind <;> cases kind' <;> simp [List.le_total]⟩

instance : IsTrans Subject subjectLe := ⟨by
  intro ⟨kind, id⟩ ⟨kind', id'⟩ ⟨kind'', id''⟩
  cases kind <;> cases kind' <;> cases kind'' <;> simp
  · exact List.le_trans
  · exact List.le_trans⟩

instance : Std.Antisymm subjectLe := ⟨by
  intro ⟨kind, id⟩ ⟨kind', id'⟩
  cases kind <;> cases kind' <;> simp
  · exact List.le_antisymm
  · exact List.le_antisymm⟩

def subjectOfRow (r : RevocationSubjectResult) : Subject := (r.subject_kind, r.subject_id)

/-- The same row but for index fields and the order of what was discarded. -/
structure SameRow (r r' : RevocationSubjectResult) : Prop where
  subject : subjectOfRow r = subjectOfRow r'
  outcome : r.outcome = r'.outcome
  artifacts : r.artifacts = r'.artifacts
  duplicate_count : r.duplicate_count = r'.duplicate_count
  discards : (r.discards.map Prod.snd).Perm (r'.discards.map Prod.snd)

structure SameReport (result result' : RevocationVerificationResult) : Prop where
  subjects : List.Forall₂ SameRow result.subjects result'.subjects
  unclassifiable : (result.unclassifiable.map Prod.snd).Perm (result'.unclassifiable.map Prod.snd)

variable (R : Runtime)

structure SetLevel (input : RevocationVerificationInput) (result : RevocationVerificationResult) : Prop where
  distinct : (result.subjects.map subjectOfRow).Nodup
  rows : ∀ s, s ∈ result.subjects.map subjectOfRow ↔
    s ∈ seeds input ∨ ∃ a ∈ input.artifacts, subjectOf a.value = some s
  revoked : ∀ r ∈ result.subjects, r.outcome = .REVOKED ↔
    ∃ a ∈ input.artifacts, subjectOf a.value = some (subjectOfRow r) ∧ Passes R input a.value ∧ HasForm R a.value
  accounted : ∀ r ∈ result.subjects, r.artifacts.length + r.duplicate_count + r.discards.length =
    (input.artifacts.filter (fun a => subjectOf a.value = some (subjectOfRow r))).length
  absorbing : ∀ more result', verifyRevocationEvidence R { input with artifacts := input.artifacts ++ more } =
    .ok result' → ∀ r ∈ result.subjects, r.outcome = .REVOKED →
      ∃ r' ∈ result'.subjects, subjectOfRow r' = subjectOfRow r ∧ r'.outcome = .REVOKED
  order : ∀ artifacts', input.artifacts.Perm artifacts' →
    ∃ result', verifyRevocationEvidence R { input with artifacts := artifacts' } = .ok result' ∧
      SameReport result result'

variable {R}

/-- The findings of a list of artifacts against an input. -/
abbrev findings (R : Runtime) (input : RevocationVerificationInput) : List ArtifactFinding :=
  input.artifacts.map (finding R input)

theorem verify_ok (input : RevocationVerificationInput) (result : RevocationVerificationResult) :
    verifyRevocationEvidence R input = .ok result ↔ (∀ a ∈ input.artifacts, Readable R a.value) ∧
      result = ⟨((report subjectKey (seeds input) (findings R input)).sorted subjectLe).map subjectResult,
        (report subjectKey (seeds input) (findings R input)).unplaced⟩ := by
  have hreadable : (∀ a ∈ input.artifacts, (findingOf R input a.value).isOk = true) ↔
      ∀ a ∈ input.artifacts, Readable R a.value := forall₂_congr fun a _ => findingOf_isOk input a
  rw [verifyRevocationEvidence, bind_eq_ok, ← hreadable]
  constructor
  · intro h
    obtain ⟨st, hst, hresult⟩ := h
    obtain ⟨hok, rfl⟩ := (readArtifacts_ok input input.artifacts _ st 0).mp hst
    exact ⟨hok, (Except.ok.inj hresult).symm⟩
  · intro h
    exact ⟨_, (readArtifacts_ok input input.artifacts _ _ 0).mpr ⟨h.1, rfl⟩, by rw [h.2]; rfl⟩

theorem mem_result {input : RevocationVerificationInput} {r : RevocationSubjectResult} :
    r ∈ ((report subjectKey (seeds input) (findings R input)).sorted subjectLe).map subjectResult ↔
      r = subjectResult (rowFor (findings R input) (subjectOfRow r)) ∧
        Reported (seeds input) (findings R input) (subjectOfRow r) := by
  rw [List.mem_map]
  have hmem : ∀ row, row ∈ (report subjectKey (seeds input) (findings R input)).sorted subjectLe ↔
      row = rowFor (findings R input) row.subject ∧ Reported (seeds input) (findings R input) row.subject :=
    fun row => (List.mem_insertionSort _).trans (mem_report subjectKey_injective)
  constructor
  · intro h
    obtain ⟨row, hrow, rfl⟩ := h
    obtain ⟨heq, hreported⟩ := (hmem row).mp hrow
    exact ⟨congrArg subjectResult heq, hreported⟩
  · intro h
    obtain ⟨heq, hreported⟩ := h
    refine ⟨rowFor (findings R input) (subjectOfRow r), (hmem _).mpr ?_, heq.symm⟩
    rw [rowFor_subject]
    exact ⟨rfl, hreported⟩

section
variable {input : RevocationVerificationInput} (hreadable : ∀ a ∈ input.artifacts, Readable R a.value)
include hreadable

theorem about_finding {a : Artifact} (ha : a ∈ input.artifacts) (s : Subject) :
    (finding R input a).about s = true ↔ subjectOf a.value = some s := by
  rw [Finding.about_iff, finding_subject (hreadable a ha)]

theorem reported_iff (s : Subject) : Reported (seeds input) (findings R input) s ↔
    s ∈ seeds input ∨ ∃ a ∈ input.artifacts, subjectOf a.value = some s := by
  refine or_congr_right ?_
  constructor
  · intro h
    obtain ⟨f, hf, habout⟩ := h
    obtain ⟨a, ha, rfl⟩ := List.mem_map.mp hf
    exact ⟨a, ha, (about_finding hreadable ha s).mp habout⟩
  · intro h
    obtain ⟨a, ha, hsubject⟩ := h
    exact ⟨_, List.mem_map_of_mem ha, (about_finding hreadable ha s).mpr hsubject⟩

theorem accounted_row (s : Subject) : (rowFor (findings R input) s).size =
    (input.artifacts.filter (fun a => subjectOf a.value = some s)).length := by
  rw [rowFor_size, findings, List.filter_map, List.length_map]
  congr 1
  refine List.filter_congr fun a ha => ?_
  rw [Function.comp_apply, Bool.eq_iff_iff, about_finding hreadable ha, decide_eq_true_eq]

theorem revoked_row (hkeyed : KeyedByOwnIds input) (s : Subject) :
    (subjectResult (rowFor (findings R input) s)).outcome = .REVOKED ↔
      ∃ a ∈ input.artifacts, subjectOf a.value = some s ∧ Passes R input a.value ∧ HasForm R a.value := by
  have houtcome : (subjectResult (rowFor (findings R input) s)).outcome = .REVOKED ↔
      (rowFor (findings R input) s).artifacts.entries ≠ [] := by
    rw [subjectResult, ← List.length_pos_iff_ne_nil]
    by_cases hpos : 0 < (rowFor (findings R input) s).artifacts.entries.length
    · simp [hpos]
    · simp [hpos]
  rw [houtcome, rowFor_nonempty]
  constructor
  · intro h
    obtain ⟨d, e, hmem⟩ := h
    obtain ⟨a, ha, hfinding⟩ := List.mem_map.mp hmem
    exact ⟨a, ha, (finding_survived hkeyed (hreadable a ha)).mp ⟨d, e, hfinding⟩⟩
  · intro h
    obtain ⟨a, ha, hpasses⟩ := h
    obtain ⟨d, e, hfinding⟩ := (finding_survived hkeyed (hreadable a ha)).mpr hpasses
    exact ⟨d, e, List.mem_map.mpr ⟨a, ha, hfinding⟩⟩

end

variable {s : Subject}

theorem entry_digest {input : RevocationVerificationInput} {x : Str × RevocationArtifactEntry}
    (h : x ∈ (rowFor (findings R input) s).artifacts.entries) : x.2.revocation_artifact_digest = x.1 := by
  have hget := OrderedMap.mem_entries.mp (show (x.1, x.2) ∈ _ from h)
  rw [rowFor_get] at hget
  obtain ⟨f, hf, hentry⟩ := List.mem_filterMap.mp (OrderedMap.mem_of_lookup hget)
  obtain ⟨a, -, hfinding⟩ := List.mem_map.mp hf
  rw [Finding.of_entry hentry] at hfinding
  exact (survived_entry hfinding).2.1

theorem sorted_entries {input : RevocationVerificationInput} {m : OrderedMap Str RevocationArtifactEntry}
    (h : (rowFor (findings R input) s).artifacts.entries.Perm m.entries) :
    (rowFor (findings R input) s).artifacts.values.insertionSort
        (fun a b => a.revocation_artifact_digest ≤ b.revocation_artifact_digest) =
      m.values.insertionSort (fun a b => a.revocation_artifact_digest ≤ b.revocation_artifact_digest) := by
  have : IsTrans RevocationArtifactEntry (fun a b => a.revocation_artifact_digest ≤ b.revocation_artifact_digest) :=
    ⟨fun _ _ _ => List.le_trans⟩
  have : Std.Total (fun a b : RevocationArtifactEntry => a.revocation_artifact_digest ≤ b.revocation_artifact_digest) :=
    ⟨fun a b => List.le_total _ _⟩
  have hvalues : (rowFor (findings R input) s).artifacts.values.Perm m.values := h.map Prod.snd
  refine List.Perm.eq_of_pairwise ?_ (List.pairwise_insertionSort _ _) (List.pairwise_insertionSort _ _)
    ((List.perm_insertionSort _ _).trans (hvalues.trans (List.perm_insertionSort _ _).symm))
  intro a b ha hb hab hba
  obtain ⟨x, hx, rfl⟩ := List.mem_map.mp ((List.mem_insertionSort _).mp ha)
  obtain ⟨y, hy, rfl⟩ := List.mem_map.mp (hvalues.mem_iff.mpr ((List.mem_insertionSort _).mp hb))
  have hkey : x.1 = y.1 := by
    rw [← entry_digest hx, ← entry_digest hy]
    exact List.le_antisymm hab hba
  rw [List.inj_on_of_nodup_map (rowFor (findings R input) s).artifacts.distinct hx hy hkey]

theorem sameRow_of_alike {input : RevocationVerificationInput} {row : MutableSubject}
    (h : (rowFor (findings R input) s).Alike row) :
    SameRow (subjectResult (rowFor (findings R input) s)) (subjectResult row) where
  subject := by
    have hsubject := h.subject
    simp only [subjectOfRow, subjectResult, hsubject]
  outcome := by
    rw [subjectResult, subjectResult, h.artifacts.length_eq]
  artifacts := sorted_entries h.artifacts
  duplicate_count := h.duplicates
  discards := h.discards

theorem subjectResult_size (row : MutableSubject) : (subjectResult row).artifacts.length +
    (subjectResult row).duplicate_count + (subjectResult row).discards.length = row.size := by
  simp [subjectResult, Row.size, OrderedMap.values]

theorem result_subjects (input : RevocationVerificationInput) :
    ((((report subjectKey (seeds input) (findings R input)).sorted subjectLe).map subjectResult).map subjectOfRow).Perm
      ((report subjectKey (seeds input) (findings R input)).rows.values.map Row.subject) := by
  rw [List.map_map]
  exact (List.perm_insertionSort _ _).map Row.subject

theorem revoked_of_append {input : RevocationVerificationInput} (hkeyed : KeyedByOwnIds input) {more : List Artifact}
    {result' : RevocationVerificationResult}
    (h : verifyRevocationEvidence R { input with artifacts := input.artifacts ++ more } = .ok result')
    (hrevoked : ∃ a ∈ input.artifacts, subjectOf a.value = some s ∧ Passes R input a.value ∧ HasForm R a.value) :
    ∃ r' ∈ result'.subjects, subjectOfRow r' = s ∧ r'.outcome = .REVOKED := by
  have hkeyed' : KeyedByOwnIds { input with artifacts := input.artifacts ++ more } :=
    ⟨hkeyed.delegations, hkeyed.bindings⟩
  obtain ⟨hreadable, rfl⟩ := (verify_ok _ _).mp h
  obtain ⟨a, ha, hsubject, hpasses, hform⟩ := hrevoked
  have ha' : a ∈ input.artifacts ++ more := List.mem_append_left more ha
  have hrow : subjectOfRow (subjectResult (rowFor (findings R { input with artifacts := input.artifacts ++ more }) s)) = s :=
    rowFor_subject _ s
  refine ⟨subjectResult (rowFor (findings R { input with artifacts := input.artifacts ++ more }) s), ?_, hrow, ?_⟩
  · refine mem_result.mpr ⟨by rw [hrow], ?_⟩
    rw [hrow, reported_iff hreadable]
    exact .inr ⟨a, ha', hsubject⟩
  · exact (revoked_row hreadable hkeyed' s).mpr ⟨a, ha', hsubject, hpasses, hform⟩

theorem sameReport_of_perm (hnum : NumberRendering R.numText) {input : RevocationVerificationInput}
    (hhash : CollisionFree R.sha256 (preimages R input.artifacts))
    (hreadable : ∀ a ∈ input.artifacts, Readable R a.value) {artifacts' : List Artifact}
    (h : input.artifacts.Perm artifacts') :
    ∃ result', verifyRevocationEvidence R { input with artifacts := artifacts' } = .ok result' ∧
      SameReport ⟨((report subjectKey (seeds input) (findings R input)).sorted subjectLe).map subjectResult,
        (report subjectKey (seeds input) (findings R input)).unplaced⟩ result' := by
  have hfindings : (findings R input).Perm (findings R { input with artifacts := artifacts' }) := h.map _
  refine ⟨_, (verify_ok _ _).mpr ⟨fun a ha => hreadable a (h.mem_iff.mpr ha), rfl⟩, ?_, ?_⟩
  · obtain ⟨subjects, hsorted, hsorted'⟩ := sorted_perm subjectKey_injective subjectLe (seeds input) hfindings
    have hconsistent : Consistent (findings R input) := findings_consistent hnum hhash
    change List.Forall₂ SameRow (((report subjectKey (seeds input) (findings R input)).sorted subjectLe).map _)
      (((report subjectKey (seeds input) (findings R { input with artifacts := artifacts' })).sorted subjectLe).map _)
    rw [hsorted, hsorted', List.map_map, List.map_map, List.forall₂_map_left_iff, List.forall₂_map_right_iff]
    exact List.forall₂_same.mpr fun s _ => sameRow_of_alike (rowFor_perm hfindings hconsistent s)
  · obtain ⟨-, hunplaced, -⟩ := report_spec subjectKey_injective (seeds input) (findings R input)
    obtain ⟨-, hunplaced', -⟩ := report_spec subjectKey_injective (seeds input)
      (findings R { input with artifacts := artifacts' })
    change (_ : List Failure).Perm
      ((report subjectKey (seeds input) (findings R { input with artifacts := artifacts' })).unplaced.map Prod.snd)
    rw [hunplaced, hunplaced']
    exact hfindings.filterMap _

theorem revocation_evidence_fold (R : Runtime) (hnum : NumberRendering R.numText) (input : RevocationVerificationInput)
    (hkeyed : KeyedByOwnIds input) (hhash : CollisionFree R.sha256 (preimages R input.artifacts)) :
    (∃ result, verifyRevocationEvidence R input = .ok result ∧ SetLevel R input result) ↔
      ∀ a ∈ input.artifacts, Readable R a.value := by
  constructor
  · intro h
    obtain ⟨result, hresult, -⟩ := h
    exact ((verify_ok input result).mp hresult).1
  · intro hreadable
    refine ⟨_, (verify_ok input _).mpr ⟨hreadable, rfl⟩, ?_⟩
    have hsubjects := result_subjects (R := R) input
    have hrevoked : ∀ r ∈ ((report subjectKey (seeds input) (findings R input)).sorted subjectLe).map subjectResult,
        r.outcome = .REVOKED ↔ ∃ a ∈ input.artifacts, subjectOf a.value = some (subjectOfRow r) ∧
          Passes R input a.value ∧ HasForm R a.value := by
      intro r hr
      have hrow := revoked_row hreadable hkeyed (subjectOfRow r)
      rwa [← (mem_result.mp hr).1] at hrow
    refine ⟨?_, ?_, hrevoked, ?_, ?_, ?_⟩
    · exact hsubjects.nodup_iff.mpr (report_nodup subjectKey_injective (seeds input) (findings R input))
    · intro s
      rw [hsubjects.mem_iff, mem_subjects subjectKey_injective, reported_iff hreadable]
    · intro r hr
      rw [← accounted_row hreadable, ← subjectResult_size, ← (mem_result.mp hr).1]
    · intro more result' hresult' r hr hr'
      exact revoked_of_append hkeyed hresult' ((hrevoked r hr).mp hr')
    · intro artifacts' hperm
      exact sameReport_of_perm hnum hhash hreadable hperm

section Sample

def delegatorKey : Str := lit "8a88e3dd7409f195fd52db2d3cba5d72ca6709bf1d94121bf3748801b40f6f5c"

def revocationSignature : Str :=
  lit "0f65d164a91d8806586283624466416dd2034d74ec71efd70f59b13f0fcc4a6c" ++
    lit "04257e96eb21d48e8c0ff4abf542a9f2aa9264d1cd46f7d582ad91d11e3d1200"

def unsignedText : Str :=
  lit "\x7b\"delegationId\":\"d1\",\"reason\":\"lost\",\"revocationId\":\"r1\",\"revokedAt\":" ++
    lit "\"2026-01-01T00:00:00.000Z\",\"revokedBy\":\"" ++ delegatorKey ++ lit "\"\x7d"

def recordText : Str :=
  lit "\x7b\"delegationId\":\"d1\",\"reason\":\"lost\",\"revocationId\":\"r1\",\"revokedAt\":" ++
    lit "\"2026-01-01T00:00:00.000Z\",\"revokedBy\":\"" ++ delegatorKey ++ lit "\",\"signature\":\"" ++
    revocationSignature ++ lit "\"\x7d"

def recordMembers : List (Str × JsValue) :=
  [(lit "revocationId", .str (lit "r1")), (lit "delegationId", .str (lit "d1")),
    (lit "revokedBy", .str delegatorKey), (lit "revokedAt", .str (lit "2026-01-01T00:00:00.000Z")),
    (lit "reason", .str (lit "lost")), (lit "signature", .str revocationSignature)]

theorem record_made : wellMade (.obj recordMembers) = true := by decide

theorem reversed_made : wellMade (.obj recordMembers.reverse) = true := by decide

def revocation : Artifact := ⟨.obj recordMembers, record_made⟩

/-- The same record spelled with its members in another order. -/
def respelled : Artifact := ⟨.obj recordMembers.reverse, reversed_made⟩

/-- A binding revocation of the right shape; its method ends in an unpaired high surrogate. -/
def unpairedMembers : List (Str × JsValue) :=
  [(lit "record_type", .str (lit "aps.principal-binding-revocation")), (lit "version", .str (lit "1.0")),
    (lit "revocation_id", .str (List.replicate 64 0x30)), (lit "binding_id", .str (List.replicate 64 0x30)),
    (lit "principal_id", .str (lit "p")), (lit "verification_method", .str (lit "p#" ++ [0xD800])),
    (lit "revoked_at", .str (lit "2026-01-01T00:00:00.000Z")), (lit "reason_code", .str (lit "lost")),
    (lit "nonce", .str (List.replicate 32 0x30)), (lit "signature", .str (List.replicate 128 0x30))]

theorem unpaired_made : wellMade (.obj unpairedMembers) = true := by decide

def unpaired : Artifact := ⟨.obj unpairedMembers, unpaired_made⟩

def evidenceRuntime : Runtime where
  numText := integerText
  sha256 := ofTable [(preimage recordText, lit "fe0a3447127347865cb40947d865bd86dd995314e34159da0dd6ac65774e4447")]
  verify message signature key :=
    message = unsignedText ∧ signature = revocationSignature ∧ key = delegatorKey

def evidenceInput (artifacts : List Artifact) : RevocationVerificationInput where
  artifacts := artifacts
  delegations := OrderedMap.empty.set (lit "d1") ⟨lit "d1", delegatorKey⟩
  bindings := .empty
  resolver _ _ _ := ⟨.not_found, none⟩

theorem evidenceInput_keyed (artifacts : List Artifact) : KeyedByOwnIds (evidenceInput artifacts) where
  delegations := by
    intro id d h
    rw [evidenceInput, OrderedMap.get_set] at h
    by_cases hid : lit "d1" = id
    · rw [if_pos hid] at h
      cases h
      exact hid
    · rw [if_neg hid] at h
      cases h
  bindings := by
    intro id b h
    cases h

theorem evidenceInput_hash :
    CollisionFree evidenceRuntime.sha256 (preimages evidenceRuntime [revocation, respelled]) := by
  decide +kernel

/-- A record and the same record respelled: one revocation and a repeat. -/
theorem revocation_evidence_fold_respelled :
    ∃ result, verifyRevocationEvidence evidenceRuntime (evidenceInput [revocation, respelled]) = .ok result ∧
      SetLevel evidenceRuntime (evidenceInput [revocation, respelled]) result := by
  refine (revocation_evidence_fold evidenceRuntime integerText_rendering (evidenceInput [revocation, respelled])
    (evidenceInput_keyed _) evidenceInput_hash).mpr ?_
  have hfirst : (findingOf evidenceRuntime (evidenceInput []) revocation.value).isOk = true := by decide +kernel
  have hsecond : (findingOf evidenceRuntime (evidenceInput []) respelled.value).isOk = true := by decide +kernel
  intro a ha
  obtain rfl | rfl : a = revocation ∨ a = respelled := by simpa [evidenceInput] using ha
  · exact (findingOf_isOk _ revocation).mp hfirst
  · exact (findingOf_isOk _ respelled).mp hsecond

/-- Next to a valid revocation, an artifact the schema lets through and the canonicalizer refuses:
the call throws, and no subject has a row. -/
theorem unpaired_artifact_throws :
    KeyedByOwnIds (evidenceInput [revocation, unpaired]) ∧
    CollisionFree evidenceRuntime.sha256 (preimages evidenceRuntime [revocation, unpaired]) ∧
    ¬ ∃ result, verifyRevocationEvidence evidenceRuntime (evidenceInput [revocation, unpaired]) = .ok result ∧
      SetLevel evidenceRuntime (evidenceInput [revocation, unpaired]) result := by
  refine ⟨evidenceInput_keyed _, by decide +kernel, ?_⟩
  have hthrows : (verifyRevocationEvidence evidenceRuntime (evidenceInput [revocation, unpaired])).isOk = false := by
    decide +kernel
  intro h
  obtain ⟨result, hresult, -⟩ := h
  rw [hresult] at hthrows
  cases hthrows

end Sample

end AgentPassport.EvidenceLaws
