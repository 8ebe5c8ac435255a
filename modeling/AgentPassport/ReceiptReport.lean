import AgentPassport.ReceiptEnvelope

/-! The report on a receipt whose envelope is in order, as a function of the receipt. -/
namespace AgentPassport.ReceiptReport
open JsText Js StrictRoundTrip CanonicalInjective ReceiptSchema ReceiptStage ReceiptVerify ReceiptEnvelope
open Outcome

theorem mapM_eq_ok {ε α β : Type} {f : α → Except ε β} {g : α → β} {l : List α} (h : ∀ x ∈ l, f x = .ok (g x)) :
    l.mapM f = .ok (l.map g) := by
  induction l with
  | nil => rfl
  | cons x rest ih =>
    obtain ⟨hx, hrest⟩ := List.forall_mem_cons.mp h
    rw [List.mapM_cons, hx, ih hrest]
    rfl

section
variable {v : JsValue} {names : List Str}

theorem iJson_without (h : IJson v) : IJson (without v names) := by
  cases v with
  | obj members =>
    rw [without]
    rw [iJson_obj] at h ⊢
    intro m hm
    exact h m (List.mem_of_mem_filter hm)
  | _ => exact h

theorem keyed_without (h : keyed v = true) : keyed (without v names) = true := by
  cases v with
  | obj members =>
    rw [without]
    rw [keyed_obj] at h ⊢
    refine ⟨?_, fun m hm => h.2 m (List.mem_of_mem_filter hm)⟩
    exact h.1.sublist (List.filter_sublist.map _)
  | _ => exact h

end

variable {name : Str}

theorem mem_of_get {members : List (Str × JsValue)} (h : (JsValue.obj members).get name ≠ .undefined) :
    (name, (JsValue.obj members).get name) ∈ members := by
  rw [JsValue.get] at h ⊢
  cases hfind : member? name members with
  | none =>
    rw [hfind] at h
    exact absurd rfl h
  | some v =>
    rw [member?, Option.map_eq_some_iff] at hfind
    obtain ⟨m, hm, rfl⟩ := hfind
    obtain ⟨hmem, rfl⟩ := find_name hm
    exact hmem

theorem iJson_get {v : JsValue} (h : IJson v) (hthere : v.get name ≠ .undefined) : IJson (v.get name) := by
  cases v with
  | obj members => exact (iJson_obj.mp h _ (mem_of_get hthere)).2
  | _ => exact absurd rfl hthere

theorem clean_get {v : JsValue} (h : Clean v) (hthere : v.get name ≠ .undefined) : Clean (v.get name) := by
  cases v with
  | obj members => exact (clean_obj.mp h _ (mem_of_get hthere)).2
  | _ => exact absurd rfl hthere

theorem keyed_get {v : JsValue} (h : keyed v = true) : keyed (v.get name) = true := by
  by_cases hthere : v.get name = .undefined
  · rw [hthere]
    rfl
  · cases v with
    | obj members => exact (keyed_obj.mp h).2 _ (mem_of_get hthere)
    | _ => exact absurd rfl hthere

variable {item : JsValue}

theorem item_of_get {v : JsValue} (h : item ∈ items (v.get name)) :
    v.get name ≠ .undefined ∧ ∃ list, v.get name = .arr list ∧ item ∈ list := by
  cases hget : v.get name with
  | arr list =>
    rw [hget] at h
    exact ⟨fun heq => JsValue.noConfusion heq, list, rfl, h⟩
  | _ =>
    rw [hget] at h
    cases h

theorem iJson_item {v : JsValue} (h : IJson v) (hitem : item ∈ items (v.get name)) : IJson item := by
  obtain ⟨hthere, list, hlist, hmem⟩ := item_of_get hitem
  have hget := iJson_get h hthere
  rw [hlist, iJson_arr] at hget
  exact hget item hmem

theorem clean_item {v : JsValue} (h : Clean v) (hitem : item ∈ items (v.get name)) : Clean item := by
  obtain ⟨hthere, list, hlist, hmem⟩ := item_of_get hitem
  have hget := clean_get h hthere
  rw [hlist, clean_arr] at hget
  exact hget item hmem

theorem keyed_item {v : JsValue} (h : keyed v = true) (hitem : item ∈ items (v.get name)) : keyed item = true := by
  obtain ⟨-, list, hlist, hmem⟩ := item_of_get hitem
  have hget : keyed (v.get name) = true := keyed_get h
  rw [hlist, keyed, keyedItems_iff] at hget
  exact hget item hmem

section
variable (R : Runtime)

def idOf (receipt : JsValue) : Str :=
  sha256Hex R (RECEIPT_ID_TAG ++ emit R.numText (without receipt [lit "receipt_id", lit "signatures"]))

def signedForm (receipt descriptor : JsValue) : JsValue :=
  .obj [(lit "receipt", without receipt [lit "signatures"]), (lit "signer", descriptor)]

def signedText (receipt descriptor : JsValue) : Str := RECEIPT_SIG_TAG ++ emit R.numText (signedForm receipt descriptor)

variable {R} {receipt descriptor : JsValue}

theorem computeReceiptId_eq (h : IJson receipt) (hkeyed : keyed receipt = true) :
    computeReceiptIdV1 R receipt = .ok (idOf R receipt) := by
  rw [computeReceiptIdV1, receiptIdPayloadV1, strictText_iJson (iJson_without h) (keyed_without hkeyed)]
  rfl

theorem iJson_signedForm (h : IJson receipt) (hd : IJson descriptor) : IJson (signedForm receipt descriptor) := by
  rw [signedForm, iJson_obj, List.forall_mem_cons, List.forall_mem_singleton]
  have hreceipt : WellFormed (lit "receipt") := by decide
  have hsigner : WellFormed (lit "signer") := by decide
  exact ⟨⟨hreceipt, iJson_without h⟩, hsigner, hd⟩

theorem keyed_signedForm (h : keyed receipt = true) (hd : keyed descriptor = true) :
    keyed (signedForm receipt descriptor) = true := by
  rw [signedForm, keyed_obj, List.forall_mem_cons, List.forall_mem_singleton]
  have hnames : [lit "receipt", lit "signer"].Nodup := by decide
  exact ⟨hnames, keyed_without h, hd⟩

theorem signaturePayload_eq (h : IJson receipt) (hkeyed : keyed receipt = true) (hd : IJson descriptor)
    (hdkeyed : keyed descriptor = true) :
    receiptSignaturePayloadV1 R receipt descriptor = .ok (signedText R receipt descriptor) := by
  rw [receiptSignaturePayloadV1, ← signedForm, strictText_iJson (iJson_signedForm h hd) (keyed_signedForm hkeyed hdkeyed)]
  rfl

end

section
variable (R : Runtime) (resolveKey : KeyResolver)

def proofResult (receipt : JsValue) (required : List Str) (proof : JsValue) : SignatureResult :=
  let signer := text (proof.get (lit "signer"))
  let key_id := text (proof.get (lit "key_id"))
  let answer := resolveKey signer key_id (text (receipt.get (lit "issued_at")))
  let isRequired := required.any (· = signer)
  match keyResolutionReason answer, answer with
  | none, .key material =>
    ⟨signer, key_id, R.verify (signedText R receipt (without proof [lit "value"])) (text (proof.get (lit "value"))) material,
      isRequired, none⟩
  | reason, _ => ⟨signer, key_id, false, isRequired, reason⟩

def requiredOf (receipt : JsValue) (requiredSigners : List Str) : List Str :=
  requiredSet (text (receipt.get (lit "issuer"))) requiredSigners

def report (receipt : JsValue) (stageOptions : StageOptions) (requiredSigners : List Str) : ReceiptVerificationV1 :=
  let required := requiredOf receipt requiredSigners
  aggregate required (decide (idOf R receipt = text (receipt.get (lit "receipt_id"))))
    ((items (receipt.get (lit "signatures"))).map (proofResult R resolveKey receipt required))
    (stageResult R.toTextRuntime receipt stageOptions)

variable {R resolveKey} {receipt : JsValue}

theorem checkProof_eq (h : IJson receipt) (hkeyed : keyed receipt = true) (required : List Str) {proof : JsValue}
    (hp : IJson proof) (hpkeyed : keyed proof = true) :
    checkProof R receipt required resolveKey proof = .ok (proofResult R resolveKey receipt required proof) := by
  rw [checkProof, proofResult]
  generalize resolveKey _ _ _ = answer
  cases hreason : keyResolutionReason answer with
  | some reason => rfl
  | none =>
    cases answer with
    | key material =>
      rw [signaturePayload_eq h hkeyed (iJson_without hp) (keyed_without hpkeyed)]
      rfl
    | _ => rfl

theorem isProfile_eq {v : JsValue} (h : isProfile v = true) : v = .str PROFILE := by
  cases v with
  | str s => rw [of_decide_eq_true h]
  | _ => cases h

theorem Envelope.profile {requireValues : Bool} (h : Envelope R.numText requireValues receipt) :
    receipt.get (lit "profile") = .str PROFILE :=
  isProfile_eq (require_eq_ok.mp (bind_unit_eq_ok.mp h.members).1)

theorem Envelope.isRecord {requireValues : Bool} (h : Envelope R.numText requireValues receipt) :
    ReceiptSchema.isRecord receipt = true := by
  obtain ⟨members, rfl, -⟩ := Envelope.members_eq h
  rfl

theorem stage_eq (hkeyed : keyed receipt = true) (h : Envelope R.numText true receipt) (stageOptions : StageOptions) :
    validateReceiptStageV1 R.toTextRuntime receipt stageOptions = stageResult R.toTextRuntime receipt stageOptions := by
  have hvalid := (validate_eq_ok hkeyed).mpr h
  rw [validateReceiptStageV1, Envelope.isRecord h, Envelope.profile h]
  simp only [Bool.not_true, Bool.false_eq_true, if_false, ne_eq, not_true_eq_false, hvalid]

theorem verifyReceipt_eq (hkeyed : keyed receipt = true) (h : Envelope R.numText true receipt) (stageOptions : StageOptions)
    (requiredSigners : List Str) :
    verifyReceiptV1 R receipt resolveKey stageOptions requiredSigners =
      .ok (report R resolveKey receipt stageOptions requiredSigners) := by
  have hvalid := (validate_eq_ok hkeyed).mpr h
  have hforeign : declaresForeignProfile receipt = false := by
    rw [declaresForeignProfile, Envelope.profile h]
    exact decide_eq_false (not_not.mpr rfl)
  have hproofs : ∀ proof ∈ items (receipt.get (lit "signatures")),
      checkProof R receipt (requiredOf receipt requiredSigners) resolveKey proof =
        .ok (proofResult R resolveKey receipt (requiredOf receipt requiredSigners) proof) := by
    intro proof hproof
    exact checkProof_eq h.iJson hkeyed _ (iJson_item h.iJson hproof) (keyed_item hkeyed hproof)
  rw [verifyReceiptV1, hforeign, hvalid, if_neg Bool.false_ne_true]
  show verifyEnvelope R receipt resolveKey stageOptions requiredSigners = _
  rw [verifyEnvelope, computeReceiptId_eq h.iJson hkeyed, stage_eq hkeyed h]
  show (do
    let results ← (items (receipt.get (lit "signatures"))).mapM
      (checkProof R receipt (requiredOf receipt requiredSigners) resolveKey)
    return aggregate (requiredOf receipt requiredSigners) (decide (idOf R receipt = text (receipt.get (lit "receipt_id"))))
      results (stageResult R.toTextRuntime receipt stageOptions)) = _
  rw [mapM_eq_ok hproofs]
  rfl

theorem envelope_of_valid (hkeyed : keyed receipt = true) {stageOptions : StageOptions} {requiredSigners : List Str}
    {result : ReceiptVerificationV1} (h : verifyReceiptV1 R receipt resolveKey stageOptions requiredSigners = .ok result)
    (hvalid : result.valid = true) :
    Envelope R.numText true receipt ∧ result = report R resolveKey receipt stageOptions requiredSigners := by
  have henvelope : Envelope R.numText true receipt := by
    rw [verifyReceiptV1] at h
    split at h
    · cases h
      cases hvalid
    · split at h
      · cases h
        cases hvalid
      · rename_i hok
        exact (validate_eq_ok hkeyed).mp hok
  refine ⟨henvelope, ?_⟩
  rw [verifyReceipt_eq hkeyed henvelope] at h
  cases h
  rfl

end

section
variable {required : List Str} {idValid : Bool} {results : List SignatureResult} {stage : StageResult}

def verifies (r : SignatureResult) : Bool := r.reason.isNone && r.valid

theorem verifies_iff {r : SignatureResult} :
    verifies r = true ↔ isBadBytes r = false ∧ isUnsupportedScheme r = false ∧ isUnresolved r = false := by
  rw [verifies, isBadBytes, isUnsupportedScheme, isUnresolved]
  cases r.reason with
  | none => cases r.valid <;> decide
  | some reason => cases reason <;> cases r.valid <;> decide

theorem any_counted {p : SignatureResult → Bool} :
    (results.filter (·.required)).any p = false ↔ ∀ r ∈ results, r.required = true → p r = false := by
  simp only [List.any_eq_false, List.mem_filter, and_imp, Bool.not_eq_true]

theorem missing_eq_nil :
    required.filter (fun signer => !results.any (fun r => r.signer = signer)) = [] ↔
      ∀ signer ∈ required, ∃ r ∈ results, r.signer = signer := by
  simp only [List.filter_eq_nil_iff, Bool.not_eq_true', Bool.not_eq_false, List.any_eq_true, decide_eq_true_eq]

theorem missing_reported {missing : List Str} {badBytes unsupportedScheme unresolved : Bool} :
    ((if idValid = true then [] else [ErrorEntry.receipt_id_mismatch]) ++
      missing.map (fun _ => ErrorEntry.required_signature_missing) ++
      (if badBytes = true then [ErrorEntry.signature_invalid] else []) ++
      (if unsupportedScheme = true then [ErrorEntry.signer_key_scheme_unsupported] else []) ++
      (if unresolved = true then [ErrorEntry.signer_authority_indeterminate] else []) ++
      (if stage.status ≠ Status.valid then
        ErrorEntry.stage stage.status :: stage.failures.map (fun f => ErrorEntry.stageCode f.code) else [])).any
      (fun e => decide (e = ErrorEntry.required_signature_missing)) = !missing.isEmpty := by
  have hmap : (missing.map (fun _ => ErrorEntry.required_signature_missing)).any
      (fun e => decide (e = .required_signature_missing)) = !missing.isEmpty := by
    cases missing with
    | nil => rfl
    | cons signer rest => rfl
  have hstage : (if stage.status ≠ .valid then ErrorEntry.stage stage.status ::
      stage.failures.map (fun f => .stageCode f.code) else []).any
      (fun e => decide (e = .required_signature_missing)) = false := by
    rw [List.any_eq_false]
    intro e he
    split at he
    · rcases List.mem_cons.mp he with rfl | he
      · exact Bool.false_ne_true
      · obtain ⟨f, -, rfl⟩ := List.mem_map.mp he
        exact Bool.false_ne_true
    · cases he
  simp only [List.any_append, hmap, hstage]
  generalize missing.isEmpty = complete
  cases idValid <;> cases badBytes <;> cases unsupportedScheme <;> cases unresolved <;> cases complete <;> decide

theorem aggregate_valid :
    (aggregate required idValid results stage).valid = true ↔
      idValid = true ∧ stage.status = .valid ∧ (∀ signer ∈ required, ∃ r ∈ results, r.signer = signer) ∧
        ∀ r ∈ results, r.required = true → verifies r = true := by
  have hverifies : (∀ r ∈ results, r.required = true → verifies r = true) ↔
      (results.filter (·.required)).any isBadBytes = false ∧
        (results.filter (·.required)).any isUnsupportedScheme = false ∧
          (results.filter (·.required)).any isUnresolved = false := by
    rw [any_counted, any_counted, any_counted]
    simp only [verifies_iff]
    grind
  rw [hverifies, ← missing_eq_nil, ← List.isEmpty_iff]
  simp only [aggregate, missing_reported, decide_eq_true_eq]
  generalize (results.filter (·.required)).any isBadBytes = badBytes
  generalize (results.filter (·.required)).any isUnsupportedScheme = unsupportedScheme
  generalize (results.filter (·.required)).any isUnresolved = unresolved
  generalize (List.filter _ required).isEmpty = complete
  generalize stage.status = status
  cases idValid <;> cases complete <;> cases badBytes <;> cases unsupportedScheme <;> cases unresolved <;>
    cases status <;> decide

theorem aggregate_established (hid : idValid = true) (hpresent : ∀ signer ∈ required, ∃ r ∈ results, r.signer = signer)
    (hverifies : ∀ r ∈ results, verifies r = true) :
    (aggregate required idValid results stage).status = stage.status ∧
      (aggregate required idValid results stage).signer_authority = .verified := by
  have hcounted : ∀ {p : SignatureResult → Bool}, (∀ r, verifies r = true → p r = false) →
      (results.filter (·.required)).any p = false := by
    intro p hp
    exact any_counted.mpr (fun r hr _ => hp r (hverifies r hr))
  have hbad : (results.filter (·.required)).any isBadBytes = false := hcounted (fun r h => (verifies_iff.mp h).1)
  have hscheme : (results.filter (·.required)).any isUnsupportedScheme = false :=
    hcounted (fun r h => (verifies_iff.mp h).2.1)
  have hopen : (results.filter (·.required)).any isUnresolved = false := hcounted (fun r h => (verifies_iff.mp h).2.2)
  have hmissing := List.isEmpty_iff.mpr (missing_eq_nil.mpr hpresent)
  simp only [aggregate, missing_reported, hbad, hscheme, hopen, hmissing]
  rw [hid]
  generalize stage.status = status
  cases status <;> decide

end

section
variable {R : Runtime} {resolveKey : KeyResolver} {receipt e : JsValue}

theorem proofResult_signer {required : List Str} :
    (proofResult R resolveKey receipt required e).signer = (signatureKey e).1 := by
  rw [proofResult]
  split
  · rfl
  · rfl

theorem proofResult_required {required : List Str} :
    (proofResult R resolveKey receipt required e).required = required.any (· = text (e.get (lit "signer"))) := by
  rw [proofResult]
  split
  · rfl
  · rfl

theorem verifies_proofResult {required : List Str} :
    verifies (proofResult R resolveKey receipt required e) = true ↔
      ∃ material, resolveKey (signatureKey e).1 (signatureKey e).2 (text (receipt.get (lit "issued_at"))) = .key material ∧
        isKeyMaterial material = true ∧
          R.verify (signedText R receipt (without e [lit "value"])) (text (e.get (lit "value"))) material = true := by
  rw [verifies, proofResult, signatureKey]
  dsimp only
  cases resolveKey (text (e.get (lit "signer"))) (text (e.get (lit "key_id"))) (text (receipt.get (lit "issued_at"))) with
  | key material =>
    rw [keyResolutionReason]
    cases hmaterial : isKeyMaterial material with
    | true =>
      constructor
      · intro h
        exact ⟨material, rfl, hmaterial, h⟩
      · rintro ⟨other, hother, -, h⟩
        cases hother
        exact h
    | false =>
      refine iff_of_false (fun h => Bool.noConfusion h) ?_
      rintro ⟨other, hother, hmaterial', -⟩
      cases hother
      rw [hmaterial] at hmaterial'
      cases hmaterial'
  | threw => exact iff_of_false (fun h => Bool.noConfusion h) (fun ⟨_, hkey, _⟩ => KeyAnswer.noConfusion hkey)
  | nothing => exact iff_of_false (fun h => Bool.noConfusion h) (fun ⟨_, hkey, _⟩ => KeyAnswer.noConfusion hkey)
  | failure outcome =>
    refine iff_of_false ?_ (fun ⟨_, hkey, _⟩ => KeyAnswer.noConfusion hkey)
    cases outcome <;> exact fun h => Bool.noConfusion h

end

end AgentPassport.ReceiptReport
