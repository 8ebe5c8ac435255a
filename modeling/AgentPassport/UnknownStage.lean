import AgentPassport.ReceiptReport

/-! What the stage rules say of a receipt type that is none of the three stages. The table of stages is
an ordinary object, so the names that every object inherits are found in it. -/
namespace AgentPassport.UnknownStage
open JsText Js Outcome ReceiptSchema ReceiptStage ReceiptEnvelope ReceiptReport

/-- The own members of `RECEIPT_STAGE_TYPES_V1`. -/
def STAGE_TYPES : List Str :=
  [lit "aps:action-intent:v1", lit "aps:policy-decision:v1", lit "aps:action-result:v1"]

def Mismatch (options : StageOptions) (receiptType : Str) : Prop :=
  ∃ expected, options.expectedReceiptType = some expected ∧ expected ≠ receiptType

/-- Not judged by the rules of any stage. -/
structure NotJudged (result : StageResult) (options : StageOptions) (receiptType : Str) : Prop where
  reported : result.status = .unsupported ∨ result.status = .invalid ∧ Mismatch options receiptType
  not_valid : result.status ≠ .valid
  not_indeterminate : result.status ≠ .indeterminate

section
variable {receiptType : Str}

theorem stageOf_cases (h : receiptType ∉ STAGE_TYPES) :
    stageOf receiptType = if receiptType ∈ INHERITED then some (.inherited receiptType) else none := by
  simp only [STAGE_TYPES, List.mem_cons, List.not_mem_nil, or_false, not_or] at h
  obtain ⟨hintent, hdecision, hresult⟩ := h
  rw [stageOf, if_neg hintent, if_neg hdecision, if_neg hresult]
  by_cases hinherited : receiptType ∈ INHERITED
  · rw [if_pos hinherited, if_pos]
    exact List.any_eq_true.mpr ⟨_, hinherited, decide_eq_true rfl⟩
  · rw [if_neg hinherited, if_neg]
    intro hany
    obtain ⟨name, hname, heq⟩ := List.any_eq_true.mp hany
    rw [of_decide_eq_true heq] at hname
    exact hinherited hname

end

section
variable {T : TextRuntime} {receipt : JsValue} {options : StageOptions}

theorem members_of_accepted (h : validateReceiptV1 T.numText receipt true = .ok ()) :
    isRecord receipt = true ∧ receipt.get (lit "profile") = .str PROFILE ∧
      isIdentifier (receipt.get (lit "receipt_type")) = true := by
  rw [validateReceiptV1, bind_unit_eq_ok, bind_unit_eq_ok, bind_unit_eq_ok, bind_unit_eq_ok, checkMembers,
    bind_unit_eq_ok, bind_unit_eq_ok, require_eq_ok, require_eq_ok] at h
  obtain ⟨-, -, -, ⟨hprofile, htype, -⟩, -⟩ := h
  have hget := isProfile_eq hprofile
  refine ⟨?_, hget, htype⟩
  cases receipt with
  | obj members => rfl
  | date d => rfl
  | _ => cases hget

theorem stage_of_accepted (h : validateReceiptV1 T.numText receipt true = .ok ()) :
    validateReceiptStageV1 T receipt options = stageResult T receipt options := by
  obtain ⟨hrecord, hprofile, -⟩ := members_of_accepted h
  rw [validateReceiptStageV1, hrecord, hprofile]
  simp only [Bool.not_true, Bool.false_eq_true, if_false, ne_eq, not_true_eq_false, h]

theorem expected_filter {receiptType : Str} :
    (∃ expected, options.expectedReceiptType.filter (fun expected => expected ≠ receiptType) = some expected) ↔
      Mismatch options receiptType := by
  constructor
  · intro h
    obtain ⟨expected, h⟩ := h
    obtain ⟨hsome, hne⟩ := Option.filter_eq_some_iff.mp h
    exact ⟨expected, hsome, of_decide_eq_true hne⟩
  · intro h
    obtain ⟨expected, hsome, hne⟩ := h
    exact ⟨expected, Option.filter_eq_some_iff.mpr ⟨hsome, decide_eq_true hne⟩⟩

theorem graded_supported {p q : Prop} [Decidable p] [Decidable q] :
    (if p then Status.invalid else if q then .indeterminate else .valid) ≠ .unsupported := by
  split
  · exact Status.noConfusion
  · split
    · exact Status.noConfusion
    · exact Status.noConfusion

theorem boundaryResult_supported (stage : Stage) (failures : List StageFailure) :
    (boundaryResult receipt options stage failures).status ≠ .unsupported :=
  graded_supported

end

/-- A type that is none of the three stages is left unjudged unless it is the name of a member of
`Object.prototype` and the caller did not name another type. -/
theorem unknown_stage_unjudged_iff (T : TextRuntime) (receipt : JsValue) (options : StageOptions)
    (haccepted : validateReceiptV1 T.numText receipt true = .ok ())
    (hunknown : text (receipt.get (lit "receipt_type")) ∉ STAGE_TYPES) :
    NotJudged (validateReceiptStageV1 T receipt options) options (text (receipt.get (lit "receipt_type"))) ↔
      text (receipt.get (lit "receipt_type")) ∉ INHERITED ∨
        Mismatch options (text (receipt.get (lit "receipt_type"))) := by
  rw [stage_of_accepted haccepted, stageResult]
  dsimp only
  cases hfilter : options.expectedReceiptType.filter
      (fun expected => expected ≠ text (receipt.get (lit "receipt_type"))) with
  | some expected =>
    have hmismatch := expected_filter.mp ⟨expected, hfilter⟩
    exact ⟨fun _ => .inr hmismatch, fun _ => ⟨.inr ⟨rfl, hmismatch⟩, Status.noConfusion, Status.noConfusion⟩⟩
  | none =>
    have hagrees : ¬ Mismatch options (text (receipt.get (lit "receipt_type"))) := by
      intro hmismatch
      obtain ⟨expected, hsome⟩ := expected_filter.mpr hmismatch
      rw [hfilter] at hsome
      cases hsome
    rw [stageOf_cases hunknown]
    by_cases hinherited : text (receipt.get (lit "receipt_type")) ∈ INHERITED
    · rw [if_pos hinherited]
      constructor
      · intro h
        obtain hunsupported | ⟨-, hmismatch⟩ := h.reported
        · exact absurd hunsupported (boundaryResult_supported _ _)
        · exact absurd hmismatch hagrees
      · intro h
        obtain hforeign | hmismatch := h
        · exact absurd hinherited hforeign
        · exact absurd hmismatch hagrees
    · rw [if_neg hinherited]
      exact ⟨fun _ => .inl hinherited, fun _ => ⟨.inl rfl, Status.noConfusion, Status.noConfusion⟩⟩

section Sample

def plainTexts : TextRuntime := ⟨fun _ => [], id⟩

def resultReceipt (receiptType : Str) : JsValue :=
  .obj [(lit "profile", .str PROFILE), (lit "receipt_id", .str (List.replicate 64 0x30)),
    (lit "receipt_type", .str receiptType), (lit "issuer", .str (lit "g")), (lit "subject_agent", .str (lit "a")),
    (lit "action_ref", .str (List.replicate 64 0x31)),
    (lit "delegation_ref", .str (lit "sha256:" ++ List.replicate 64 0x32)),
    (lit "decision_ref", .str (List.replicate 64 0x33)), (lit "prev", .str (List.replicate 64 0x34)),
    (lit "issued_at", .str (lit "2026-01-02T03:04:05.006Z")), (lit "evidence_refs", .arr []),
    (lit "result", .obj [(lit "profile", .str (lit "aps-action-result-v1")), (lit "status", .str (lit "unknown")),
      (lit "effect_ref", .null), (lit "error_code", .null)]),
    (lit "signatures", .arr [.obj [(lit "signer", .str (lit "g")), (lit "key_id", .str (lit "k")),
      (lit "alg", .str (lit "Ed25519")), (lit "value", .str (List.replicate 128 0x35))]])]

def boundaryOptions : StageOptions := ⟨none, some (lit "g")⟩

theorem unknown_stage_unjudged_custom :
    NotJudged (validateReceiptStageV1 plainTexts (resultReceipt (lit "aps:custom:v1")) boundaryOptions) boundaryOptions
      (lit "aps:custom:v1") :=
  (unknown_stage_unjudged_iff plainTexts (resultReceipt (lit "aps:custom:v1")) boundaryOptions (by decide +kernel)
    (by decide)).mpr (.inl (by decide))

/-- A type that every object inherits passes for an action result. -/
theorem inherited_stage_valid :
    ¬ ∀ (T : TextRuntime) (receipt : JsValue) (options : StageOptions),
      validateReceiptV1 T.numText receipt true = .ok () → text (receipt.get (lit "receipt_type")) ∉ STAGE_TYPES →
      NotJudged (validateReceiptStageV1 T receipt options) options (text (receipt.get (lit "receipt_type"))) := by
  intro h
  have haccepted : validateReceiptV1 plainTexts.numText (resultReceipt (lit "toString")) true = .ok () := by
    decide +kernel
  have hvalid : (stageResult plainTexts (resultReceipt (lit "toString")) boundaryOptions).status = .valid := by
    decide
  rw [← stage_of_accepted haccepted] at hvalid
  exact (h plainTexts (resultReceipt (lit "toString")) boundaryOptions haccepted (by decide)).not_valid hvalid

end Sample

end AgentPassport.UnknownStage
