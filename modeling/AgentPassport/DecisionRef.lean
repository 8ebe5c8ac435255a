import AgentPassport.ReceiptVerify

/-! The digest of a decision (`v2/receipt-core/decision-ref.ts`), the link to the decision a receipt
follows (`predecessor.ts`) and the verification of a receipt with its decision (`composite.ts`). -/
namespace AgentPassport.DecisionRef
open JsText Js Utf8 ReceiptSchema ReceiptStage ReceiptVerify
open DelegationSchema (isLowerHexOf)

section
variable (R : Runtime)

def DECISION_REF_TAG : Str := lit "APS-DECISION-REF-V1"

inductive Component where
  | authority | policy | context | output
  deriving DecidableEq

def Component.tag : Component → Str
  | .authority => lit "APS-DECISION-AUTHORITY-V1"
  | .policy => lit "APS-DECISION-POLICY-V1"
  | .context => lit "APS-DECISION-CONTEXT-V1"
  | .output => lit "APS-DECISION-OUTPUT-V1"

def tagged (tag canonical : Str) : Str := tag ++ 0 :: canonical

def computeDecisionComponentRefV1 (component : Component) (value : JsValue) : Except ReceiptError Str := do
  let canonical ← strictText R value
  return sha256Hex R (tagged component.tag canonical)

def DECISION_REF_MEMBERS : List Str :=
  [lit "profile", lit "action_ref", lit "authority_state_ref", lit "policy_ref", lit "context_ref",
    lit "decision_output_ref"]

/-- The members of `DecisionRefInputV1`, whose profile is fixed. -/
structure DecisionRefInputV1 where
  action_ref : Str
  authority_state_ref : Str
  policy_ref : Str
  context_ref : Str
  decision_output_ref : Str
  deriving DecidableEq

def DecisionRefInputV1.toJs (input : DecisionRefInputV1) : JsValue :=
  .obj [(lit "profile", .str (lit "aps-decision-ref-v1")), (lit "action_ref", .str input.action_ref),
    (lit "authority_state_ref", .str input.authority_state_ref), (lit "policy_ref", .str input.policy_ref),
    (lit "context_ref", .str input.context_ref), (lit "decision_output_ref", .str input.decision_output_ref)]

def checkDigests : List (Str × JsValue) → Check
  | [] => return ()
  | (key, value) :: rest => do
    if key = lit "profile" || isHexText 64 value then checkDigests rest
    else throw (.digest key)

def validateDecisionRefInputV1 (input : JsValue) : Check := do
  assertExactKeys input DECISION_REF_MEMBERS DECISION_REF_MEMBERS (lit "DecisionRefInputV1")
  require (isText "aps-decision-ref-v1" (input.get (lit "profile"))) "DecisionRefInputV1: profile"
  match input with
  | .obj members => checkDigests members
  | _ => return ()

def computeDecisionRefV1 (input : JsValue) : Except ReceiptError Str := do
  validateDecisionRefInputV1 input
  let canonical ← strictText R input
  return sha256Hex R (tagged DECISION_REF_TAG canonical)

def sortUtf8 (values : List Str) : List Str := values.insertionSort (fun a b => utf8 a ≤ utf8 b)

/-- `{ ...input, constraints }`. -/
def normalizeCoreDecisionOutputV1 (input : JsValue) : Except ReceiptError JsValue := do
  assertCoreDecisionOutputShapeV1 R.toTextRuntime input
  let constraints := sortUtf8 (distinct ((constraintsOf input).map R.nfc))
  return setField "constraints" (.arr (constraints.map .str)) input

/-- The decision material of a receipt. -/
structure DecisionEvidenceV1 where
  authority_state : JsValue
  policy_input : JsValue
  decision_context : JsValue
  decision_output : JsValue

def checkActionRef (action_ref : Str) : Check :=
  require (isLowerHexOf 64 action_ref) "action_ref must be lowercase sha256 hex"

def decisionRefInput (action_ref : Str) (decision : DecisionEvidenceV1) : Except ReceiptError DecisionRefInputV1 := do
  let normalizedOutput ← normalizeCoreDecisionOutputV1 R decision.decision_output
  let authority_state_ref ← computeDecisionComponentRefV1 R .authority decision.authority_state
  let policy_ref ← computeDecisionComponentRefV1 R .policy decision.policy_input
  let context_ref ← computeDecisionComponentRefV1 R .context decision.decision_context
  let decision_output_ref ← computeDecisionComponentRefV1 R .output normalizedOutput
  return { action_ref, authority_state_ref, policy_ref, context_ref, decision_output_ref }

def buildDecisionRefV1 (action_ref : Str) (decision : DecisionEvidenceV1) : Except ReceiptError Str := do
  checkActionRef action_ref
  let refInput ← decisionRefInput R action_ref decision
  computeDecisionRefV1 R refInput.toJs

inductive PredecessorFailure where
  | predecessor_not_supplied
  | predecessor_malformed (e : ReceiptError)
  | predecessor_not_policy_decision (receiptType : Str)
  | prev_absent
  | predecessor_receipt_id_mismatch (prev recomputed : Str)
  | decision_ref_absent
  | decision_ref_mismatch (decisionRef : Str)
  deriving DecidableEq

inductive PredecessorStatus where
  | valid | invalid | indeterminate | not_applicable
  deriving DecidableEq

/-- `bound` is `status === 'valid'`. -/
structure PredecessorVerification where
  status : PredecessorStatus
  failure : Option PredecessorFailure
  recomputed_predecessor_receipt_id : Option Str
  deriving DecidableEq

def refused (failure : PredecessorFailure) (recomputed : Option Str) : PredecessorVerification :=
  ⟨.invalid, some failure, recomputed⟩

def isStrEq (s : Str) : JsValue → Bool
  | .str t => t = s
  | _ => false

def compareDecisionRefs (receipt predecessor : JsValue) (recomputed : Str) : PredecessorVerification :=
  match receipt.get (lit "decision_ref") with
  | .str decisionRef =>
    if isStrEq decisionRef (predecessor.get (lit "decision_ref")) then ⟨.valid, none, some recomputed⟩
    else refused (.decision_ref_mismatch decisionRef) (some recomputed)
  | _ => refused .decision_ref_absent (some recomputed)

/-- The comparison of `prev` with the recomputed id of a policy decision. -/
def comparePrev (receipt predecessor : JsValue) : Except ReceiptError PredecessorVerification :=
  match receipt.get (lit "prev") with
  | .str prev => do
    let recomputed ← computeReceiptIdV1 R predecessor
    if recomputed ≠ prev then return refused (.predecessor_receipt_id_mismatch prev recomputed) (some recomputed)
    else return compareDecisionRefs receipt predecessor recomputed
  | _ => return refused .prev_absent none

def isNullish : JsValue → Bool
  | .undefined => true
  | .null => true
  | _ => false

def verifyReceiptPredecessorV1 (receipt predecessor : JsValue) : Except ReceiptError PredecessorVerification :=
  if !(isRecord receipt && isText "aps:action-result:v1" (receipt.get (lit "receipt_type"))) then
    return ⟨.not_applicable, none, none⟩
  else if isNullish predecessor then return ⟨.indeterminate, some .predecessor_not_supplied, none⟩
  else
    match validateReceiptV1 R.numText predecessor true with
    | .error e => return refused (.predecessor_malformed e) none
    | .ok () =>
      if !isText "aps:policy-decision:v1" (predecessor.get (lit "receipt_type")) then
        return refused (.predecessor_not_policy_decision (text (predecessor.get (lit "receipt_type")))) none
      else comparePrev R receipt predecessor

/-- `predecessor` is none where the options have no such property. -/
structure ReceiptWithDecisionOptionsV1 where
  stageOptions : StageOptions
  predecessor : Option JsValue

inductive PredecessorBound where
  | bound | not_bound | not_checked | not_applicable | not_established
  deriving DecidableEq

inductive CompositeError where
  | receipt (status : Status)
  | receiptEntry (e : ErrorEntry)
  | decision_ref_absent
  | decision_input_invalid
  | thrown (e : ReceiptError)
  | decision_ref_mismatch
  | decision_output_mismatch
  | predecessor (failure : PredecessorFailure)
  | predecessor_not_bound
  | timestamp_invalid
  | valid_until_not_after_issued_at
  deriving DecidableEq

/-- A flag that is none stands for `not_applicable`. -/
structure ReceiptWithDecisionVerificationV1 where
  valid : Bool
  status : Status
  receipt : ReceiptVerificationV1
  stage : StageResult
  decision_ref_present : Bool
  decision_ref_bound : Bool
  decision_output_bound : Option Bool
  temporal_relation_valid : Option Bool
  predecessor_bound : PredecessorBound
  errors : List CompositeError
  deriving DecidableEq

def notRun : StageResult := ⟨.invalid, none, none, .not_applicable, []⟩

def base (receipt : ReceiptVerificationV1) (status : Status) (errors : List CompositeError) :
    ReceiptWithDecisionVerificationV1 :=
  ⟨false, status, receipt, receipt.stage.getD notRun, false, false, none, some false, .not_checked, errors⟩

def recomputeDecisionRef (receipt : JsValue) (decision : DecisionEvidenceV1) : Except ReceiptError Str := do
  validateCoreDecisionOutputV1 R.toTextRuntime decision.decision_output
  buildDecisionRefV1 R (text (receipt.get (lit "action_ref"))) decision

/-- The outcome of the predecessor stage: what is reported, and the errors it leaves. -/
structure PredecessorStage where
  bound : PredecessorBound
  errors : List CompositeError

def predecessorStage (receipt : JsValue) : Option JsValue → Except ReceiptError PredecessorStage
  | none => return ⟨.not_checked, []⟩
  | some predecessor => do
    let result ← verifyReceiptPredecessorV1 R receipt predecessor
    let failure := result.failure.toList.map CompositeError.predecessor
    match result.status with
    | .not_applicable => return ⟨.not_applicable, []⟩
    | .indeterminate => return ⟨.not_established, failure⟩
    | .valid => return ⟨.bound, []⟩
    | .invalid => return ⟨.not_bound, .predecessor_not_bound :: failure⟩

def isPolicyDecision (stage : StageResult) : Bool := stage.stage = some .policyDecision

def temporalStage (receipt : JsValue) (decision : DecisionEvidenceV1) (bound : ReceiptWithDecisionVerificationV1) :
    ReceiptWithDecisionVerificationV1 :=
  let validUntil := decision.decision_output.get (lit "valid_until")
  let issuedAt := receipt.get (lit "issued_at")
  let passStatus : Status := if bound.predecessor_bound = .not_established then .indeterminate else .valid
  let passed :=
    { bound with
      temporal_relation_valid := if isPolicyDecision bound.stage then some true else none
      valid := passStatus = .valid
      status := passStatus }
  if isNull validUntil then passed
  else if !isUtcText issuedAt || !isUtcText validUntil then { bound with errors := bound.errors ++ [CompositeError.timestamp_invalid] }
  else if isPolicyDecision bound.stage && !isLaterUtcMillisecond (text validUntil) (text issuedAt) then
    { bound with errors := bound.errors ++ [CompositeError.valid_until_not_after_issued_at] }
  else passed

def predecessorThenTemporal (receipt : JsValue) (decision : DecisionEvidenceV1) (predecessor : Option JsValue)
    (bound : ReceiptWithDecisionVerificationV1) : Except ReceiptError ReceiptWithDecisionVerificationV1 := do
  let stage ← predecessorStage R receipt predecessor
  let bound := { bound with predecessor_bound := stage.bound, errors := stage.errors }
  if stage.bound = .not_bound then return bound else return temporalStage receipt decision bound

/-- The decision is bound; for a policy decision its output is the result of the receipt. -/
def outputThenPredecessor (receipt : JsValue) (decision : DecisionEvidenceV1) (predecessor : Option JsValue)
    (bound : ReceiptWithDecisionVerificationV1) : Except ReceiptError ReceiptWithDecisionVerificationV1 :=
  if isPolicyDecision bound.stage then do
    let result ← strictText R (receipt.get (lit "result"))
    let output ← strictText R decision.decision_output
    if result ≠ output then return { bound with decision_output_bound := some false, errors := [.decision_output_mismatch] }
    else predecessorThenTemporal R receipt decision predecessor { bound with decision_output_bound := some true }
  else predecessorThenTemporal R receipt decision predecessor bound

def verifyReceiptWithDecisionV1 (receipt : JsValue) (decision : DecisionEvidenceV1) (resolveKey : KeyResolver)
    (options : ReceiptWithDecisionOptionsV1) : Except ReceiptError ReceiptWithDecisionVerificationV1 := do
  let receiptResult ← verifyReceiptV1 R receipt resolveKey options.stageOptions []
  if !receiptResult.valid then
    return base receiptResult receiptResult.status (.receipt receiptResult.status :: receiptResult.errors.map .receiptEntry)
  else
    match receipt.get (lit "decision_ref") with
    | .str decisionRef =>
      let present := fun errors => { base receiptResult .invalid errors with decision_ref_present := true }
      match recomputeDecisionRef R receipt decision with
      | .error e => return present [.decision_input_invalid, .thrown e]
      | .ok recomputed =>
        if recomputed ≠ decisionRef then return present [.decision_ref_mismatch]
        else outputThenPredecessor R receipt decision options.predecessor { present [] with decision_ref_bound := true }
    | _ => return base receiptResult .invalid [.decision_ref_absent]

end

end AgentPassport.DecisionRef
