import AgentPassport.ReceiptSchema

/-! The stage rules of a receipt (`v2/receipt-core/stage.ts`) and the closed schema of a decision output
(`v2/receipt-core/decision-ref.ts`). -/
namespace AgentPassport.ReceiptStage
open JsText Js ReceiptSchema Utf8
open DelegationSchema (sortNames)

/-- The text of a finite number and `normalize('NFC')`. -/
structure TextRuntime where
  numText : Double → Str
  nfc : Str → Str

def DECISION_OUTPUT_MEMBERS : List Str :=
  [lit "profile", lit "verdict", lit "effective_authority_ref", lit "constraints", lit "valid_until"]

def isText (s : String) : JsValue → Bool
  | .str t => t = lit s
  | _ => false

def isNull : JsValue → Bool
  | .null => true
  | _ => false

def isStr : JsValue → Bool
  | .str _ => true
  | _ => false

def isVerdict (v : JsValue) : Bool := isText "permit" v || isText "deny" v || isText "narrow" v

def isStrings : JsValue → Bool
  | .arr items => items.all isStr
  | _ => false

def checkAuthorityRef (input : JsValue) : Check := do
  let ref := input.get (lit "effective_authority_ref")
  let deny := isText "deny" (input.get (lit "verdict"))
  require (isNull ref || isHexText 64 ref) "CoreDecisionOutputV1: effective_authority_ref"
  require (!deny || isNull ref) "CoreDecisionOutputV1: deny requires null effective_authority_ref"
  require (deny || !isNull ref) "CoreDecisionOutputV1: permit/narrow require effective_authority_ref"

def checkValidUntil (input : JsValue) : Check :=
  let validUntil := input.get (lit "valid_until")
  if isText "deny" (input.get (lit "verdict")) then
    require (isNull validUntil) "CoreDecisionOutputV1: deny requires null valid_until"
  else
    require (isUtcText validUntil) "CoreDecisionOutputV1: permit/narrow require valid_until as exact UTC milliseconds"

section
variable (T : TextRuntime)

def assertCoreDecisionOutputShapeV1 (input : JsValue) : Check := do
  assertExactKeys input DECISION_OUTPUT_MEMBERS DECISION_OUTPUT_MEMBERS (lit "CoreDecisionOutputV1")
  assertStrict T.numText input
  require (isText "aps-core-decision-output-v1" (input.get (lit "profile"))) "CoreDecisionOutputV1: profile"
  require (isVerdict (input.get (lit "verdict"))) "CoreDecisionOutputV1: verdict"
  checkAuthorityRef input
  require (isStrings (input.get (lit "constraints"))) "CoreDecisionOutputV1: constraints"
  checkValidUntil input

def checkNfc (i : Nat) (constraint : Str) : Check := if T.nfc constraint ≠ constraint then throw (.notNfc i) else return ()

def checkConstraint (i : Nat) (previous : Option Str) (constraint : Str) : Check := do
  checkNfc T i constraint
  require (previous.all (fun p => utf8 p ≠ utf8 constraint)) "CoreDecisionOutputV1: duplicate constraint"
  require (previous.all (fun p => utf8 p < utf8 constraint)) "CoreDecisionOutputV1: constraints not sorted by UTF-8 bytes"

def checkConstraints : Nat → Option Str → List Str → Check
  | _, _, [] => return ()
  | i, previous, constraint :: rest => do
    checkConstraint T i previous constraint
    checkConstraints (i + 1) (some constraint) rest

def constraintsOf (input : JsValue) : List Str := (items (input.get (lit "constraints"))).map text

def validateCoreDecisionOutputV1 (input : JsValue) : Check := do
  assertCoreDecisionOutputShapeV1 T input
  checkConstraints T 0 none (constraintsOf input)

end

/-- A stage of the table; a name that every object inherits is found in it too. -/
inductive Stage where
  | actionIntent
  | policyDecision
  | actionResult
  | inherited (name : Str)
  deriving DecidableEq

inductive Status where
  | valid | invalid | indeterminate | unsupported
  deriving DecidableEq

inductive BoundaryIdentity where
  | verified | mismatch | not_established | not_applicable
  deriving DecidableEq

inductive StageFailure where
  | notAnObject
  | profileNotAString
  | unsupportedProfile (profile : Str)
  | schemaInvalid (e : ReceiptError)
  | stageMismatch (expected actual : Str)
  | unsupportedReceiptType (receiptType : Str)
  | INTENT_ISSUER_NOT_ACTING_AGENT | INTENT_PREV_PRESENT | INTENT_DECISION_REF_PRESENT
  | INTENT_RESULT_PROFILE | INTENT_RESULT_INVALID
  | DECISION_PREV_MISSING | DECISION_REF_MISSING
  | decisionResultInvalid (e : ReceiptError)
  | validUntilNotAfterIssuedAt (validUntil issuedAt : Str)
  | RESULT_PREV_MISSING | RESULT_DECISION_REF_MISSING | RESULT_PROFILE | RESULT_MEMBERS | RESULT_STATUS
  | RESULT_EFFECT_REF | RESULT_EFFECT_REF_REQUIRED | RESULT_ERROR_CODE_PRESENT | RESULT_ERROR_CODE_REQUIRED
  | RESULT_UNKNOWN_NOT_NULL
  | boundaryIdentityMismatch (issuer : Str)
  deriving DecidableEq

def StageFailure.code : StageFailure → String
  | .notAnObject => "SCHEMA_INVALID"
  | .profileNotAString => "SCHEMA_INVALID"
  | .unsupportedProfile _ => "UNSUPPORTED_PROFILE"
  | .schemaInvalid _ => "SCHEMA_INVALID"
  | .stageMismatch _ _ => "STAGE_MISMATCH"
  | .unsupportedReceiptType _ => "UNSUPPORTED_RECEIPT_TYPE"
  | .INTENT_ISSUER_NOT_ACTING_AGENT => "INTENT_ISSUER_NOT_ACTING_AGENT"
  | .INTENT_PREV_PRESENT => "INTENT_PREV_PRESENT"
  | .INTENT_DECISION_REF_PRESENT => "INTENT_DECISION_REF_PRESENT"
  | .INTENT_RESULT_PROFILE => "INTENT_RESULT_PROFILE"
  | .INTENT_RESULT_INVALID => "INTENT_RESULT_INVALID"
  | .DECISION_PREV_MISSING => "DECISION_PREV_MISSING"
  | .DECISION_REF_MISSING => "DECISION_REF_MISSING"
  | .decisionResultInvalid _ => "DECISION_RESULT_INVALID"
  | .validUntilNotAfterIssuedAt _ _ => "DECISION_VALID_UNTIL_NOT_AFTER_ISSUED_AT"
  | .RESULT_PREV_MISSING => "RESULT_PREV_MISSING"
  | .RESULT_DECISION_REF_MISSING => "RESULT_DECISION_REF_MISSING"
  | .RESULT_PROFILE => "RESULT_PROFILE"
  | .RESULT_MEMBERS => "RESULT_MEMBERS"
  | .RESULT_STATUS => "RESULT_STATUS"
  | .RESULT_EFFECT_REF => "RESULT_EFFECT_REF"
  | .RESULT_EFFECT_REF_REQUIRED => "RESULT_EFFECT_REF_REQUIRED"
  | .RESULT_ERROR_CODE_PRESENT => "RESULT_ERROR_CODE_PRESENT"
  | .RESULT_ERROR_CODE_REQUIRED => "RESULT_ERROR_CODE_REQUIRED"
  | .RESULT_UNKNOWN_NOT_NULL => "RESULT_UNKNOWN_NOT_NULL"
  | .boundaryIdentityMismatch _ => "BOUNDARY_IDENTITY_MISMATCH"

structure StageResult where
  status : Status
  receipt_type : Option Str
  stage : Option Stage
  boundary_identity : BoundaryIdentity
  failures : List StageFailure
  deriving DecidableEq

structure StageOptions where
  expectedReceiptType : Option Str
  boundaryIdentity : Option Str

/-- The members of `Object.prototype`. -/
def INHERITED : List Str :=
  [lit "constructor", lit "__defineGetter__", lit "__defineSetter__", lit "hasOwnProperty", lit "__lookupGetter__",
    lit "__lookupSetter__", lit "isPrototypeOf", lit "propertyIsEnumerable", lit "toString", lit "valueOf",
    lit "__proto__", lit "toLocaleString"]

/-- `RECEIPT_STAGE_TYPES_V1[receiptType]`. -/
def stageOf (receiptType : Str) : Option Stage :=
  if receiptType = lit "aps:action-intent:v1" then some .actionIntent
  else if receiptType = lit "aps:policy-decision:v1" then some .policyDecision
  else if receiptType = lit "aps:action-result:v1" then some .actionResult
  else if INHERITED.any (· = receiptType) then some (.inherited receiptType)
  else none

def failIf (bad : Bool) (f : StageFailure) : List StageFailure := if bad then [f] else []

def isAbsent : JsValue → Bool
  | .undefined => true
  | _ => false

def keysOf : JsValue → List Str
  | .obj members => members.map Prod.fst
  | _ => []

def checkActionIntent (receipt : JsValue) : List StageFailure :=
  let result := receipt.get (lit "result")
  failIf (text (receipt.get (lit "issuer")) ≠ text (receipt.get (lit "subject_agent"))) .INTENT_ISSUER_NOT_ACTING_AGENT ++
    failIf (!isAbsent (receipt.get (lit "prev"))) .INTENT_PREV_PRESENT ++
    failIf (!isAbsent (receipt.get (lit "decision_ref"))) .INTENT_DECISION_REF_PRESENT ++
    if !isText "aps-action-intent-result-v1" (result.get (lit "profile")) then [.INTENT_RESULT_PROFILE]
    else failIf ((keysOf result).length ≠ 2 || !(keysOf result).any (· = lit "status") ||
      !isText "declared" (result.get (lit "status"))) .INTENT_RESULT_INVALID

/-- `keys.sort().join(',')`. -/
def joinedKeys (keys : List Str) : Str := (lit ",").intercalate (sortNames keys)

def checkResultStatus (result : JsValue) : List StageFailure :=
  let status := result.get (lit "status")
  let effectRef := result.get (lit "effect_ref")
  let errorCode := result.get (lit "error_code")
  if !(isText "succeeded" status || isText "failed" status || isText "unknown" status) then [.RESULT_STATUS]
  else if !(isNull effectRef || isHexText 64 effectRef) then [.RESULT_EFFECT_REF]
  else if isText "succeeded" status then
    failIf (isNull effectRef) .RESULT_EFFECT_REF_REQUIRED ++ failIf (!isNull errorCode) .RESULT_ERROR_CODE_PRESENT
  else if isText "failed" status then failIf (!isIdentifier errorCode) .RESULT_ERROR_CODE_REQUIRED
  else failIf (!isNull effectRef || !isNull errorCode) .RESULT_UNKNOWN_NOT_NULL

def checkActionResult (receipt : JsValue) : List StageFailure :=
  let result := receipt.get (lit "result")
  failIf (isAbsent (receipt.get (lit "prev"))) .RESULT_PREV_MISSING ++
    failIf (isAbsent (receipt.get (lit "decision_ref"))) .RESULT_DECISION_REF_MISSING ++
    if !isText "aps-action-result-v1" (result.get (lit "profile")) then [.RESULT_PROFILE]
    else if (keysOf result).length ≠ 4 || joinedKeys (keysOf result) ≠ lit "effect_ref,error_code,profile,status" then
      [.RESULT_MEMBERS]
    else checkResultStatus result

section
variable (T : TextRuntime)

def checkDecisionResult (receipt : JsValue) : List StageFailure :=
  let result := receipt.get (lit "result")
  match validateCoreDecisionOutputV1 T result with
  | .error e => [.decisionResultInvalid e]
  | .ok () =>
    let validUntil := text (result.get (lit "valid_until"))
    let issuedAt := text (receipt.get (lit "issued_at"))
    failIf (!isText "deny" (result.get (lit "verdict")) &&
      (!isExactUtcMilliseconds validUntil || !isLaterUtcMillisecond validUntil issuedAt))
      (.validUntilNotAfterIssuedAt validUntil issuedAt)

def checkPolicyDecision (receipt : JsValue) : List StageFailure :=
  failIf (isAbsent (receipt.get (lit "prev"))) .DECISION_PREV_MISSING ++
    failIf (isAbsent (receipt.get (lit "decision_ref"))) .DECISION_REF_MISSING ++ checkDecisionResult T receipt

/-- The rules of the other stages and the identity of the enforcement boundary. -/
def boundaryResult (receipt : JsValue) (options : StageOptions) (stage : Stage) (failures : List StageFailure) :
    StageResult :=
  let issuer := text (receipt.get (lit "issuer"))
  let boundary : BoundaryIdentity :=
    match options.boundaryIdentity with
    | none => .not_established
    | some identity => if identity = issuer then .verified else .mismatch
  let all := failures ++ failIf (boundary = .mismatch) (.boundaryIdentityMismatch issuer)
  { status := if all.length > 0 then .invalid else if boundary = .not_established then .indeterminate else .valid
    receipt_type := some (text (receipt.get (lit "receipt_type")))
    stage := some stage
    boundary_identity := boundary
    failures := all }

/-- The rules of a receipt whose envelope is in order. -/
def stageResult (receipt : JsValue) (options : StageOptions) : StageResult :=
  let receiptType := text (receipt.get (lit "receipt_type"))
  let plain (status : Status) (stage : Option Stage) (failures : List StageFailure) : StageResult :=
    ⟨status, some receiptType, stage, .not_applicable, failures⟩
  match options.expectedReceiptType.filter (fun expected => expected ≠ receiptType) with
  | some expected => plain .invalid none [.stageMismatch expected receiptType]
  | none =>
    match stageOf receiptType with
    | none => plain .unsupported none [.unsupportedReceiptType receiptType]
    | some .actionIntent =>
      let failures := checkActionIntent receipt
      plain (if failures.length = 0 then .valid else .invalid) (some .actionIntent) failures
    | some .policyDecision => boundaryResult receipt options .policyDecision (checkPolicyDecision T receipt)
    | some stage => boundaryResult receipt options stage (checkActionResult receipt)

def receiptTypeOf (receipt : JsValue) : Option Str :=
  match receipt.get (lit "receipt_type") with
  | .str s => some s
  | _ => none

def validateReceiptStageV1 (receipt : JsValue) (options : StageOptions) : StageResult :=
  let plain (status : Status) (f : StageFailure) : StageResult :=
    ⟨status, receiptTypeOf receipt, none, .not_applicable, [f]⟩
  if !isRecord receipt then plain .invalid .notAnObject
  else
    match receipt.get (lit "profile") with
    | .str profile =>
      if profile ≠ PROFILE then plain .unsupported (.unsupportedProfile profile)
      else
        match validateReceiptV1 T.numText receipt true with
        | .error e => plain .invalid (.schemaInvalid e)
        | .ok () => stageResult T receipt options
    | _ => plain .invalid .profileNotAString

end

end AgentPassport.ReceiptStage
