import AgentPassport.ReceiptStage
import AgentPassport.Sha256

/-! Issuing and verifying receipts (`v2/receipt-core/receipt.ts`). -/
namespace AgentPassport.ReceiptVerify
open JsText Js Utf8 Sha256 StrictParser StrictRoundTrip ReceiptSchema ReceiptStage

/-- The runtime: texts of numbers, NFC, `JSON.parse` on a number and the depth of the call stack,
SHA-256 and Ed25519. Signing fails on key material that is not hexadecimal. -/
structure Runtime extends TextRuntime where
  numberValue : Str → JsNumber
  stackLimit : Nat
  sha256 : Hash
  sign : Str → Str → Option Str
  verify : Str → Str → Str → Bool

section
variable (R : Runtime)

def RECEIPT_ID_TAG : Str := lit "APS-RECEIPT-ID-V1\x00"
def RECEIPT_SIG_TAG : Str := lit "APS-RECEIPT-SIG-V1\x00"

def strictText (value : JsValue) : Except ReceiptError Str :=
  match strictJCS R.numText value with
  | .ok canonical => return canonical
  | .error e => throw (.strict e)

def sha256Hex (s : Str) : Str := hex (R.sha256 (utf8 s))

def receiptIdPayloadV1 (receipt : JsValue) : Except ReceiptError Str := do
  let canonical ← strictText R (without receipt [lit "receipt_id", lit "signatures"])
  return RECEIPT_ID_TAG ++ canonical

def computeReceiptIdV1 (receipt : JsValue) : Except ReceiptError Str := do
  let payload ← receiptIdPayloadV1 R receipt
  return sha256Hex R payload

def receiptSignaturePayloadV1 (receipt descriptor : JsValue) : Except ReceiptError Str := do
  let canonical ← strictText R (.obj [(lit "receipt", without receipt [lit "signatures"]), (lit "signer", descriptor)])
  return RECEIPT_SIG_TAG ++ canonical

structure ReceiptSignerV1 where
  signer : Str
  key_id : Str
  private_key : Str
  deriving DecidableEq

def ReceiptSignerV1.key (s : ReceiptSignerV1) : Str × Str := (s.signer, s.key_id)

def ReceiptSignerV1.descriptor (s : ReceiptSignerV1) : List (Str × JsValue) :=
  [(lit "signer", .str s.signer), (lit "key_id", .str s.key_id), (lit "alg", .str (lit "Ed25519"))]

/-- The order of `compareEvidence` and `compareSignatures`, ties included. -/
def ordered (a b : Str × Str) : Bool := !before b a

def sortSigners (signers : List ReceiptSignerV1) : List ReceiptSignerV1 :=
  signers.insertionSort (fun a b => ordered a.key b.key = true)

/-- Items of another shape than an evidence reference are refused by the validation that follows. -/
def sortEvidence (refs : List JsValue) : List JsValue :=
  refs.insertionSort (fun a b => ordered (evidenceKey a) (evidenceKey b) = true)

/-- One string for each code point. -/
def spreadString : Str → List JsValue
  | [] => []
  | [c] => [.str [c]]
  | c :: d :: rest =>
    if isHigh c && isLow d then .str [c, d] :: spreadString rest else .str [c] :: spreadString (d :: rest)

/-- `[...value]`. -/
def spread : JsValue → Except ReceiptError (List JsValue)
  | .arr items => return items
  | .str s => return spreadString s
  | _ => throw .runtime

def setField (name : String) (v : JsValue) : JsValue → JsValue
  | .obj members => .obj (setMember (lit name) v members)
  | value => value

def signReceipt (draft : JsValue) (s : ReceiptSignerV1) : Except ReceiptError JsValue := do
  let payload ← receiptSignaturePayloadV1 R draft (.obj s.descriptor)
  match R.sign payload s.private_key with
  | some value => return .obj (s.descriptor ++ [(lit "value", JsValue.str value)])
  | none => throw .runtime

/-- `{ ...copiedFields, evidence_refs, receipt_id: '0'.repeat(64), signatures: [] }`. -/
def draftOf (fields : List (Str × JsValue)) (evidence_refs : List JsValue) : JsValue :=
  .obj (setMember (lit "signatures") (.arr []) (setMember (lit "receipt_id") (.str (List.replicate 64 0x30))
    (setMember (lit "evidence_refs") (.arr evidence_refs) fields)))

def checkSigners (signers : List ReceiptSignerV1) : Check := require (signers.length ≠ 0) "ReceiptV1: at least one signer"

/-- The members of `fields` are its own and `structuredClone` copies them. -/
def createReceiptV1 (fields : List (Str × JsValue)) (signers : List ReceiptSignerV1) : Except ReceiptError JsValue := do
  checkSigners signers
  let refs ← spread ((JsValue.obj fields).get (lit "evidence_refs"))
  let draft := draftOf fields (sortEvidence refs)
  validateReceiptV1 R.numText draft false
  let receipt_id ← computeReceiptIdV1 R draft
  let draft := setField "receipt_id" (.str receipt_id) draft
  let signatures ← (sortSigners signers).mapM (signReceipt R draft)
  let receipt := setField "signatures" (.arr signatures) draft
  validateReceiptV1 R.numText receipt true
  return receipt

end

inductive KeyOutcome where
  | not_found | ambiguous | malformed | unreachable | unsupported_scheme
  deriving DecidableEq

inductive KeyAnswer where
  | threw
  | nothing
  | key (material : Str)
  | failure (outcome : KeyOutcome)
  deriving DecidableEq

inductive KeyReason where
  | key_resolution_error
  | key_not_found | key_ambiguous | key_unreachable | key_material_malformed | key_scheme_unsupported
  | key_unresolved
  deriving DecidableEq

inductive SignerAuthority where
  | verified | not_established | invalid | not_checked
  deriving DecidableEq

inductive OtherSignatures where
  | none | all_verified | not_all_verified
  deriving DecidableEq

structure SignatureResult where
  signer : Str
  key_id : Str
  valid : Bool
  required : Bool
  reason : Option KeyReason
  deriving DecidableEq

inductive ErrorEntry where
  | unsupported_profile
  | receipt_id_mismatch
  | required_signature_missing
  | signature_invalid
  | signer_key_scheme_unsupported
  | signer_authority_indeterminate
  | stage (status : Status)
  | stageCode (code : String)
  | thrown (e : ReceiptError)
  | RESOURCE_LIMIT
  | parse_error
  | parser (e : IJsonError)
  deriving DecidableEq

/-- A flag that is none where its check never ran. -/
structure ReceiptVerificationV1 where
  valid : Bool
  status : Status
  receipt_id_valid : Option Bool
  signer_authority : SignerAuthority
  stage : Option StageResult
  signature_results : List SignatureResult
  other_signatures : OtherSignatures
  errors : List ErrorEntry
  deriving DecidableEq

abbrev KeyResolver := Str → Str → Str → KeyAnswer

def isKeyMaterial (s : Str) : Bool := s.length = 64 && s.all isHex

def keyResolutionReason : KeyAnswer → Option KeyReason
  | .threw => some .key_resolution_error
  | .key material => if isKeyMaterial material then none else some .key_material_malformed
  | .failure .not_found => some .key_not_found
  | .failure .ambiguous => some .key_ambiguous
  | .failure .unreachable => some .key_unreachable
  | .failure .malformed => some .key_material_malformed
  | .failure .unsupported_scheme => some .key_scheme_unsupported
  | .nothing => some .key_unresolved

def declaresForeignProfile (receipt : JsValue) : Bool :=
  match receipt.get (lit "profile") with
  | .str profile => profile ≠ PROFILE
  | _ => false

def stopped (status : Status) (errors : List ErrorEntry) : ReceiptVerificationV1 :=
  ⟨false, status, none, .not_checked, none, [], .none, errors⟩

/-- `new Set([issuer, ...requiredSigners])`, in the order the names were added. -/
def requiredSet (issuer : Str) (requiredSigners : List Str) : List Str :=
  (requiredSigners.foldl (fun names name => if names.any (· = name) then names else names ++ [name]) [issuer])

section
variable (R : Runtime)

def checkProof (receipt : JsValue) (required : List Str) (resolveKey : KeyResolver) (proof : JsValue) :
    Except ReceiptError SignatureResult :=
  let signer := text (proof.get (lit "signer"))
  let key_id := text (proof.get (lit "key_id"))
  let isRequired := required.any (· = signer)
  let answer := resolveKey signer key_id (text (receipt.get (lit "issued_at")))
  match keyResolutionReason answer, answer with
  | none, .key material => do
    let payload ← receiptSignaturePayloadV1 R receipt (without proof [lit "value"])
    return ⟨signer, key_id, R.verify payload (text (proof.get (lit "value"))) material, isRequired, none⟩
  | reason, _ => return ⟨signer, key_id, false, isRequired, reason⟩

def isUnresolved (r : SignatureResult) : Bool := r.reason.isSome && r.reason ≠ some .key_scheme_unsupported
def isUnsupportedScheme (r : SignatureResult) : Bool := r.reason = some .key_scheme_unsupported
def isBadBytes (r : SignatureResult) : Bool := !r.valid && r.reason.isNone

def aggregate (required : List Str) (receipt_id_valid : Bool) (results : List SignatureResult) (stage : StageResult) :
    ReceiptVerificationV1 :=
  let counted := results.filter (·.required)
  let others := results.filter (fun r => !r.required)
  let badBytes := counted.any isBadBytes
  let unsupportedScheme := counted.any isUnsupportedScheme
  let unresolved := counted.any isUnresolved
  let missing := required.filter (fun signer => !results.any (fun r => r.signer = signer))
  let errors :=
    (if receipt_id_valid then [] else [ErrorEntry.receipt_id_mismatch]) ++
    missing.map (fun _ => ErrorEntry.required_signature_missing) ++
    (if badBytes then [ErrorEntry.signature_invalid] else []) ++
    (if unsupportedScheme then [ErrorEntry.signer_key_scheme_unsupported] else []) ++
    (if unresolved then [ErrorEntry.signer_authority_indeterminate] else []) ++
    (if stage.status ≠ .valid then ErrorEntry.stage stage.status :: stage.failures.map (fun f => .stageCode f.code)
      else [])
  let status : Status :=
    if badBytes || !receipt_id_valid || stage.status = .invalid || errors.any (· = .required_signature_missing) then .invalid
    else if stage.status = .unsupported || unsupportedScheme then .unsupported
    else if unresolved || stage.status = .indeterminate then .indeterminate
    else .valid
  { valid := status = .valid
    status
    receipt_id_valid := some receipt_id_valid
    signer_authority := if badBytes then .invalid else if unresolved || unsupportedScheme then .not_established else .verified
    stage := some stage
    signature_results := results
    other_signatures :=
      if others.length = 0 then .none else if others.all (·.valid) then .all_verified else .not_all_verified
    errors }

def verifyEnvelope (receipt : JsValue) (resolveKey : KeyResolver) (stageOptions : StageOptions)
    (requiredSigners : List Str) : Except ReceiptError ReceiptVerificationV1 := do
  let receipt_id ← computeReceiptIdV1 R receipt
  let required := requiredSet (text (receipt.get (lit "issuer"))) requiredSigners
  let results ← (items (receipt.get (lit "signatures"))).mapM (checkProof R receipt required resolveKey)
  let stage := validateReceiptStageV1 R.toTextRuntime receipt stageOptions
  return aggregate required (decide (receipt_id = text (receipt.get (lit "receipt_id")))) results stage

def verifyReceiptV1 (receipt : JsValue) (resolveKey : KeyResolver) (stageOptions : StageOptions)
    (requiredSigners : List Str) : Except ReceiptError ReceiptVerificationV1 :=
  if declaresForeignProfile receipt then return stopped .unsupported [.unsupported_profile]
  else
    match validateReceiptV1 R.numText receipt true with
    | .error e => return stopped .invalid [.thrown e]
    | .ok () => verifyEnvelope R receipt resolveKey stageOptions requiredSigners

/-- `1_048_576` and `128`. -/
def MAX_UTF8_BYTES : JsNumber := .ofInt 1048576
def MAX_DEPTH : JsNumber := .ofInt 128

def verifyParsed (parsed : Except IJsonError JsValue) (resolveKey : KeyResolver) (stageOptions : StageOptions)
    (requiredSigners : List Str) : Except ReceiptError ReceiptVerificationV1 :=
  match parsed with
  | .error (.resourceLimit message) =>
    return stopped .indeterminate [.RESOURCE_LIMIT, .parser (.resourceLimit message)]
  | .error e => return stopped .invalid [.parse_error, .parser e]
  | .ok value => verifyReceiptV1 R value resolveKey stageOptions requiredSigners

def verifyReceiptV1Serialized (raw : Str) (resolveKey : KeyResolver) (stageOptions : StageOptions)
    (requiredSigners : List Str) : Except ReceiptError ReceiptVerificationV1 :=
  verifyParsed R (parseStrictIJson R.numberValue R.stackLimit raw MAX_UTF8_BYTES MAX_DEPTH) resolveKey stageOptions
    requiredSigners

end

end AgentPassport.ReceiptVerify
