import AgentPassport.KeyRotation
import AgentPassport.Sha256

/-! The verifiers of payment receipts and denials (`v2/payment-rails/hooks.ts`, with the DID references
of `core/did-uri.ts`): one that reads a raw public key and one that also resolves DID references. -/
namespace AgentPassport.PaymentVerifiers
open JsText Js CanonicalJcs Sha256 Utf8 Multibase Rfc3339 CanonicalInjective
open KeyRotation (RotatableDIDDocument RotatableVerificationMethod findMethod)

/-- Number texts, SHA-256, Ed25519, `Date.parse` and the clock. -/
structure Runtime where
  numText : Double → Str
  sha256 : Hash
  verify : Str → Str → Str → Bool
  dateParse : Str → JsNumber
  dateNow : JsNumber

/-- A receipt or a denial. The members that no verifier reads by itself, and the reason of a denial,
are among the others; the two optional members are whatever the object carries. -/
structure RailRecord where
  claim_type : Str
  receipt_id : Str
  signer_did : Str
  issued_at : Str
  timestamp : Option JsValue
  scope_of_claim : Option JsValue
  others : List (Str × JsValue)
  signature : Str

inductive VerifyReason where
  | INVALID_CLAIM_TYPE | INVALID_DENIAL_REASON | RECEIPT_ID_MISMATCH | SIGNATURE_INVALID | DID_RESOLVER_MISSING
  | DID_URI_INVALID | DID_DOC_NOT_FOUND | DID_KEY_NOT_IN_DOC | DID_KEY_RETIRED
  deriving DecidableEq

inductive VerifyResult where
  | valid
  | invalid (reason : VerifyReason)
  deriving DecidableEq

def VerifyResult.isValid : VerifyResult → Bool
  | .valid => true
  | .invalid _ => false

/-- What a verifier throws: a value without a canonical form, a malformed key, or a failed resolver. -/
inductive VerifyError where
  | canonical (e : JcsError)
  | multibase (e : MultibaseError)
  | resolver
  deriving DecidableEq

def RAIL_PAYMENT_RECEIPT_CLAIM_TYPE : Str := lit "rail.payment.v1"
def LEGACY_PAYMENT_RECEIPT_CLAIM_TYPE : Str := lit "aps:payment_receipt:v1"
def RAIL_PAYMENT_DENIAL_CLAIM_TYPE : Str := lit "rail.payment.denial.v1"
def LEGACY_PAYMENT_DENIAL_CLAIM_TYPE : Str := lit "aps:payment_denial:v1"
def RAIL_BUDGET_RESERVATION_PERMIT_CLAIM_TYPE : Str := lit "rail.budget_reservation.permit.v1"
def RAIL_BUDGET_RESERVATION_RELEASE_CLAIM_TYPE : Str := lit "rail.budget_reservation.release.v1"
def RAIL_BUDGET_RESERVATION_DENIAL_CLAIM_TYPE : Str := lit "rail.budget_reservation.denial.v1"

def receiptClaimTypes : List Str :=
  [LEGACY_PAYMENT_RECEIPT_CLAIM_TYPE, RAIL_PAYMENT_RECEIPT_CLAIM_TYPE, RAIL_BUDGET_RESERVATION_PERMIT_CLAIM_TYPE,
    RAIL_BUDGET_RESERVATION_RELEASE_CLAIM_TYPE]

def denialClaimTypes : List Str :=
  [LEGACY_PAYMENT_DENIAL_CLAIM_TYPE, RAIL_PAYMENT_DENIAL_CLAIM_TYPE, RAIL_BUDGET_RESERVATION_DENIAL_CLAIM_TYPE]

def VALID_DENIAL_REASONS : List Str :=
  [lit "no_commerce_scope", lit "spend_limit_exceeded", lit "wallet_revoked", lit "time_window_violation",
    lit "rail_error", lit "requires_owner_confirmation"]

def optional (name : String) (v : Option JsValue) : List (Str × JsValue) := (v.map (fun v => (lit name, v))).toList

def RailRecord.value (r : RailRecord) : JsValue :=
  .obj ([(lit "claim_type", JsValue.str r.claim_type), (lit "receipt_id", .str r.receipt_id),
    (lit "signer_did", .str r.signer_did), (lit "issued_at", .str r.issued_at)] ++ optional "timestamp" r.timestamp ++
    optional "scope_of_claim" r.scope_of_claim ++ r.others ++ [(lit "signature", JsValue.str r.signature)])

section
variable (R : Runtime)

def canonicalText (v : JsValue) : Except VerifyError Str :=
  match canonicalizeJCS R.numText v with
  | .ok text => return text
  | .error e => throw (.canonical e)

def canonicalizeForId (r : RailRecord) : Except VerifyError Str :=
  canonicalText R { r with receipt_id := [], signature := [] }.value

def canonicalizeForSig (r : RailRecord) : Except VerifyError Str := canonicalText R { r with signature := [] }.value

def sha256Hex (s : Str) : Str := hex (R.sha256 (utf8 s))

/-- `!!v`. -/
def truthy : JsValue → Bool
  | .undefined => false
  | .null => false
  | .bool b => b
  | .num n => !(n.eq (JsNumber.ofInt 0) || n = .nan)
  | .str s => s ≠ []
  | _ => true

/-- `timestamp === issued_at`, and a text in `scope_of_claim.asserts`. -/
def shaped (r : RailRecord) : Bool :=
  (match r.timestamp with
    | some (.str timestamp) => timestamp = r.issued_at
    | _ => false) &&
  (match r.scope_of_claim with
    | some scope =>
      truthy scope && match scope.get (lit "asserts") with
        | .str asserts => 0 < asserts.length
        | _ => false
    | none => false)

/-- `signer_did.startsWith('did:')`. -/
def isDid (signer_did : Str) : Bool := signer_did.take 4 = lit "did:"

def denialReasonValid (denial : RailRecord) : Bool :=
  match (JsValue.obj denial.others).get (lit "denial_reason") with
  | .str reason => reason ∈ VALID_DENIAL_REASONS
  | _ => false

def signatureResult (payload signature publicKey : Str) : VerifyResult :=
  if R.verify payload signature publicKey then .valid else .invalid .SIGNATURE_INVALID

def verifySignature (r : RailRecord) : Except VerifyError VerifyResult :=
  if isDid r.signer_did then return .invalid .DID_RESOLVER_MISSING
  else do
    let payload ← canonicalizeForSig R r
    return signatureResult R payload r.signature r.signer_did

def verifyIdAndSignature (r : RailRecord) : Except VerifyError VerifyResult := do
  let text ← canonicalizeForId R r
  if r.receipt_id ≠ sha256Hex R text then return .invalid .RECEIPT_ID_MISMATCH else verifySignature R r

/-- The checks in their order: the claim type, the shape under the rail's own type, the reason of a
denial, the id and the signature. -/
def verifyRecord (claimTypes : List Str) (rail : Str) (reasonValid : Bool) (r : RailRecord) :
    Except VerifyError VerifyResult :=
  if r.claim_type ∉ claimTypes then return .invalid .INVALID_CLAIM_TYPE
  else if r.claim_type = rail ∧ !shaped r then return .invalid .INVALID_CLAIM_TYPE
  else if !reasonValid then return .invalid .INVALID_DENIAL_REASON
  else verifyIdAndSignature R r

def verifyPaymentReceipt (receipt : RailRecord) : Except VerifyError VerifyResult :=
  verifyRecord R receiptClaimTypes RAIL_PAYMENT_RECEIPT_CLAIM_TYPE true receipt

def verifyPaymentDenial (denial : RailRecord) : Except VerifyError VerifyResult :=
  verifyRecord R denialClaimTypes RAIL_PAYMENT_DENIAL_CLAIM_TYPE (denialReasonValid denial) denial

structure VerifyReceiptOptions where
  /-- A resolver may reject. -/
  resolveDidDocument : Option (Str → Except VerifyError (Option RotatableDIDDocument))
  now : Option JsNumber

/-- The DID and the fragment of `<agentId>#<keyRef>`. -/
def parseDidUri (s : Str) : Option (Str × Str) :=
  if !isDid s then none
  else
    match s.findIdx? (· = 0x23) with
    | none => none
    | some hashIdx =>
      let agentId := s.take hashIdx
      let keyRef := s.drop (hashIdx + 1)
      if hashIdx ≤ 4 then none
      else if agentId.length = 0 ∨ keyRef.length = 0 then none
      else if keyRef.any (· = 0x23) then none
      else some (agentId, keyRef)

def isFinite : JsNumber → Bool
  | .finite _ => true
  | _ => false

def retired (method : RotatableVerificationMethod) (now issued : JsNumber) : Bool :=
  match method.retiredAt with
  | none => false
  | some [] => false
  | some retiredAt =>
    match parseRfc3339 (.str retiredAt) with
    | .error _ => true
    | .ok ms => !isFinite now || !isFinite issued || (JsNumber.ofInt ms).le issued

def resolveVerificationMethod (didDoc : RotatableDIDDocument) (didUri : Str) (nowMs issuedAtMs : Option JsNumber) :
    Option (RotatableVerificationMethod × Bool) :=
  match parseDidUri didUri with
  | none => none
  | some (agentId, _) =>
    if didDoc.id ≠ agentId then none
    else
      match findMethod didUri didDoc.verificationMethod with
      | none => none
      | some method =>
        let now := nowMs.getD R.dateNow
        some (method, retired method now (issuedAtMs.getD now))

def publicKeyHexFromMethod (method : RotatableVerificationMethod) : Except VerifyError Str :=
  match multibaseToHex method.publicKeyMultibase with
  | .ok key => return key
  | .error e => throw (.multibase e)

/-- `Date.parse(issuedAt)`, unless the text is empty or names no instant. -/
def issuedAtMs (issuedAt : Str) : Option JsNumber :=
  if issuedAt ≠ [] ∧ isFinite (R.dateParse issuedAt) then some (R.dateParse issuedAt) else none

/-- The key of a document found for a DID reference, and the signature under it. -/
def verifyWithDocument (didDoc : RotatableDIDDocument) (signerDid payload signature issuedAt : Str)
    (options : VerifyReceiptOptions) : Except VerifyError VerifyResult :=
  match resolveVerificationMethod R didDoc signerDid options.now (issuedAtMs R issuedAt) with
  | none => return .invalid .DID_KEY_NOT_IN_DOC
  | some (method, isRetired) =>
    if isRetired then return .invalid .DID_KEY_RETIRED
    else do
      let pubHex ← publicKeyHexFromMethod method
      return signatureResult R payload signature pubHex

def verifyDid (signerDid payload signature issuedAt : Str) (options : VerifyReceiptOptions) :
    Except VerifyError VerifyResult :=
  match options.resolveDidDocument with
  | none => return .invalid .DID_RESOLVER_MISSING
  | some resolveDidDocument =>
    match parseDidUri signerDid with
    | none => return .invalid .DID_URI_INVALID
    | some (agentId, _) => do
      let didDoc ← resolveDidDocument agentId
      match didDoc with
      | none => return .invalid .DID_DOC_NOT_FOUND
      | some didDoc => verifyWithDocument R didDoc signerDid payload signature issuedAt options

def verifyDidOrRawHex (signerDid payload signature issuedAt : Str) (options : VerifyReceiptOptions) :
    Except VerifyError VerifyResult :=
  if !isDid signerDid then return signatureResult R payload signature signerDid
  else verifyDid R signerDid payload signature issuedAt options

def verifyIdWithDID (r : RailRecord) (options : VerifyReceiptOptions) : Except VerifyError VerifyResult := do
  let text ← canonicalizeForId R r
  if r.receipt_id ≠ sha256Hex R text then return .invalid .RECEIPT_ID_MISMATCH
  else do
    let sigBytes ← canonicalizeForSig R r
    verifyDidOrRawHex R r.signer_did sigBytes r.signature r.issued_at options

/-- The shape under the rail's own claim type is not checked here. -/
def verifyRecordWithDID (claimTypes : List Str) (reasonValid : Bool) (r : RailRecord) (options : VerifyReceiptOptions) :
    Except VerifyError VerifyResult :=
  if r.claim_type ∉ claimTypes then return .invalid .INVALID_CLAIM_TYPE
  else if !reasonValid then return .invalid .INVALID_DENIAL_REASON
  else verifyIdWithDID R r options

def verifyPaymentReceiptWithDID (receipt : RailRecord) (options : VerifyReceiptOptions) :
    Except VerifyError VerifyResult :=
  verifyRecordWithDID R receiptClaimTypes true receipt options

def verifyPaymentDenialWithDID (denial : RailRecord) (options : VerifyReceiptOptions) :
    Except VerifyError VerifyResult :=
  verifyRecordWithDID R denialClaimTypes (denialReasonValid denial) denial options

/-- The valid flag that is returned, or what is thrown. -/
def flag (result : Except VerifyError VerifyResult) : Except VerifyError Bool := result.map VerifyResult.isValid

/-- The id or the signature does not check, and nothing throws before that is known. -/
def Refuted (r : RailRecord) : Prop :=
  ∃ text, canonicalizeForId R r = .ok text ∧ (r.receipt_id = sha256Hex R text →
    ∃ payload, canonicalizeForSig R r = .ok payload ∧ R.verify payload r.signature r.signer_did = false)

/-- Where the synchronous verifier refuses a record for its shape alone, the other finds a reason too. -/
def Unaffected (rail : Str) (reasonValid : Bool) (r : RailRecord) : Prop :=
  r.claim_type = rail → shaped r = true ∨ reasonValid = false ∨ Refuted R r

variable {R} {r : RailRecord} {options : VerifyReceiptOptions}

theorem bind_congr_ok {x : Except VerifyError Str} {f g : Str → Except VerifyError VerifyResult}
    (h : ∀ a, f a = g a) : (x >>= f) = (x >>= g) := by
  cases x with
  | error e => rfl
  | ok a => exact h a

theorem verifyIdWithDID_raw (hraw : isDid r.signer_did = false) :
    verifyIdWithDID R r options = verifyIdAndSignature R r := by
  rw [verifyIdWithDID, verifyIdAndSignature]
  apply bind_congr_ok
  intro text
  by_cases hid : r.receipt_id ≠ sha256Hex R text
  · rw [if_pos hid, if_pos hid]
  · rw [if_neg hid, if_neg hid, verifySignature, hraw]
    apply bind_congr_ok
    intro payload
    rw [verifyDidOrRawHex, hraw]
    rfl

theorem flag_signature (payload signature publicKey : Str) :
    flag (.ok (signatureResult R payload signature publicKey)) = .ok (R.verify payload signature publicKey) := by
  rw [signatureResult]
  cases R.verify payload signature publicKey <;> rfl

theorem flag_false_iff (hraw : isDid r.signer_did = false) :
    flag (verifyIdAndSignature R r) = .ok false ↔ Refuted R r := by
  rw [verifyIdAndSignature, Refuted]
  cases htext : canonicalizeForId R r with
  | error e =>
    constructor
    · intro h
      cases h
    · intro h
      obtain ⟨text, hok, -⟩ := h
      cases hok
  | ok text =>
    have hbind : (do
        let text ← (Except.ok text : Except VerifyError Str)
        if r.receipt_id ≠ sha256Hex R text then return VerifyResult.invalid .RECEIPT_ID_MISMATCH
        else verifySignature R r) =
        if r.receipt_id ≠ sha256Hex R text then .ok (.invalid .RECEIPT_ID_MISMATCH) else verifySignature R r := rfl
    rw [hbind]
    by_cases hid : r.receipt_id = sha256Hex R text
    · rw [if_neg (not_not.mpr hid), verifySignature, hraw]
      cases hpayload : canonicalizeForSig R r with
      | error e =>
        constructor
        · intro h
          cases h
        · intro h
          obtain ⟨text', hok, himp⟩ := h
          cases hok
          obtain ⟨payload, hok, -⟩ := himp hid
          cases hok
      | ok payload =>
        constructor
        · intro h
          have hflag := (flag_signature payload r.signature r.signer_did).symm.trans h
          exact ⟨text, rfl, fun _ => ⟨payload, rfl, Except.ok.inj hflag⟩⟩
        · intro h
          obtain ⟨text', hok, himp⟩ := h
          cases hok
          obtain ⟨payload', hok, hverify⟩ := himp hid
          cases hok
          exact (flag_signature payload r.signature r.signer_did).trans (congrArg Except.ok hverify)
    · rw [if_pos hid]
      exact ⟨fun _ => ⟨text, rfl, fun heq => absurd heq hid⟩, fun _ => rfl⟩

theorem agree_iff {claimTypes : List Str} {rail : Str} (hrail : rail ∈ claimTypes) (reasonValid : Bool)
    (hraw : isDid r.signer_did = false) :
    flag (verifyRecordWithDID R claimTypes reasonValid r options) = flag (verifyRecord R claimTypes rail reasonValid r) ↔
      Unaffected R rail reasonValid r := by
  rw [verifyRecordWithDID, verifyRecord, verifyIdWithDID_raw hraw, Unaffected]
  by_cases htype : r.claim_type ∈ claimTypes
  · rw [if_neg (not_not.mpr htype), if_neg (not_not.mpr htype)]
    by_cases hskip : r.claim_type = rail ∧ (!shaped r) = true
    · rw [if_pos hskip]
      obtain ⟨heq, hshape⟩ := hskip
      rw [Bool.not_eq_true'] at hshape
      cases reasonValid with
      | false => exact ⟨fun _ _ => .inr (.inl rfl), fun _ => rfl⟩
      | true =>
        have hrest := flag_false_iff (R := R) hraw
        constructor
        · intro h _
          exact .inr (.inr (hrest.mp h))
        · intro h
          obtain hok | hok | hok := h heq
          · rw [hshape] at hok
            cases hok
          · cases hok
          · exact hrest.mpr hok
    · rw [if_neg hskip]
      refine ⟨fun _ heq => ?_, fun _ => rfl⟩
      by_cases hshape : shaped r = true
      · exact .inl hshape
      · rw [Bool.not_eq_true] at hshape
        exact absurd ⟨heq, by rw [hshape]; rfl⟩ hskip
  · rw [if_pos htype, if_pos htype]
    refine ⟨fun _ heq => ?_, fun _ => rfl⟩
    rw [heq] at htype
    exact absurd hrail htype

end

/-- For a record signed under a raw key, the two receipt verifiers and the two denial verifiers return
the same flag exactly when the shape check changes nothing. -/
theorem payment_verifiers_agree_iff (R : Runtime) :
    (∀ receipt options, isDid receipt.signer_did = false →
      (flag (verifyPaymentReceiptWithDID R receipt options) = flag (verifyPaymentReceipt R receipt) ↔
        Unaffected R RAIL_PAYMENT_RECEIPT_CLAIM_TYPE true receipt)) ∧
    ∀ denial options, isDid denial.signer_did = false →
      (flag (verifyPaymentDenialWithDID R denial options) = flag (verifyPaymentDenial R denial) ↔
        Unaffected R RAIL_PAYMENT_DENIAL_CLAIM_TYPE (denialReasonValid denial) denial) := by
  constructor
  · intro receipt options hraw
    exact agree_iff (by simp [receiptClaimTypes]) true hraw
  · intro denial options hraw
    exact agree_iff (by simp [denialClaimTypes]) (denialReasonValid denial) hraw

/-! ### A receipt without the members of its type

The digest and the signature are those of SHA-256 and of Ed25519 with the private key of 32 bytes
`01`. -/

def bareReceiptId : Str := lit "631c36619856f59615948486613b8e89f0d97bf7cb222a3833fbcb5b882b4dfc"

def bareSigner : Str := lit "8a88e3dd7409f195fd52db2d3cba5d72ca6709bf1d94121bf3748801b40f6f5c"

def barePayload : Str :=
  lit "\x7b\"action_ref\":\"a1\",\"amount_base_units\":\"5\",\"claim_type\":\"rail.payment.v1\",\"currency\":\"XNO\",\"dele" ++
    lit "gation_ref\":\"d1\",\"issued_at\":\"2026-01-02T03:04:05.006Z\",\"rail_name\":\"nano\",\"receipt_id\":\"631c366" ++
    lit "19856f59615948486613b8e89f0d97bf7cb222a3833fbcb5b882b4dfc\",\"signature\":\"\",\"signer_did\":\"8a88e3dd" ++
    lit "7409f195fd52db2d3cba5d72ca6709bf1d94121bf3748801b40f6f5c\",\"tx_proof\":\"b1\"\x7d"

def bareSignature : Str :=
  lit "4b928eb7c43ab3d34a756c7798a340b1c2d052f300420990b1f721521f841626" ++
    lit "5cc314811f9c9f4167fc05003f227d1ca235b36bb3c24784b3f90a1d63346501"

/-- Of the type `rail.payment.v1`, with neither `timestamp` nor `scope_of_claim`. -/
def bareReceipt : RailRecord where
  claim_type := RAIL_PAYMENT_RECEIPT_CLAIM_TYPE
  receipt_id := bareReceiptId
  signer_did := bareSigner
  issued_at := lit "2026-01-02T03:04:05.006Z"
  timestamp := none
  scope_of_claim := none
  others := [(lit "delegation_ref", .str (lit "d1")), (lit "action_ref", .str (lit "a1")),
    (lit "rail_name", .str (lit "nano")), (lit "amount_base_units", .str (lit "5")),
    (lit "currency", .str (lit "XNO")), (lit "tx_proof", .str (lit "b1"))]
  signature := bareSignature

def bareRuntime : Runtime where
  numText := integerText
  sha256 := ofTable [(utf8 (
    lit "\x7b\"action_ref\":\"a1\",\"amount_base_units\":\"5\",\"claim_type\":\"rail.payment.v1\",\"currency\":\"XNO\",\"dele" ++
    lit "gation_ref\":\"d1\",\"issued_at\":\"2026-01-02T03:04:05.006Z\",\"rail_name\":\"nano\",\"receipt_id\":\"\",\"sign" ++
    lit "ature\":\"\",\"signer_did\":\"8a88e3dd7409f195fd52db2d3cba5d72ca6709bf1d94121bf3748801b40f6f5c\",\"tx_pr" ++
    lit "oof\":\"b1\"\x7d"), bareReceiptId)]
  verify payload signature publicKey := payload = barePayload ∧ signature = bareSignature ∧ publicKey = bareSigner
  dateParse _ := .nan
  dateNow := JsNumber.ofInt 0

def noOptions : VerifyReceiptOptions := ⟨none, none⟩

theorem bareReceipt_verified : verifyPaymentReceiptWithDID bareRuntime bareReceipt noOptions = .ok .valid := by
  decide +kernel

theorem bareReceipt_refused :
    verifyPaymentReceipt bareRuntime bareReceipt = .ok (.invalid .INVALID_CLAIM_TYPE) := by
  decide

theorem bareReceipt_disagrees :
    ¬ ∀ (R : Runtime) (receipt : RailRecord) (options : VerifyReceiptOptions), isDid receipt.signer_did = false →
      flag (verifyPaymentReceiptWithDID R receipt options) = flag (verifyPaymentReceipt R receipt) := by
  intro h
  have hagree := h bareRuntime bareReceipt noOptions (by decide)
  rw [bareReceipt_verified, bareReceipt_refused] at hagree
  cases hagree

theorem payment_verifiers_agree_legacy :
    flag (verifyPaymentReceiptWithDID bareRuntime { bareReceipt with claim_type := LEGACY_PAYMENT_RECEIPT_CLAIM_TYPE }
        noOptions) =
      flag (verifyPaymentReceipt bareRuntime { bareReceipt with claim_type := LEGACY_PAYMENT_RECEIPT_CLAIM_TYPE }) :=
  ((payment_verifiers_agree_iff bareRuntime).1 { bareReceipt with claim_type := LEGACY_PAYMENT_RECEIPT_CLAIM_TYPE }
    noOptions (by decide)).mpr (fun h => absurd h (by decide))

end AgentPassport.PaymentVerifiers
