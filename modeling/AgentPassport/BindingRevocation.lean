import AgentPassport.CanonicalRead
import AgentPassport.ReceiptSchema
import AgentPassport.Sha256

/-! Revocations of principal bindings: the closed schema and the verification under the key that was
valid at the time of the revocation (`v2/identity-binding/validation.ts`, `revocation.ts`). -/
namespace AgentPassport.BindingRevocation
open JsText Js SeparatedText CanonicalJcs DelegationSchema ReceiptSchema Utf8 Sha256 CanonicalRead Outcome
open CanonicalInjective (assertItems_ok assertMembers_ok assertNoLoneSurrogate_ok)
open JsonString (stringifyString)

/-- Number texts, SHA-256 and Ed25519. -/
structure Runtime where
  numText : Double → Str
  sha256 : Hash
  verify : Str → Str → Str → Bool

/-- `assertUnicodeScalarString`. Behind a high surrogate at the end stands no unit, and neither
comparison with the NaN that is read there holds. -/
def isUnicodeScalarString : Str → Bool
  | [] => true
  | c :: rest =>
    if isHigh c then
      match rest with
      | [] => true
      | next :: rest => isLow next && isUnicodeScalarString rest
    else !isLow c && isUnicodeScalarString rest

mutual
/-- `assertIJson`. -/
def isIJson : JsValue → Bool
  | .null => true
  | .bool _ => true
  | .str s => isUnicodeScalarString s
  | .num (.finite d) => !d.isInteger || d.isSafeInteger
  | .arr items => isIJsonItems items
  | .obj members => isIJsonMembers members
  | _ => false

def isIJsonItems : List JsValue → Bool
  | [] => true
  | v :: rest => isIJson v && isIJsonItems rest

def isIJsonMembers : List (Str × JsValue) → Bool
  | [] => true
  | (name, v) :: rest => isUnicodeScalarString name && isIJson v && isIJsonMembers rest
end

def REQUIRED_KEYS : List Str :=
  ["record_type", "version", "revocation_id", "binding_id", "principal_id", "verification_method", "revoked_at",
    "reason_code", "nonce", "signature"].map lit

def assertExactKeys (members : List (Str × JsValue)) : Bool :=
  REQUIRED_KEYS.all (fun key => (member? key members).isSome) && members.all (fun m => m.1 ∈ REQUIRED_KEYS)

/-- `UTC_MILLISECONDS` and the round trip through `Date`. -/
def isUtcMilliseconds : Str → Bool := timestampWhere dateRoundTrips

def isLowerLetter (c : UInt16) : Bool := 0x61 ≤ c && c ≤ 0x7A

/-- `/^[a-z][a-z0-9_.-]{0,63}$/`. -/
def isReasonCode : Str → Bool
  | [] => false
  | c :: rest =>
    isLowerLetter c && rest.length ≤ 63 &&
      rest.all (fun c => isLowerLetter c || isDigit c || c = 0x5F || c = 0x2E || c = 0x2D)

section
variable (R : Runtime)

mutual
/-- `String(value)` on I-JSON values; none where an own member hides `toString` and the value has
no other primitive. -/
def toText : JsValue → Option Str
  | .null => some (lit "null")
  | .bool b => some (if b then lit "true" else lit "false")
  | .str s => some s
  | .num (.finite d) => some (R.numText d)
  | .arr items => (toTextItems items).map (join 0x2C)
  | .obj members => if (member? (lit "toString") members).isSome then none else some (lit "[object Object]")
  | _ => none

/-- The parts of a joined array, null among them written empty. -/
def toTextItems : List JsValue → Option (List Str)
  | [] => some []
  | .null :: rest => (toTextItems rest).map ([] :: ·)
  | v :: rest => do
    let part ← toText v
    let parts ← toTextItems rest
    return part :: parts
end

def testText (p : Str → Bool) (v : JsValue) : Bool := ((toText R v).map p).getD false

/-- `value.verification_method.startsWith(value.principal_id + '#')`; only a string has the method. -/
def namesPrincipal (v : JsValue) : Bool :=
  match v.get (lit "verification_method"), toText R (v.get (lit "principal_id")) with
  | .str method, some principal => (principal ++ lit "#").isPrefixOf method
  | _, _ => false

def validateRevocationDraft (v : JsValue) : Bool :=
  isIJson v && str? (v.get (lit "record_type")) = some (lit "aps.principal-binding-revocation") &&
    str? (v.get (lit "version")) = some (lit "1.0") && testText R (isLowerHexOf 64) (v.get (lit "binding_id")) &&
    namesPrincipal R v && ((str? (v.get (lit "revoked_at"))).map isUtcMilliseconds).getD false &&
    testText R isReasonCode (v.get (lit "reason_code")) && testText R (isLowerHexOf 32) (v.get (lit "nonce"))

def validateRevocation : JsValue → Bool
  | .obj members =>
    assertExactKeys members && validateRevocationDraft R (.obj members) &&
      testText R (isLowerHexOf 64) ((JsValue.obj members).get (lit "revocation_id")) &&
      testText R (isLowerHexOf 128) ((JsValue.obj members).get (lit "signature"))
  | _ => false

inductive KeyState where
  | resolved | not_found | ambiguous | malformed | unreachable | unsupported
  deriving DecidableEq

/-- `state.toUpperCase()`. -/
def KeyState.upper : KeyState → Str
  | .resolved => lit "RESOLVED"
  | .not_found => lit "NOT_FOUND"
  | .ambiguous => lit "AMBIGUOUS"
  | .malformed => lit "MALFORMED"
  | .unreachable => lit "UNREACHABLE"
  | .unsupported => lit "UNSUPPORTED"

structure HistoricalKeyResolutionResult where
  state : KeyState
  public_key_hex : Option Str

/-- Who controls the key, which method and when; the controller is whatever the record says. -/
abbrev HistoricalKeyResolver := JsValue → Str → Str → HistoricalKeyResolutionResult

inductive IdentityState where
  | valid | invalid | indeterminate
  deriving DecidableEq

inductive KeyAuthority where
  | verified | rejected | unresolved
  deriving DecidableEq

structure IdentityVerificationResult where
  state : IdentityState
  code : Str
  proof_of_possession : Bool
  key_authority : KeyAuthority
  deriving DecidableEq

def invalid (code : Str) : IdentityVerificationResult := ⟨.invalid, code, false, .rejected⟩

def ID_DOMAIN : Str := lit "APS-PRINCIPAL-BINDING-REVOCATION-ID-V1\x00"
def SIGNATURE_DOMAIN : Str := lit "APS-PRINCIPAL-BINDING-REVOCATION-SIG-V1\x00"

def digest (value : Str) : Str := hex (R.sha256 (utf8 value))

def idForm (v : JsValue) : JsValue := omitMember (lit "signature") (omitMember (lit "revocation_id") v)

def signatureForm (v : JsValue) : JsValue := omitMember (lit "signature") v

/-- A result by the key that was found for the record, or the exception of the canonicalizer. -/
def verifyUnderKey (v : JsValue) (resolution : HistoricalKeyResolutionResult) :
    Except JcsError IdentityVerificationResult :=
  match resolution.state, resolution.public_key_hex.getD [] with
  | .resolved, c :: key => do
    let text ← canonicalizeJCS R.numText (signatureForm v)
    match v.get (lit "signature") with
    | .str signature =>
      if R.verify (SIGNATURE_DOMAIN ++ text) signature (c :: key) then return ⟨.valid, lit "OK", true, .verified⟩
      else return invalid (lit "PRINCIPAL_BINDING_REVOCATION_SIGNATURE_INVALID")
    | _ => return invalid (lit "PRINCIPAL_BINDING_REVOCATION_SIGNATURE_INVALID")
  | state, _ =>
    let unreachable := state = .unreachable
    return ⟨if unreachable then .indeterminate else .invalid,
      lit "PRINCIPAL_BINDING_REVOCATION_KEY_" ++ state.upper, false,
      if unreachable then .unresolved else .rejected⟩

def verifyPrincipalBindingRevocationV1 (candidate : JsValue) (resolveKey : HistoricalKeyResolver) :
    Except JcsError IdentityVerificationResult :=
  if !validateRevocation R candidate then return invalid (lit "PRINCIPAL_BINDING_REVOCATION_MALFORMED")
  else do
    let text ← canonicalizeJCS R.numText (idForm candidate)
    if str? (candidate.get (lit "revocation_id")) ≠ some (digest R (ID_DOMAIN ++ text)) then
      return invalid (lit "PRINCIPAL_BINDING_REVOCATION_ID_MISMATCH")
    else
      verifyUnderKey R candidate (resolveKey (candidate.get (lit "principal_id"))
        ((str? (candidate.get (lit "verification_method"))).getD [])
        ((str? (candidate.get (lit "revoked_at"))).getD []))

end

variable {v : JsValue}

theorem str?_eq_some {s : Str} : str? v = some s ↔ v = .str s := by
  cases v with
  | str t => simp [str?]
  | _ => simp [str?]

theorem ijsonItems_iff {items : List JsValue} : isIJsonItems items = true ↔ ∀ v ∈ items, isIJson v = true := by
  induction items with
  | nil => simp [isIJsonItems]
  | cons v rest ih => simp [isIJsonItems, ih]

variable {members : List (Str × JsValue)}

theorem ijsonMembers_iff : isIJsonMembers members = true ↔
    ∀ m ∈ members, isUnicodeScalarString m.1 = true ∧ isIJson m.2 = true := by
  induction members with
  | nil => simp [isIJsonMembers]
  | cons m rest ih => simp [isIJsonMembers, ih]

theorem ijson_defined (v : JsValue) : isIJson v = true → ∀ path, assertNoUndefined path v = .ok () := by
  induction v using JsValue.members_induction with
  | undefined => intro h; cases h
  | null => intro _ path; rfl
  | bool b => intro _ path; rfl
  | num n => intro _ path; rfl
  | str s => intro _ path; rfl
  | other type => intro h; cases h
  | date iso => intro h; cases h
  | arr items ih =>
    intro h path
    rw [isIJson, ijsonItems_iff] at h
    rw [assertNoUndefined]
    exact assertItems_ok (fun v hv => ih v hv (h v hv)) path 0
  | obj members ih =>
    intro h path
    rw [isIJson, ijsonMembers_iff] at h
    rw [assertNoUndefined]
    exact assertMembers_ok (fun m hm => ih m hm (h m hm).2) path

section
variable {numText : Double → Str}

theorem selected_ok (h : isIJson (.obj members) = true) (p : Str × JsValue → Bool) :
    (canonicalizeJCS numText (.obj (members.filter p))).isOk = true ↔
      ∀ m ∈ members.filter p, WellFormed m.1 ∧ ∃ s, canonicalizeValue numText none m.2 = .ok s := by
  rw [isIJson, ijsonMembers_iff] at h
  have hdefined : assertNoUndefined (lit "$") (.obj (members.filter p)) = .ok () := by
    rw [assertNoUndefined]
    exact assertMembers_ok (fun m hm path => ijson_defined m.2 (h m (List.mem_of_mem_filter hm)).2 path) _
  rw [← obj_ok_iff, canonicalizeJCS, hdefined]
  constructor
  · intro hok
    exact exists_of_isOk hok
  · intro hok
    obtain ⟨t, ht⟩ := hok
    change (canonicalizeValue numText none (.obj (members.filter p))).isOk = true
    rw [ht]
    rfl

theorem signatureForm_ok {id : Str} (hmade : wellMade (.obj members) = true) (hijson : isIJson (.obj members) = true)
    (hid : (JsValue.obj members).get (lit "revocation_id") = .str id) (htext : WellFormed id)
    (h : (canonicalizeJCS numText (idForm (.obj members))).isOk = true) :
    (canonicalizeJCS numText (signatureForm (.obj members))).isOk = true := by
  rw [wellMade, Bool.and_eq_true, decide_eq_true_eq] at hmade
  rw [idForm, omitMember, omitMember, List.filter_filter, selected_ok hijson] at h
  rw [signatureForm, omitMember, selected_ok hijson]
  intro m hm
  by_cases hname : m.1 = lit "revocation_id"
  · have hmem := mem_of_get hid
    have hm' : m = (lit "revocation_id", .str id) :=
      List.inj_on_of_nodup_map hmade.1 (List.mem_of_mem_filter hm) hmem hname
    have hname : WellFormed (lit "revocation_id") := by decide
    rw [hm']
    refine ⟨hname, stringifyString id, ?_⟩
    rw [canonicalizeValue, assertNoLoneSurrogate_ok htext]
    rfl
  · refine h m ?_
    rw [List.mem_filter] at hm ⊢
    exact ⟨hm.1, by simpa [hname] using hm.2⟩

end

section
variable {R : Runtime}

theorem validate_obj (h : validateRevocation R v = true) :
    ∃ members, v = .obj members ∧ isIJson (.obj members) = true := by
  cases v with
  | obj members =>
    refine ⟨members, rfl, ?_⟩
    simp only [validateRevocation, validateRevocationDraft, Bool.and_eq_true] at h
    tauto
  | _ => cases h

theorem digest_text (value : Str) : WellFormed (digest R value) := wellFormed_of_lowerHex (lower_of_bytesToHex _)

theorem verifyUnderKey_isOk (h : (canonicalizeJCS R.numText (signatureForm v)).isOk = true)
    (resolution : HistoricalKeyResolutionResult) : (verifyUnderKey R v resolution).isOk = true := by
  obtain ⟨text, htext⟩ := exists_of_isOk h
  obtain ⟨state, key⟩ := resolution
  cases state with
  | resolved =>
    cases hkey : key.getD [] with
    | nil =>
      simp only [verifyUnderKey, hkey]
      rfl
    | cons c rest =>
      simp only [verifyUnderKey, hkey, htext]
      cases hsignature : v.get (lit "signature") with
      | str signature =>
        by_cases hverify : R.verify (SIGNATURE_DOMAIN ++ text) signature (c :: rest) = true
        · simp [bind, Except.bind, hverify, pure, Except.pure, Except.isOk, Except.toBool]
        · simp [bind, Except.bind, hverify, pure, Except.pure, Except.isOk, Except.toBool]
      | _ => rfl
  | _ => rfl

theorem verify_isOk (hmade : wellMade v = true) (resolver : HistoricalKeyResolver) :
    (verifyPrincipalBindingRevocationV1 R v resolver).isOk = true ↔
      (validateRevocation R v = true → (canonicalizeJCS R.numText (idForm v)).isOk = true) := by
  rw [verifyPrincipalBindingRevocationV1]
  by_cases hvalid : validateRevocation R v = true
  · rw [hvalid, Bool.not_true, if_neg Bool.false_ne_true]
    cases htext : canonicalizeJCS R.numText (idForm v) with
    | error e => exact iff_of_false (fun h => nomatch h) (fun h => nomatch h rfl)
    | ok text =>
      refine iff_of_true ?_ (fun _ => rfl)
      by_cases hid : str? (v.get (lit "revocation_id")) = some (digest R (ID_DOMAIN ++ text))
      · obtain ⟨members, rfl, hijson⟩ := validate_obj hvalid
        have hget : (JsValue.obj members).get (lit "revocation_id") = .str (digest R (ID_DOMAIN ++ text)) :=
          str?_eq_some.mp hid
        have hsigned := signatureForm_ok hmade hijson hget (digest_text _) (by rw [htext]; rfl)
        change (if _ then _ else _ : Except JcsError IdentityVerificationResult).isOk = true
        rw [if_neg (not_not.mpr hid)]
        exact verifyUnderKey_isOk hsigned _
      · change (if _ then _ else _ : Except JcsError IdentityVerificationResult).isOk = true
        rw [if_pos hid]
        rfl
  · rw [Bool.not_eq_true] at hvalid
    rw [hvalid, Bool.not_false, if_pos rfl]
    exact iff_of_true rfl (fun h => nomatch h)

theorem id_of_valid {resolver : HistoricalKeyResolver} {verified : IdentityVerificationResult}
    (h : verifyPrincipalBindingRevocationV1 R v resolver = .ok verified) (hstate : verified.state = .valid) :
    ∃ id, v.get (lit "revocation_id") = .str id := by
  rw [verifyPrincipalBindingRevocationV1] at h
  by_cases hvalid : validateRevocation R v = true
  · rw [hvalid, Bool.not_true, if_neg Bool.false_ne_true] at h
    obtain ⟨text, -, h⟩ := bind_eq_ok.mp h
    by_cases hid : str? (v.get (lit "revocation_id")) = some (digest R (ID_DOMAIN ++ text))
    · exact ⟨_, str?_eq_some.mp hid⟩
    · rw [if_pos hid] at h
      cases h
      cases hstate
  · rw [Bool.not_eq_true] at hvalid
    rw [hvalid, Bool.not_false, if_pos rfl] at h
    cases h
    cases hstate

end

end AgentPassport.BindingRevocation
