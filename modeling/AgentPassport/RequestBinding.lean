import AgentPassport.Base64
import AgentPassport.CanonicalInjective
import AgentPassport.JsArithmetic
import AgentPassport.Sha256
import AgentPassport.TextSearch

/-! The RFC 9421 request binding profile (`v2/transport/rfc9421`): the signature base of a request,
signing it, and verifying a profile against a request. -/
namespace AgentPassport.RequestBinding
open JsText Js SeparatedText Sha256
open TextSearch (firstMatch escape)
open Multibase (bytesToHex)

inductive CoveredComponent where
  | method | authority | path | contentDigest
  deriving DecidableEq

def CoveredComponent.text : CoveredComponent → Str
  | .method => lit "@method"
  | .authority => lit "@authority"
  | .path => lit "@path"
  | .contentDigest => lit "content-digest"

inductive SignatureAlgorithm where
  | ed25519
  deriving DecidableEq

def SignatureAlgorithm.text : SignatureAlgorithm → Str
  | .ed25519 => lit "ed25519"

/-- The parts of a parsed URL that are read. -/
structure Url where
  hostname : Str
  port : Str
  protocol : Str
  pathname : Str
  deriving DecidableEq

/-- The text of a finite number, SHA-256, Ed25519 (signing fails on key material that is not
hexadecimal), the URL parser and the case mappings of Unicode. -/
structure Runtime where
  numText : Double → Str
  sha256 : Hash
  sign : Str → Str → Option Str
  verify : Str → Str → Str → Bool
  parseUrl : Str → Option Url
  toUpperCase : Str → Str
  toLowerCase : Str → Str

structure RequestContext where
  method : Str
  url : Str
  body : Option (List UInt8)
  deriving DecidableEq

/-- The parameters of a signature. The verifier casts what it reads to the algorithm's type, so the
algorithm is a text here. -/
structure SignatureParams where
  created : JsNumber
  keyid : Str
  nonce : Str
  tag : Str
  alg : Option Str
  expires : Option JsNumber

structure SignerKey where
  privateKeyHex : Str
  verificationMethod : Str
  deriving DecidableEq

structure VerifierKey where
  publicKeyHex : Str
  verificationMethod : Str
  deriving DecidableEq

structure RequestSignature where
  label : Str
  signatureInput : Str
  signature : Str
  contentDigest : Option Str
  signatureBase : Str
  deriving DecidableEq

inductive CaptureMode where
  | gateway_observed | runtime_attested | self_attested | partialCapture | unknown
  deriving DecidableEq

inductive Completeness where
  | complete | partialEvidence | best_effort
  deriving DecidableEq

structure ScopeOfClaim where
  asserts : Str
  does_not_assert : List Str
  capture_mode : CaptureMode
  completeness : Completeness
  self_attested : Bool
  deriving DecidableEq

structure RequestBindingProfile where
  profile : Str
  covered : List CoveredComponent
  inner : RequestSignature
  verificationMethod : Str
  created : JsNumber
  nonce : Str
  tag : Str
  receiptHash : Option Str
  scopeOfClaim : ScopeOfClaim

inductive BindingError where
  | unavailableDigest
  | noBody
  | invalidUrl
  | emptyCovered
  | keyMaterial
  deriving DecidableEq

section Base
variable (R : Runtime)

def Runtime.text : JsNumber → Str := JsNumber.text R.numText

/-- `protocol.replace(/:$/, '')`. -/
def withoutColon (protocol : Str) : Str := if protocol.getLast? = some 0x3A then protocol.dropLast else protocol

def deriveAuthority (url : Url) : Str :=
  let host := R.toLowerCase url.hostname
  if url.port = [] then host
  else
    let scheme := R.toLowerCase (withoutColon url.protocol)
    if (scheme = lit "http" ∧ url.port = lit "80") ∨ (scheme = lit "https" ∧ url.port = lit "443") then host
    else host ++ lit ":" ++ url.port

def derivePath (url : Url) : Str := if url.pathname = [] then lit "/" else url.pathname

def computeContentDigest (body : List UInt8) : Str :=
  lit "sha-256=:" ++ Base64.encode (R.sha256 body).bytes ++ lit ":"

def quoted (text : Str) : Str := 0x22 :: (text ++ [0x22])

/-- The identifiers are lowercase as they stand. -/
def serializeInnerList (covered : List CoveredComponent) : Str :=
  lit "(" ++ join 0x20 (covered.map (fun c => quoted c.text)) ++ lit ")"

/-- Backslashes are doubled, then quotes get a backslash. -/
def sfString (value : Str) : Str := quoted (escape 0x5C 0x22 (escape 0x5C 0x5C value))

def serializeParams (params : SignatureParams) : Str :=
  lit ";created=" ++ R.text params.created ++ (lit ";keyid=" ++ sfString params.keyid) ++
    (lit ";nonce=" ++ sfString params.nonce) ++ (lit ";tag=" ++ sfString params.tag) ++
    (match params.alg with
      | some alg => lit ";alg=" ++ sfString alg
      | none => []) ++
    (match params.expires with
      | some expires => lit ";expires=" ++ R.text expires
      | none => [])

def buildSignatureParamsValue (covered : List CoveredComponent) (params : SignatureParams) : Str :=
  serializeInnerList covered ++ serializeParams R params

def parsedUrl (ctx : RequestContext) : Except BindingError Url :=
  match R.parseUrl ctx.url with
  | some url => .ok url
  | none => .error .invalidUrl

def resolveComponentValue (ctx : RequestContext) (contentDigest : Option Str) :
    CoveredComponent → Except BindingError Str
  | .method => .ok (R.toUpperCase ctx.method)
  | .authority => (parsedUrl R ctx).map (deriveAuthority R)
  | .path => (parsedUrl R ctx).map derivePath
  | .contentDigest =>
    match contentDigest with
    | some digest => .ok digest
    | none => .error .unavailableDigest

def coveredDigest (covered : List CoveredComponent) (ctx : RequestContext) : Except BindingError (Option Str) :=
  if covered.any (· = .contentDigest) then
    match ctx.body with
    | some body => .ok (some (computeContentDigest R body))
    | none => .error .noBody
  else .ok none

/-- The lines of the covered components, then the line of the parameters without a newline. -/
def buildSignatureBase (covered : List CoveredComponent) (ctx : RequestContext) (params : SignatureParams) :
    Except BindingError (Str × Option Str) := do
  let contentDigest ← coveredDigest R covered ctx
  let lines ← covered.mapM (fun component => do
    return quoted component.text ++ lit ": " ++ (← resolveComponentValue R ctx contentDigest component))
  let paramsValue := buildSignatureParamsValue R covered params
  return (join 0x0A (lines ++ [quoted (lit "@signature-params") ++ lit ": " ++ paramsValue]), contentDigest)

end Base

def APS_REQUEST_BINDING_TAG : Str := lit "aps-rfc9421-request-binding-v1"
def APS_REQUEST_BINDING_PROFILE : Str := lit "aps:rfc9421-request-binding:v1"
def DEFAULT_COVERED : List CoveredComponent := [.method, .authority, .path]

def defaultScopeOfClaim : ScopeOfClaim where
  asserts := lit
    "The named verification method signed this exact HTTP method, authority, path, and covered body digest at the stated created time."
  does_not_assert := [
    lit "Does not prove the request was delivered or acted on.",
    lit "Does not by itself prove authority; authority comes from the linked delegation receipt.",
    lit "Does not bind action_ref to the HTTP request.",
    lit "Does not prove the body unless content-digest is covered and the verifier recomputes it."]
  capture_mode := .self_attested
  completeness := .partialEvidence
  self_attested := true

/-- `text.trim()`. -/
def trim (text : Str) : Str := ((text.dropWhile isTrimmed).reverse.dropWhile isTrimmed).reverse

def toByteSequence (sigBytesHex : Str) : Str := lit ":" ++ Base64.encode (bufferFromHex sigBytesHex) ++ lit ":"

def fromByteSequence (value : Str) : Option Str :=
  let trimmed := trim value
  if trimmed.head? ≠ some 0x3A ∨ trimmed.getLast? ≠ some 0x3A ∨ trimmed.length < 2 then none
  else some (bytesToHex (Base64.decode (trimmed.drop 1).dropLast))

/-- What a caller may give; what is absent has its default. -/
structure SignParams where
  created : JsNumber
  nonce : Str
  keyid : Option Str
  tag : Option Str
  alg : Option SignatureAlgorithm
  expires : Option JsNumber

structure SignRequestInput where
  request : RequestContext
  signer : SignerKey
  params : SignParams
  covered : Option (List CoveredComponent)
  label : Option Str
  receiptHash : Option Str
  scopeOfClaim : Option ScopeOfClaim

def SignRequestInput.coveredList (input : SignRequestInput) : List CoveredComponent :=
  input.covered.getD DEFAULT_COVERED
def SignRequestInput.labelText (input : SignRequestInput) : Str := input.label.getD (lit "aps")
def SignRequestInput.tagText (input : SignRequestInput) : Str := input.params.tag.getD APS_REQUEST_BINDING_TAG
def SignRequestInput.keyidText (input : SignRequestInput) : Str :=
  input.params.keyid.getD input.signer.verificationMethod

def SignRequestInput.signedParams (input : SignRequestInput) : SignatureParams where
  created := input.params.created
  keyid := input.keyidText
  nonce := input.params.nonce
  tag := input.tagText
  alg := input.params.alg.map SignatureAlgorithm.text
  expires := input.params.expires

section Sign
variable (R : Runtime)

def signBase (base privateKeyHex : Str) : Except BindingError Str :=
  match R.sign base privateKeyHex with
  | some sigHex => .ok sigHex
  | none => .error .keyMaterial

/-- An empty covered set could be lifted onto another message. -/
def checkCovered (covered : List CoveredComponent) : Except BindingError Unit :=
  if covered.length = 0 then .error .emptyCovered else .ok ()

/-- The input of the signature repeats the value of the last line of the base. -/
def boundProfile (input : SignRequestInput) (base : Str) (contentDigest : Option Str) (sigHex : Str) :
    RequestBindingProfile where
  profile := APS_REQUEST_BINDING_PROFILE
  covered := input.coveredList
  inner :=
    { label := input.labelText
      signatureInput := input.labelText ++ lit "=" ++ buildSignatureParamsValue R input.coveredList input.signedParams
      signature := input.labelText ++ lit "=" ++ toByteSequence sigHex
      contentDigest
      signatureBase := base }
  verificationMethod := input.keyidText
  created := input.params.created
  nonce := input.params.nonce
  tag := input.tagText
  receiptHash := input.receiptHash
  scopeOfClaim := input.scopeOfClaim.getD defaultScopeOfClaim

def signRequest (input : SignRequestInput) : Except BindingError RequestBindingProfile := do
  checkCovered input.coveredList
  let (base, contentDigest) ← buildSignatureBase R input.coveredList input.request input.signedParams
  let sigHex ← signBase R base input.signer.privateKeyHex
  return boundProfile R input base contentDigest sigHex

end Sign

/-- A replay store: whether a nonce was seen, and recording one. -/
structure NonceStore (σ : Type) where
  seen : σ → Str → Bool
  record : σ → Str → σ

def InMemoryNonceStore : NonceStore (List Str) where
  seen nonces nonce := nonces.any (· = nonce)
  record nonces nonce := if nonces.any (· = nonce) then nonces else nonces ++ [nonce]

structure VerifyPolicy where
  expectedTag : Str
  maxSkewSeconds : JsNumber
  requiredComponents : Option (List CoveredComponent)
  nowSeconds : Option JsNumber

def VerifyPolicy.required (policy : VerifyPolicy) : List CoveredComponent :=
  policy.requiredComponents.getD [.method, .authority, .path]

inductive VerifyFailureReason where
  | empty_covered_set
  | missing_required_component
  | tag_mismatch
  | stale_created
  | expired
  | unknown_verification_method
  | content_digest_missing
  | content_digest_mismatch
  | base_reconstruction_mismatch
  | signature_invalid
  | replayed_nonce
  | malformed_input
  deriving DecidableEq

inductive VerifyResult where
  | invalid (reason : VerifyFailureReason)
  | valid (verificationMethod : Str) (replayChecked : Bool)
  deriving DecidableEq

def VerifyResult.isValid : VerifyResult → Bool
  | .valid _ _ => true
  | .invalid _ => false

/-- `/;alg="([^"]*)"/` at the start of a text. -/
def algHere (text : Str) : Option Str :=
  if (lit ";alg=\"").isPrefixOf text then
    let value := text.drop 6
    if (value.takeWhile (· ≠ 0x22)).length < value.length then some (value.takeWhile (· ≠ 0x22)) else none
  else none

/-- `/;expires=(\d+)/` at the start of a text. -/
def expiresHere (text : Str) : Option Str :=
  if (lit ";expires=").isPrefixOf text then
    let digits := (text.drop 9).takeWhile isDigit
    if digits = [] then none else some digits
  else none

/-- `Number(digits)`. -/
def numberOf (digits : Str) : JsNumber := .ofInt (digitsValue digits)

def stripLabel (field label : Str) : Option Str :=
  if (label ++ lit "=").isPrefixOf field then some (field.drop (label ++ lit "=").length) else none

def extractSignatureHex (field label : Str) : Option Str := (stripLabel field label).bind fromByteSequence

def jsAbs : JsNumber → JsNumber
  | .finite d => .finite ⟨false, d.mant, d.exp, d.canonical⟩
  | .infinite _ => .infinite false
  | .nan => .nan

section Verify
variable (R : Runtime) {σ : Type} (S : NonceStore σ)

def recoveredParams (profile : RequestBindingProfile) (rhs : Str) : SignatureParams where
  created := profile.created
  keyid := profile.verificationMethod
  nonce := profile.nonce
  tag := profile.tag
  alg := firstMatch algHere rhs
  expires := (firstMatch expiresHere rhs).map numberOf

def reconstructBase (profile : RequestBindingProfile) (request : RequestContext) : Option Str :=
  match stripLabel profile.inner.signatureInput profile.inner.label with
  | none => none
  | some rhs => ((buildSignatureBase R profile.covered request (recoveredParams profile rhs)).toOption).map Prod.fst

/-- `Number.isFinite(expiresAt) && now > expiresAt`. -/
def isPast (expiresAt now : JsNumber) : Bool :=
  match expiresAt with
  | .finite d => (JsNumber.finite d).lt now
  | _ => false

/-- The expiry that is read from the parameters has passed. -/
def hasExpired (profile : RequestBindingProfile) (now : JsNumber) : Bool :=
  match (stripLabel profile.inner.signatureInput profile.inner.label).bind (firstMatch expiresHere) with
  | none => false
  | some digits => isPast (numberOf digits) now

def digestFailure (profile : RequestBindingProfile) (request : RequestContext) : Option VerifyFailureReason :=
  if profile.covered.any (· = .contentDigest) then
    match profile.inner.contentDigest, request.body with
    | none, _ => some .content_digest_missing
    | some _, none => some .content_digest_mismatch
    | some presented, some body =>
      if computeContentDigest R body ≠ presented then some .content_digest_mismatch else none
  else none

/-- Covered set, required components, tag, freshness and expiry. -/
def policyFailure (profile : RequestBindingProfile) (policy : VerifyPolicy) (now : JsNumber) :
    Option VerifyFailureReason :=
  if profile.covered.length = 0 then some .empty_covered_set
  else if policy.required.any (fun req => !profile.covered.any (· = req)) then some .missing_required_component
  else if profile.tag ≠ policy.expectedTag then some .tag_mismatch
  else if policy.maxSkewSeconds.lt (jsAbs (now.sub profile.created)) then some .stale_created
  else if hasExpired profile now then some .expired
  else none

/-- The base is built anew from the received request, and the signature is checked over it. -/
def baseFailure (profile : RequestBindingProfile) (request : RequestContext) (key : VerifierKey) :
    Option VerifyFailureReason :=
  match reconstructBase R profile request with
  | none => some .base_reconstruction_mismatch
  | some reconstructed =>
    if reconstructed ≠ profile.inner.signatureBase then some .base_reconstruction_mismatch
    else
      match extractSignatureHex profile.inner.signature profile.inner.label with
      | none => some .malformed_input
      | some sigHex => if R.verify reconstructed sigHex key.publicKeyHex then none else some .signature_invalid

def keyFailure (profile : RequestBindingProfile) (request : RequestContext) (keys : List VerifierKey) :
    Option VerifyFailureReason :=
  match keys.find? (fun k => k.verificationMethod = profile.verificationMethod) with
  | none => some .unknown_verification_method
  | some key => (digestFailure R profile request).orElse (fun _ => baseFailure R profile request key)

/-- The answer and the store after the call: a nonce is recorded only after every check passed. -/
def verifyRequest (clockSeconds : JsNumber) (profile : RequestBindingProfile) (request : RequestContext)
    (keys : List VerifierKey) (policy : VerifyPolicy) (nonceStore : Option σ) : VerifyResult × Option σ :=
  match (policyFailure profile policy (policy.nowSeconds.getD clockSeconds)).orElse
      (fun _ => keyFailure R profile request keys) with
  | some reason => (.invalid reason, nonceStore)
  | none =>
    match nonceStore with
    | none => (.valid profile.verificationMethod false, none)
    | some store =>
      if S.seen store profile.nonce then (.invalid .replayed_nonce, some store)
      else (.valid profile.verificationMethod true, some (S.record store profile.nonce))

end Verify

end AgentPassport.RequestBinding
