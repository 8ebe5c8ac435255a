import AgentPassport.KeyRotation
import AgentPassport.Sha256
import AgentPassport.TarArchive

/-! Signed, content-addressed policy bundles (`v2/policy-bundle/bundle.ts`), with the resolution of the
terms of a path in an `aps.txt` document (`core/aps-txt.ts`). -/
namespace AgentPassport.PolicyBundle
open JsText Js CanonicalJcs Utf8 Sha256 TarArchive
open Multibase (bytesToHex)
open DelegationScope (splitOn)
open LegacyScope (startsWith endsWith)
open KeyRotation (createDID RotationError)

/-- The text of a finite number, SHA-256 and Ed25519; signing fails on key material that is not
hexadecimal. -/
structure Runtime where
  numText : Double → Str
  sha256 : Hash
  sign : Str → Str → Option Str
  verify : Str → Str → Str → Bool

inductive GovernanceChangeType where
  | strengthening | neutral | weakening | mixed | initial
  deriving DecidableEq

def GovernanceChangeType.text : GovernanceChangeType → Str
  | .strengthening => lit "strengthening"
  | .neutral => lit "neutral"
  | .weakening => lit "weakening"
  | .mixed => lit "mixed"
  | .initial => lit "initial"

structure PolicyBundleGovernance where
  changeType : GovernanceChangeType
  previousManifestHash : Option Str
  additions : List Str
  modifications : List Str
  removals : List Str

structure PolicyBundleFileEntry where
  path : Str
  size : JsNumber
  sha256 : Str
  deriving DecidableEq

structure PolicyBundleManifest where
  bundleId : Str
  tarSha256 : Str
  files : List PolicyBundleFileEntry
  signerPublicKey : Str
  signerDid : Str
  createdAt : Str
  governance : PolicyBundleGovernance
  scopeOfClaim : JsValue

structure PolicyBundleEnvelope where
  manifest : PolicyBundleManifest
  signature : Str
  tarHex : Str

def texts (items : List Str) : JsValue := .arr (items.map .str)

def PolicyBundleGovernance.value (g : PolicyBundleGovernance) : JsValue :=
  .obj [(lit "changeType", .str g.changeType.text),
    (lit "previousManifestHash", match g.previousManifestHash with
      | some hash => .str hash
      | none => .null),
    (lit "additions", texts g.additions), (lit "modifications", texts g.modifications), (lit "removals", texts g.removals)]

def PolicyBundleFileEntry.value (f : PolicyBundleFileEntry) : JsValue :=
  .obj [(lit "path", .str f.path), (lit "size", .num f.size), (lit "sha256", .str f.sha256)]

def PolicyBundleManifest.value (m : PolicyBundleManifest) : JsValue :=
  .obj [(lit "format", .str (lit "aps-policy-bundle")), (lit "version", .str (lit "1")), (lit "bundleId", .str m.bundleId),
    (lit "tarSha256", .str m.tarSha256), (lit "files", .arr (m.files.map (·.value))),
    (lit "signerPublicKey", .str m.signerPublicKey), (lit "signerDid", .str m.signerDid),
    (lit "createdAt", .str m.createdAt), (lit "governance", m.governance.value), (lit "scopeOfClaim", m.scopeOfClaim)]

inductive FileContent where
  | bytes (bytes : List UInt8)
  | text (text : Str)

structure PolicyBundleFileInput where
  path : Str
  content : FileContent

/-- `Partial<PolicyBundleGovernance>`. -/
structure GovernanceInput where
  changeType : Option GovernanceChangeType
  previousManifestHash : Option Str
  additions : Option (List Str)
  modifications : Option (List Str)
  removals : Option (List Str)

structure CreatePolicyBundleInput where
  bundleId : Str
  files : List PolicyBundleFileInput
  signerPrivateKey : Str
  signerPublicKey : Str
  governance : Option GovernanceInput
  scopeOfClaim : Option JsValue
  createdAt : Option Str

inductive BundleError where
  | noFiles
  | tar (e : TarError)
  | publicKey (e : RotationError)
  | canonical (e : JcsError)
  | keyMaterial
  | invalidHex

def defaultPolicyBundleScope : JsValue :=
  .obj [(lit "asserts", .str (lit
      "The bundle contents match the signed manifest hash and the signer authorized this exact bundle.")),
    (lit "does_not_assert", texts [
      lit "That the policy inside the bundle is correct, sound, or safe.",
      lit "That the signer is currently authorized beyond the supplied aps.txt revocation check.",
      lit "Any claim about who authored the policy versus who signed the bundle."]),
    (lit "capture_mode", .str (lit "self_attested")), (lit "completeness", .str (lit "complete")),
    (lit "self_attested", .bool true)]

def normalizeContent : FileContent → List UInt8
  | .bytes bytes => bytes
  | .text text => utf8 text

def changeTypeOf (previous : Option Str) (additions removals : List Str) : GovernanceChangeType :=
  if previous.isNone then .initial
  else if additions.length > 0 ∧ removals.length > 0 then .mixed
  else if removals.length > 0 then .weakening
  else if additions.length > 0 then .strengthening
  else .neutral

def buildGovernance (input : Option GovernanceInput) : PolicyBundleGovernance :=
  let previous := input.bind (·.previousManifestHash)
  let additions := (input.bind (·.additions)).getD []
  let removals := (input.bind (·.removals)).getD []
  { changeType := (input.bind (·.changeType)).getD (changeTypeOf previous additions removals)
    previousManifestHash := previous
    additions
    modifications := (input.bind (·.modifications)).getD []
    removals }

def rethrow {ε ε' α : Type} (f : ε → ε') : Except ε α → Except ε' α
  | .ok a => .ok a
  | .error e => .error (f e)

def orThrow {α : Type} (v : Option α) (e : BundleError) : Except BundleError α :=
  match v with
  | some a => .ok a
  | none => .error e

def sortFiles (files : List PolicyBundleFileEntry) : List PolicyBundleFileEntry :=
  files.insertionSort (fun a b => a.path ≤ b.path)

def CreatePolicyBundleInput.entries (input : CreatePolicyBundleInput) : List TarEntry :=
  input.files.map (fun f => ⟨f.path, normalizeContent f.content⟩)

section
variable (R : Runtime)

def sha256hex (bytes : List UInt8) : Str := hex (R.sha256 bytes)

def filePin (entry : TarEntry) : PolicyBundleFileEntry :=
  ⟨entry.name, JsNumber.ofInt entry.data.length, sha256hex R entry.data⟩

def manifestOf (now : Str) (input : CreatePolicyBundleInput) (tarBytes : List UInt8) (signerDid : Str) :
    PolicyBundleManifest where
  bundleId := input.bundleId
  tarSha256 := sha256hex R tarBytes
  files := sortFiles (input.entries.map (filePin R))
  signerPublicKey := input.signerPublicKey
  signerDid
  createdAt := input.createdAt.getD now
  governance := buildGovernance input.governance
  scopeOfClaim := input.scopeOfClaim.getD defaultPolicyBundleScope

def signManifest (manifest : PolicyBundleManifest) (signerPrivateKey : Str) : Except BundleError Str := do
  let canonical ← rethrow .canonical (canonicalizeJCSForWrite R.numText manifest.value)
  orThrow (R.sign canonical signerPrivateKey) .keyMaterial

def checkFiles (files : List PolicyBundleFileInput) : Except BundleError Unit :=
  if files.length = 0 then throw .noFiles else return ()

def createPolicyBundle (now : Str) (input : CreatePolicyBundleInput) : Except BundleError PolicyBundleEnvelope := do
  checkFiles input.files
  let tarBytes ← rethrow .tar (packTar input.entries)
  let signerDid ← rethrow .publicKey (createDID input.signerPublicKey)
  let manifest := manifestOf R now input tarBytes signerDid
  let signature ← signManifest R manifest input.signerPrivateKey
  return ⟨manifest, signature, bytesToHex tarBytes⟩

end

inductive UsagePermission where
  | permitted | prohibited | compensation_required | attribution_required
  deriving DecidableEq

structure GovernanceTerms where
  inference : Option UsagePermission
  training : Option UsagePermission
  redistribution : Option UsagePermission
  derivative : Option UsagePermission
  caching : Option UsagePermission

structure PathOverride where
  pattern : Str
  terms : GovernanceTerms
  user_agent : Option Str

structure ApsTxt where
  default_terms : GovernanceTerms
  path_overrides : List PathOverride

/-- `{ ...defaults, ...terms }`. -/
def GovernanceTerms.over (terms defaults : GovernanceTerms) : GovernanceTerms where
  inference := terms.inference <|> defaults.inference
  training := terms.training <|> defaults.training
  redistribution := terms.redistribution <|> defaults.redistribution
  derivative := terms.derivative <|> defaults.derivative
  caching := terms.caching <|> defaults.caching

/-- One star is one segment, two stars are any number of them. -/
def globPartsMatch : List Str → List Str → Bool
  | [], path => path.isEmpty
  | part :: pat, [] => (part :: pat).all (fun p => p = lit "**")
  | part :: pat, segment :: path =>
    if part = lit "**" then
      (List.range (path.length + 2)).any (fun skip => globPartsMatch pat ((segment :: path).drop skip))
    else if part = lit "*" then globPartsMatch pat path
    else if part ≠ segment then false
    else globPartsMatch pat path

def matchGlob (pattern path : Str) : Bool := globPartsMatch (splitOn 0x2F pattern) (splitOn 0x2F path)

/-- `did.indexOf(part)` in what is left of the DID. -/
def indexOf (part : Str) : Str → Option Nat
  | [] => if part = [] then some 0 else none
  | c :: rest => if startsWith (c :: rest) part then some 0 else (indexOf part rest).map (· + 1)

def matchParts : List Str → Str → Bool
  | [], _ => true
  | [last], rest => endsWith rest last
  | part :: parts, rest =>
    match indexOf part rest with
    | some idx => matchParts parts (rest.drop (idx + part.length))
    | none => false

def matchDidPattern (pattern did : Str) : Bool :=
  if pattern = lit "*" ∨ pattern = lit "did:*" then true
  else
    match splitOn 0x2A pattern with
    | first :: second :: parts => startsWith did first && matchParts (second :: parts) (did.drop first.length)
    | _ => pattern = did

def resolveOverrides (default_terms : GovernanceTerms) (path agentDid : Str) : List PathOverride → GovernanceTerms
  | [] => default_terms
  | override :: rest =>
    let applies := matchGlob override.pattern path &&
      (match override.user_agent with
      | some pattern => pattern = [] || (agentDid ≠ [] && matchDidPattern pattern agentDid)
      | none => true)
    if applies then override.terms.over default_terms else resolveOverrides default_terms path agentDid rest

def resolveTermsForPath (doc : ApsTxt) (path agentDid : Str) : GovernanceTerms :=
  resolveOverrides doc.default_terms path agentDid doc.path_overrides

def isAllDenied (terms : GovernanceTerms) : Bool :=
  [terms.inference, terms.training, terms.redistribution, terms.derivative, terms.caching].all
    (fun permission => permission = some .prohibited)

structure VerifyPolicyBundleOptions where
  apsTxt : Option ApsTxt
  revocationPath : Option Str
  tarBytes : Option (List UInt8)

inductive Reason where
  | signatureInvalid
  | signerDidMismatch
  | tarHashMismatch
  | tarParseError (e : BundleError)
  | fileCountMismatch
  | fileNotInManifest (name : Str)
  | fileSizeMismatch (name : Str)
  | fileHashMismatch (name : Str)
  | governanceWeakening
  | revoked

structure PolicyBundleVerification where
  valid : Bool
  manifestHash : Str
  signatureValid : Bool
  tarHashMatches : Bool
  fileHashesMatch : Bool
  signerDidConsistent : Bool
  weakeningFlagged : Bool
  revoked : Bool
  reasons : List Reason

/-- The bundle's own `hexToBytes`. -/
def hexToBytes (text : Str) : Except BundleError (List UInt8) :=
  if text.length % 2 ≠ 0 ∨ !text.all isHex then throw .invalidHex else return Multibase.hexToBytes text

section
variable (R : Runtime)

/-- `pinByPath.get(name)`: of several pins with one path the last was kept. -/
def pinByPath (pins : List PolicyBundleFileEntry) (name : Str) : Option PolicyBundleFileEntry :=
  (pins.filter (fun p => p.path = name)).getLast?

def checkFile (pins : List PolicyBundleFileEntry) (entry : TarEntry) : List Reason :=
  match pinByPath pins entry.name with
  | none => [.fileNotInManifest entry.name]
  | some pin =>
    (if (JsNumber.ofInt entry.data.length).eq pin.size then [] else [Reason.fileSizeMismatch entry.name]) ++
      (if sha256hex R entry.data = pin.sha256 then [] else [Reason.fileHashMismatch entry.name])

/-- Every reason that is pushed makes the result false. -/
def verifyFileSet (entries : List TarEntry) (pins : List PolicyBundleFileEntry) : Bool × List Reason :=
  if entries.length ≠ pins.length then (false, [.fileCountMismatch])
  else ((entries.flatMap (checkFile R pins)).isEmpty, entries.flatMap (checkFile R pins))

structure TarCheck where
  tarHashMatches : Bool
  fileHashesMatch : Bool
  reasons : List Reason

def readTar (envelope : PolicyBundleEnvelope) (options : VerifyPolicyBundleOptions) : Except BundleError (List UInt8) :=
  match options.tarBytes with
  | some bytes => .ok bytes
  | none => hexToBytes envelope.tarHex

def checkTar (envelope : PolicyBundleEnvelope) (options : VerifyPolicyBundleOptions) : TarCheck :=
  match readTar envelope options with
  | .error e => ⟨false, false, [.tarParseError e]⟩
  | .ok tarBytes =>
    let tarHashMatches : Bool := sha256hex R tarBytes = envelope.manifest.tarSha256
    let mismatch := if tarHashMatches then [] else [Reason.tarHashMismatch]
    match unpackTar tarBytes with
    | .error e => ⟨false, false, mismatch ++ [Reason.tarParseError (.tar e)]⟩
    | .ok entries =>
      let files := verifyFileSet R entries envelope.manifest.files
      ⟨tarHashMatches, files.1, mismatch ++ files.2⟩

def isRevoked (manifest : PolicyBundleManifest) (options : VerifyPolicyBundleOptions) : Bool :=
  match options.apsTxt with
  | some apsTxt =>
    isAllDenied (resolveTermsForPath apsTxt (options.revocationPath.getD (lit "/" ++ manifest.bundleId)) manifest.signerDid)
  | none => false

def isConsistent (manifest : PolicyBundleManifest) : Bool :=
  match createDID manifest.signerPublicKey with
  | .ok did => did = manifest.signerDid
  | .error _ => false

def verifyPolicyBundle (envelope : PolicyBundleEnvelope) (options : VerifyPolicyBundleOptions) :
    Except BundleError PolicyBundleVerification := do
  let manifest := envelope.manifest
  let canonical ← rethrow .canonical (canonicalizeJCS R.numText manifest.value)
  let signatureValid := R.verify canonical envelope.signature manifest.signerPublicKey
  let signerDidConsistent := isConsistent manifest
  let tar := checkTar R envelope options
  let weakeningFlagged := manifest.governance.changeType = .weakening || manifest.governance.changeType = .mixed
  let revoked := isRevoked manifest options
  return {
    valid := signatureValid && signerDidConsistent && tar.tarHashMatches && tar.fileHashesMatch && !revoked
    manifestHash := hex (R.sha256 (utf8 canonical))
    signatureValid
    tarHashMatches := tar.tarHashMatches
    fileHashesMatch := tar.fileHashesMatch
    signerDidConsistent
    weakeningFlagged
    revoked
    reasons := (if signatureValid then [] else [.signatureInvalid]) ++
      (if signerDidConsistent then [] else [.signerDidMismatch]) ++ tar.reasons ++
      (if weakeningFlagged then [.governanceWeakening] else []) ++ (if revoked then [.revoked] else []) }

end

end AgentPassport.PolicyBundle
