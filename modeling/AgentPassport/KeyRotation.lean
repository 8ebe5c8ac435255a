import AgentPassport.DelegationSchema
import AgentPassport.LegacyDelegation
import AgentPassport.Multibase

/-! Rotation of the key of a DID document (`core/key-rotation.ts`, with `createDID` and
`publicKeyFromDID` of `core/did.ts`). A clock reading is a number of milliseconds; an invalid
`Date` is none. -/
namespace AgentPassport.KeyRotation
open JsText Js LegacyCanonical Rfc3339 Multibase
open LegacyDelegation (toISOString reasonText)
open DelegationScope (splitOn)

/-- The text of a finite number and Ed25519; signing and deriving a public key fail on key
material that is not hexadecimal. -/
structure Runtime where
  numText : Double → Str
  sign : Str → Str → Option Str
  verify : Str → Str → Str → Bool
  publicKeyFromPrivate : Str → Option Str

inductive RotationMode where
  | planned | emergency
  deriving DecidableEq

inductive RotationState where
  | announced | activated
  deriving DecidableEq

structure RotatableVerificationMethod where
  id : Str
  controller : Str
  publicKeyMultibase : Str
  retiredAt : Option Str
  deriving DecidableEq

structure PendingRotation where
  newKeyId : Str
  mode : RotationMode
  activationTime : Str
  state : RotationState
  rotationSignature : Str
  deriving DecidableEq

structure DIDRotationEntry where
  previousKey : Str
  newKey : Str
  mode : RotationMode
  announcedAt : Str
  activationTime : Str
  state : RotationState
  rotationSignature : Str
  completedAt : Str
  deriving DecidableEq

structure RotatableDIDDocument where
  id : Str
  controller : Str
  verificationMethod : List RotatableVerificationMethod
  authentication : List Str
  assertionMethod : List Str
  capabilityDelegation : List Str
  pendingRotation : Option PendingRotation
  rotationLog : List DIDRotationEntry
  created : Str
  updated : Str
  deriving DecidableEq

inductive RotationError where
  | publicKeyLength
  | invalidDID (did : Str)
  | multibase (e : MultibaseError)
  | pending
  | notRepresentable
  | noActiveMethod
  | keyMaterial
  | keyMismatch
  | canonical (e : LegacyError)
  | noPending
  | invalidActivation (reason : Rfc3339FailureReason)
  | notReached (now : Int) (activationTime : Str)
  | invalidDate

def RotationError.message : RotationError → Str
  | .publicKeyLength => lit "Invalid Ed25519 public key: expected 64-char hex string"
  | .invalidDID did => lit "Invalid did:aps DID: " ++ did
  | .multibase (.invalidCharacter c) => lit "Invalid base58 character: " ++ c
  | .multibase .notBase58btc => lit "Only z-prefix (base58btc) multibase supported"
  | .multibase .multicodec => lit "Invalid Ed25519 multicodec prefix"
  | .pending => lit "Rotation already pending. Complete or cancel the current rotation first."
  | .notRepresentable => lit "formatRfc3339: instant is not representable"
  | .noActiveMethod => lit "No active verification method found"
  | .keyMaterial => lit "Invalid hex string"
  | .keyMismatch => lit "Provided private key does not match the current active key"
  | .canonical .bigint => lit "Do not know how to serialize a BigInt"
  | .canonical (.unsafeInteger path) => path ++ lit ": integer exceeds the interoperable IEEE 754 range"
  | .noPending => lit "No pending rotation to activate"
  | .invalidActivation reason => lit "Invalid pendingRotation.activationTime: " ++ reasonText reason
  | .notReached now activationTime =>
    lit "Activation time not reached. Current: " ++ toISOString now ++ lit ", activation: " ++ activationTime
  | .invalidDate => lit "Invalid time value"

def createDID (publicKey : Str) : Except RotationError Str :=
  if publicKey.length ≠ 64 then throw .publicKeyLength else return lit "did:aps:" ++ hexToMultibase publicKey

/-- The key a DID was made from, in its multibase or its hexadecimal form. -/
def publicKeyFromDID (did : Str) : Except RotationError Str :=
  match splitOn 0x3A did with
  | [scheme, method, identifier] =>
    if scheme ≠ lit "did" ∨ method ≠ lit "aps" then throw (.invalidDID did)
    else if identifier.head? = some 0x7A then
      match multibaseToHex identifier with
      | .ok key => return key
      | .error e => throw (.multibase e)
    else return identifier
  | _ => throw (.invalidDID did)

/-- `AgentPassport`, as far as a document is made of it. -/
structure Passport where
  publicKey : Str
  createdAt : Str

def keyIdForPublicKey (did : Str) (index : Nat) : Str := did ++ lit "#key-" ++ decimal index

def createDIDDocument (passport : Passport) : Except RotationError RotatableDIDDocument := do
  let did ← createDID passport.publicKey
  let keyId := did ++ lit "#key-1"
  return { id := did, controller := did,
           verificationMethod := [⟨keyId, did, hexToMultibase passport.publicKey, none⟩],
           authentication := [keyId], assertionMethod := [keyId], capabilityDelegation := [keyId],
           pendingRotation := none, rotationLog := [], created := passport.createdAt,
           updated := passport.createdAt }

def nextKeyIndex (doc : RotatableDIDDocument) : Nat := doc.verificationMethod.length + 1

def modeText : RotationMode → Str
  | .planned => lit "planned"
  | .emergency => lit "emergency"

/-- `verificationMethod.find(vm => vm.id === id)`. -/
def findMethod (id : Str) (methods : List RotatableVerificationMethod) : Option RotatableVerificationMethod :=
  methods.find? (fun vm => vm.id = id)

/-- Set `retiredAt` of the first method of an id. -/
def retire (id retiredAt : Str) : List RotatableVerificationMethod → List RotatableVerificationMethod
  | [] => []
  | vm :: rest => if vm.id = id then { vm with retiredAt := some retiredAt } :: rest else vm :: retire id retiredAt rest

def rotationPayload (previousKey newKey : Str) (mode : RotationMode) (activationTime : Str) : JsValue :=
  .obj [(lit "previousKey", .str previousKey), (lit "newKey", .str newKey), (lit "mode", .str (modeText mode)),
    (lit "activationTime", .str activationTime)]

def DEFAULT_PLANNED_OVERLAP_MS : JsNumber := .ofInt (24 * 60 * 60 * 1000)

def delayMs : RotationMode → Option JsNumber → JsNumber
  | .emergency, _ => .ofInt 0
  | .planned, activationDelayMs => activationDelayMs.getD DEFAULT_PLANNED_OVERLAP_MS

/-- `formatRfc3339(now.getTime() + delayMs)`. -/
def activationTimeOf (now : Int) (delayMs : JsNumber) : Except RotationError Str :=
  match (JsNumber.ofInt now).add delayMs with
  | .finite d =>
    match formatRfc3339 d.trunc with
    | .ok text => return text
    | .error _ => throw .notRepresentable
  | _ => throw .notRepresentable

section
variable (R : Runtime)

def canonicalRotationPayload (previousKey newKey : Str) (mode : RotationMode) (activationTime : Str) :
    Except LegacyError Str := do
  return (← canonicalize R.numText (rotationPayload previousKey newKey mode activationTime)).getD []

def canonicalRotationPayloadForWrite (previousKey newKey : Str) (mode : RotationMode) (activationTime : Str) :
    Except LegacyError Str := do
  return (← canonicalizeForWrite R.numText (lit "$") (rotationPayload previousKey newKey mode activationTime)).getD []

/-- The public key of the private key handed in, which must be the active one. -/
def checkOwnership (doc : RotatableDIDDocument) (oldPrivateKey : Str) :
    Except RotationError (Str × RotatableVerificationMethod) :=
  match doc.authentication.head?.bind (fun id => findMethod id doc.verificationMethod) with
  | none => throw .noActiveMethod
  | some activeVm =>
    match R.publicKeyFromPrivate oldPrivateKey with
    | none => throw .keyMaterial
    | some oldPublicKey =>
      if oldPublicKey ≠ multibaseToHexSafe activeVm.publicKeyMultibase then throw .keyMismatch
      else return (oldPublicKey, activeVm)

def signRotation (previousKey newKey : Str) (mode : RotationMode) (activationTime privateKey : Str) :
    Except RotationError Str :=
  match canonicalRotationPayloadForWrite R previousKey newKey mode activationTime with
  | .error e => throw (.canonical e)
  | .ok payload =>
    match R.sign payload privateKey with
    | none => throw .keyMaterial
    | some signature => return signature

def newMethod (doc : RotatableDIDDocument) (newPublicKey : Str) : RotatableVerificationMethod :=
  ⟨keyIdForPublicKey doc.id (nextKeyIndex doc), doc.id, hexToMultibase newPublicKey, none⟩

/-- The document with the new method, in either mode. -/
def announced (doc : RotatableDIDDocument) (announcedAt oldPublicKey newPublicKey : Str) (mode : RotationMode)
    (activationTime rotationSignature activeKeyId : Str) : RotatableDIDDocument :=
  let newKeyId := (newMethod doc newPublicKey).id
  let methods := doc.verificationMethod ++ [newMethod doc newPublicKey]
  match mode with
  | .emergency =>
    { doc with
      verificationMethod := retire activeKeyId announcedAt methods
      authentication := [newKeyId]
      assertionMethod := [newKeyId]
      capabilityDelegation := [newKeyId]
      rotationLog := doc.rotationLog ++
        [⟨oldPublicKey, newPublicKey, mode, announcedAt, activationTime, .activated, rotationSignature, announcedAt⟩]
      updated := announcedAt }
  | .planned =>
    { doc with
      verificationMethod := methods
      authentication := doc.authentication ++ [newKeyId]
      assertionMethod := doc.assertionMethod ++ [newKeyId]
      capabilityDelegation := doc.capabilityDelegation ++ [newKeyId]
      pendingRotation := some ⟨newKeyId, mode, activationTime, .announced, rotationSignature⟩
      updated := announcedAt }

def announceKeyRotation (doc : RotatableDIDDocument) (now : Int) (oldPrivateKey newPublicKey : Str)
    (mode : RotationMode) (activationDelayMs : Option JsNumber) : Except RotationError RotatableDIDDocument :=
  if doc.pendingRotation.isSome then throw .pending
  else do
    let activationTime ← activationTimeOf now (delayMs mode activationDelayMs)
    let (oldPublicKey, activeVm) ← checkOwnership R doc oldPrivateKey
    let rotationSignature ← signRotation R oldPublicKey newPublicKey mode activationTime oldPrivateKey
    return announced doc (toISOString now) oldPublicKey newPublicKey mode activationTime rotationSignature activeVm.id

/-- The keys the log entry of an activation names are read back from the document. -/
def keyOf (vm : Option RotatableVerificationMethod) : Str :=
  vm.elim [] (fun vm => multibaseToHexSafe vm.publicKeyMultibase)

/-- The document once a pending rotation is completed. -/
def activated (doc : RotatableDIDDocument) (pending : PendingRotation) (completedAt : Str) : RotatableDIDDocument :=
  let oldKeyIds := doc.authentication.filter (fun id => id ≠ pending.newKeyId)
  let methods := oldKeyIds.foldl (fun methods id => retire id completedAt methods) doc.verificationMethod
  let oldPublicKey := keyOf (doc.verificationMethod.find? (fun vm => decide (vm.id ∈ oldKeyIds)))
  let newPublicKey := keyOf (findMethod pending.newKeyId methods)
  { doc with
    verificationMethod := methods
    authentication := [pending.newKeyId]
    assertionMethod := [pending.newKeyId]
    capabilityDelegation := [pending.newKeyId]
    rotationLog := doc.rotationLog ++ [⟨oldPublicKey, newPublicKey, pending.mode, doc.updated,
      pending.activationTime, .activated, pending.rotationSignature, completedAt⟩]
    pendingRotation := none
    updated := completedAt }

/-- With an invalid date the comparison is false and `toISOString` throws. -/
def activateKeyRotation (doc : RotatableDIDDocument) (now : Option Int) : Except RotationError RotatableDIDDocument :=
  match doc.pendingRotation with
  | none => throw .noPending
  | some pending =>
    match parseRfc3339 (.str pending.activationTime) with
    | .error reason => throw (.invalidActivation reason)
    | .ok activation =>
      match now with
      | none => throw .invalidDate
      | some ms =>
        if ms < activation then throw (.notReached ms pending.activationTime)
        else return activated doc pending (toISOString ms)

/-- `verifyRotationChain`: every entry of the log. -/
def verifyRotationChain (doc : RotatableDIDDocument) : Bool :=
  doc.rotationLog.all fun entry =>
    match canonicalRotationPayload R entry.previousKey entry.newKey entry.mode entry.activationTime with
    | .ok payload => R.verify payload entry.rotationSignature entry.previousKey
    | .error _ => false

inductive Call where
  | announce (now : Int) (oldPrivateKey newPublicKey : Str) (mode : RotationMode)
      (activationDelayMs : Option JsNumber)
  | activate (now : Option Int)

/-- A call that throws leaves the document as it was. -/
def step (doc : RotatableDIDDocument) : Call → RotatableDIDDocument
  | .announce now oldPrivateKey newPublicKey mode activationDelayMs =>
    ((announceKeyRotation R doc now oldPrivateKey newPublicKey mode activationDelayMs).toOption).getD doc
  | .activate now => ((activateKeyRotation doc now).toOption).getD doc

def run (doc : RotatableDIDDocument) (calls : List Call) : RotatableDIDDocument := calls.foldl (step R) doc

end

end AgentPassport.KeyRotation
