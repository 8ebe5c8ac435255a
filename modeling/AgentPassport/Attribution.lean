import AgentPassport.CanonicalBytes
import AgentPassport.JsArithmetic
import AgentPassport.Sha256

/-! Attribution primitives and their projections (`v2/attribution-primitive`): four axes in fixed
places of one tree, a signed root, and for each axis the two digests that lead from it to the root. -/
namespace AgentPassport.Attribution
open JsText Js ByteBlocks Sha256 Utf8
open DelegationSchema (isLowerHexOf)
open CanonicalJcs (JcsError canonicalizeJCSForWrite)
open LegacyCanonical

inductive AttributionAxisTag where
  | D | P | G | C
  deriving DecidableEq

def tagText : AttributionAxisTag → Str
  | .D => lit "D"
  | .P => lit "P"
  | .G => lit "G"
  | .C => lit "C"

def ATTRIBUTION_AXIS_TAGS : List AttributionAxisTag := [.D, .P, .G, .C]

structure DataAxisEntry where
  source_did : Str
  contribution_weight : Str
  access_receipt_hash : Str
  deriving DecidableEq

structure ProtocolAxisEntry where
  module_id : Str
  module_version : Str
  evaluation_outcome : Str
  evaluation_receipt_hash : Str
  weight : Option Str
  deriving DecidableEq

structure GovernanceAxisEntry where
  delegation_id : Str
  signer_did : Str
  scope_hash : Str
  depth : JsNumber
  deriving DecidableEq

structure ComputeAxisEntry where
  provider_did : Str
  compute_share : Str
  hardware_attestation_hash : Str
  deriving DecidableEq

/-- The axes that can be pooled; governance is not. -/
inductive ResidualId where
  | D | P | C
  deriving DecidableEq

def ResidualId.text : ResidualId → Str
  | .D => lit "residual:D"
  | .P => lit "residual:P"
  | .C => lit "residual:C"

structure ResidualBucket where
  residual_id : ResidualId
  total_pooled_weight : Str
  count_of_pooled_contributors : JsNumber
  pooled_contributors_hash : Str
  deriving DecidableEq

/-- An explicit contributor or the residual bucket; `isResidual` tells them apart. -/
inductive AxisItem (E : Type) where
  | entry (e : E)
  | residual (bucket : ResidualBucket)
  deriving DecidableEq

def AxisItem.isResidual {E : Type} : AxisItem E → Bool
  | .entry _ => false
  | .residual _ => true

def AxisItem.entry? {E : Type} : AxisItem E → Option E
  | .entry e => some e
  | .residual _ => none

structure AttributionAxes where
  D : List (AxisItem DataAxisEntry)
  P : List (AxisItem ProtocolAxisEntry)
  G : List GovernanceAxisEntry
  C : List (AxisItem ComputeAxisEntry)
  deriving DecidableEq

def DataAxisEntry.value (e : DataAxisEntry) : JsValue :=
  .obj [(lit "source_did", .str e.source_did), (lit "contribution_weight", .str e.contribution_weight),
    (lit "access_receipt_hash", .str e.access_receipt_hash)]

def ProtocolAxisEntry.value (e : ProtocolAxisEntry) : JsValue :=
  .obj ([(lit "module_id", JsValue.str e.module_id), (lit "module_version", .str e.module_version),
    (lit "evaluation_outcome", .str e.evaluation_outcome),
    (lit "evaluation_receipt_hash", .str e.evaluation_receipt_hash)] ++
    (e.weight.map (fun w => (lit "weight", JsValue.str w))).toList)

def GovernanceAxisEntry.value (e : GovernanceAxisEntry) : JsValue :=
  .obj [(lit "delegation_id", .str e.delegation_id), (lit "signer_did", .str e.signer_did),
    (lit "scope_hash", .str e.scope_hash), (lit "depth", .num e.depth)]

def ComputeAxisEntry.value (e : ComputeAxisEntry) : JsValue :=
  .obj [(lit "provider_did", .str e.provider_did), (lit "compute_share", .str e.compute_share),
    (lit "hardware_attestation_hash", .str e.hardware_attestation_hash)]

def ResidualBucket.value (r : ResidualBucket) : JsValue :=
  .obj [(lit "residual_id", .str r.residual_id.text), (lit "total_pooled_weight", .str r.total_pooled_weight),
    (lit "count_of_pooled_contributors", .num r.count_of_pooled_contributors),
    (lit "pooled_contributors_hash", .str r.pooled_contributors_hash)]

def AxisItem.value {E : Type} (entryValue : E → JsValue) : AxisItem E → JsValue
  | .entry e => entryValue e
  | .residual bucket => bucket.value

def selectAxis (axes : AttributionAxes) : AttributionAxisTag → JsValue
  | .D => .arr (axes.D.map (AxisItem.value DataAxisEntry.value))
  | .P => .arr (axes.P.map (AxisItem.value ProtocolAxisEntry.value))
  | .G => .arr (axes.G.map GovernanceAxisEntry.value)
  | .C => .arr (axes.C.map (AxisItem.value ComputeAxisEntry.value))

inductive AttributionError where
  | agentIdRequired | actionTypeRequired | nonceRequired | paramsNotObject
  | issuerRequired | issuerPrivateKeyRequired
  /-- At most one residual bucket is permitted in an axis. -/
  | residuals (axis : AttributionAxisTag)
  | duplicateDepth (depth : JsNumber)
  | timestamp (ts : Str)
  | canonical (e : LegacyError)
  | canonicalJcs (e : JcsError)
  /-- `createHash('sha256').update(undefined)`. -/
  | hashOfUndefined
  | sign
  deriving DecidableEq

/-- Explicit entries in the order of their keys, then the residual bucket. The sort is stable. -/
def sortAxis {E : Type} (axis : AttributionAxisTag) (key : E → Str) (items : List (AxisItem E)) :
    Except AttributionError (List (AxisItem E)) :=
  if 1 < (items.filter AxisItem.isResidual).length then throw (.residuals axis)
  else return ((items.filterMap AxisItem.entry?).insertionSort (fun a b => key a ≤ key b)).map .entry ++
    items.filter AxisItem.isResidual

def sortDataAxis (items : List (AxisItem DataAxisEntry)) : Except AttributionError (List (AxisItem DataAxisEntry)) :=
  sortAxis .D (·.source_did) items

def sortProtocolAxis (items : List (AxisItem ProtocolAxisEntry)) :
    Except AttributionError (List (AxisItem ProtocolAxisEntry)) :=
  sortAxis .P (fun e => e.module_id ++ 0x00 :: e.module_version) items

def sortComputeAxis (items : List (AxisItem ComputeAxisEntry)) :
    Except AttributionError (List (AxisItem ComputeAxisEntry)) :=
  sortAxis .C (·.provider_did) items

/-- `!(b.depth - a.depth < 0)`: sorting may leave `a` before `b`. Against a depth that is NaN every
depth may stand on either side, and the language leaves open where it does. -/
def inDepthOrder (a b : GovernanceAxisEntry) : Bool := !(b.depth.sub a.depth).lt (zeroOf false)

def duplicateDepth : List GovernanceAxisEntry → Option JsNumber
  | a :: b :: rest => if b.depth.eq a.depth then some b.depth else duplicateDepth (b :: rest)
  | _ => none

def orderGovernanceAxis (items : List GovernanceAxisEntry) : Except AttributionError (List GovernanceAxisEntry) :=
  let ordered := items.insertionSort (fun a b => inDepthOrder a b = true)
  match duplicateDepth ordered with
  | some depth => throw (.duplicateDepth depth)
  | none => return ordered

def normalizeAxes (axes : AttributionAxes) : Except AttributionError AttributionAxes := do
  let D ← sortDataAxis axes.D
  let P ← sortProtocolAxis axes.P
  let G ← orderGovernanceAxis axes.G
  let C ← sortComputeAxis axes.C
  return { D, P, G, C }

/-- `/^\d{4}-\d{2}-\d{2}T\d{2}:\d{2}:\d{2}\.\d{3}Z$/`, with `d` for a digit. -/
def ISO_8601_MS_PATTERN : Str := lit "dddd-dd-ddTdd:dd:dd.dddZ"

def isCanonicalTimestamp (ts : Str) : Bool :=
  ts.length = ISO_8601_MS_PATTERN.length &&
    (ISO_8601_MS_PATTERN.zip ts).all (fun p => if p.1 = 0x64 then isDigit p.2 else p.1 = p.2)

def assertCanonicalTimestamp (ts : Str) : Except AttributionError Unit :=
  if isCanonicalTimestamp ts then return () else throw (.timestamp ts)

/-- The functions of the platform: number texts, SHA-256 and Ed25519. -/
structure Platform where
  numText : Double → Str
  sha256 : Hash
  sign : Str → Str → Option Str
  verify : Str → Str → Str → Bool

structure MerkleFrame where
  axes : AttributionAxes
  leafD : Block 32
  leafP : Block 32
  leafG : Block 32
  leafC : Block 32
  N_content : Block 32
  N_auth_infra : Block 32
  root : Block 32

section
variable (P : Platform)

/-- `createHash('sha256').update(text).digest()`. -/
def digestText (text : Except LegacyError (Option Str)) : Except AttributionError (Block 32) :=
  match text with
  | .error e => throw (.canonical e)
  | .ok none => throw .hashOfUndefined
  | .ok (some text) => return P.sha256 (utf8 text)

def hashAxisLeaf (axis : JsValue) : Except AttributionError (Block 32) :=
  digestText P (canonicalize P.numText axis)

def hashAxisLeafForWrite (axis : JsValue) : Except AttributionError (Block 32) :=
  digestText P (canonicalizeForWrite P.numText (lit "$") axis)

def nodeInput (left right : Block 32) : List UInt8 := left.bytes ++ right.bytes

def hashNode (left right : Block 32) : Block 32 := P.sha256 (nodeInput left right)

def buildMerkleFrameImpl (rawAxes : AttributionAxes) (leaf : JsValue → Except AttributionError (Block 32)) :
    Except AttributionError MerkleFrame := do
  let axes ← normalizeAxes rawAxes
  let leafD ← leaf (selectAxis axes .D)
  let leafP ← leaf (selectAxis axes .P)
  let leafG ← leaf (selectAxis axes .G)
  let leafC ← leaf (selectAxis axes .C)
  let N_content := hashNode P leafD leafP
  let N_auth_infra := hashNode P leafG leafC
  return { axes, leafD, leafP, leafG, leafC, N_content, N_auth_infra, root := hashNode P N_content N_auth_infra }

def buildMerkleFrame (rawAxes : AttributionAxes) : Except AttributionError MerkleFrame :=
  buildMerkleFrameImpl P rawAxes (hashAxisLeaf P)

def buildMerkleFrameForWrite (rawAxes : AttributionAxes) : Except AttributionError MerkleFrame :=
  buildMerkleFrameImpl P rawAxes (hashAxisLeafForWrite P)

def projectionPath (frame : MerkleFrame) : AttributionAxisTag → List Str
  | .D => [hex frame.leafP, hex frame.N_auth_infra]
  | .P => [hex frame.leafD, hex frame.N_auth_infra]
  | .G => [hex frame.leafC, hex frame.N_content]
  | .C => [hex frame.leafG, hex frame.N_content]

def rootAbove (axisLeaf sibling siblingInternal : Block 32) : AttributionAxisTag → Block 32
  | .D => hashNode P (hashNode P axisLeaf sibling) siblingInternal
  | .P => hashNode P (hashNode P sibling axisLeaf) siblingInternal
  | .G => hashNode P siblingInternal (hashNode P axisLeaf sibling)
  | .C => hashNode P siblingInternal (hashNode P sibling axisLeaf)

/-- None where the source throws: a path entry is not 32 bytes. -/
def reconstructRoot (axisLeaf : Block 32) (path : List Str) (axis : AttributionAxisTag) : Option (Block 32) := do
  let sibling ← asBlock (bufferFromHex (path[0]?.getD []))
  let siblingInternal ← asBlock (bufferFromHex (path[1]?.getD []))
  return rootAbove P axisLeaf sibling siblingInternal axis

end

structure AttributionAction where
  agentId : Str
  actionType : Str
  params : JsValue
  nonce : Str

structure AttributionPrimitive where
  action_ref : Str
  axes : AttributionAxes
  merkle_root : Str
  issuer : Str
  timestamp : Str
  signature : Str
  deriving DecidableEq

structure AttributionProjection where
  action_ref : Str
  axis_tag : Str
  axis_data : JsValue
  merkle_path : List Str
  merkle_root : Str
  issuer : Str
  timestamp : Str
  signature : Str

structure ConstructAttributionParams where
  action : AttributionAction
  axes : AttributionAxes
  issuer : Str
  issuerPrivateKey : Str
  timestamp : Option Str

def envelopeValue (action_ref merkle_root issuer timestamp : Str) : JsValue :=
  .obj [(lit "action_ref", .str action_ref), (lit "merkle_root", .str merkle_root), (lit "issuer", .str issuer),
    (lit "timestamp", .str timestamp)]

def required (text : Str) (e : AttributionError) : Except AttributionError Unit :=
  if text = [] then throw e else return ()

section
variable (P : Platform)

/-- The canonical text of an object, which is never undefined. -/
def envelopeText (text : Except LegacyError (Option Str)) : Except AttributionError Str :=
  match text with
  | .error e => throw (.canonical e)
  | .ok text => return text.getD []

def envelopeBytes (action_ref merkle_root issuer timestamp : Str) : Except AttributionError Str := do
  assertCanonicalTimestamp timestamp
  envelopeText (canonicalize P.numText (envelopeValue action_ref merkle_root issuer timestamp))

def envelopeBytesForWrite (action_ref merkle_root issuer timestamp : Str) : Except AttributionError Str := do
  assertCanonicalTimestamp timestamp
  envelopeText (canonicalizeForWrite P.numText (lit "$") (envelopeValue action_ref merkle_root issuer timestamp))

def canonicalHashJCSForWrite (obj : JsValue) : Except AttributionError Str :=
  match canonicalizeJCSForWrite P.numText obj with
  | .error e => throw (.canonicalJcs e)
  | .ok text => return hex (P.sha256 (utf8 text))

def checkParams (params : JsValue) : Except AttributionError Unit :=
  if params.isObject then return () else throw .paramsNotObject

def computeAttributionActionRefForWrite (action : AttributionAction) : Except AttributionError Str := do
  required action.agentId .agentIdRequired
  required action.actionType .actionTypeRequired
  required action.nonce .nonceRequired
  checkParams action.params
  canonicalHashJCSForWrite P (.obj [(lit "agentId", .str action.agentId), (lit "actionType", .str action.actionType),
    (lit "params", action.params), (lit "nonce", .str action.nonce)])

def signEnvelope (envelope privateKey : Str) : Except AttributionError Str :=
  match P.sign envelope privateKey with
  | none => throw .sign
  | some signature => return signature

/-- `now` is the text of the clock, read when no timestamp is given. -/
def constructAttributionPrimitive (params : ConstructAttributionParams) (now : Str) :
    Except AttributionError AttributionPrimitive := do
  required params.issuer .issuerRequired
  required params.issuerPrivateKey .issuerPrivateKeyRequired
  let action_ref ← computeAttributionActionRefForWrite P params.action
  let frame ← buildMerkleFrameForWrite P params.axes
  let merkle_root := hex frame.root
  let timestamp := params.timestamp.getD now
  assertCanonicalTimestamp timestamp
  let envelope ← envelopeBytesForWrite P action_ref merkle_root params.issuer timestamp
  let signature ← signEnvelope P envelope params.issuerPrivateKey
  return { action_ref, axes := frame.axes, merkle_root, issuer := params.issuer, timestamp, signature }

def projectAttribution (primitive : AttributionPrimitive) (axis : AttributionAxisTag) :
    Except AttributionError AttributionProjection := do
  let normalized ← normalizeAxes primitive.axes
  let frame ← buildMerkleFrame P normalized
  return {
    action_ref := primitive.action_ref
    axis_tag := tagText axis
    axis_data := selectAxis frame.axes axis
    merkle_path := projectionPath frame axis
    merkle_root := primitive.merkle_root
    issuer := primitive.issuer
    timestamp := primitive.timestamp
    signature := primitive.signature }

inductive AttributionVerifyReason where
  | INVALID_AXIS_TAG | MERKLE_MISMATCH | SIGNATURE_INVALID | MALFORMED
  deriving DecidableEq

inductive AttributionVerifyResult where
  | valid
  | invalid (reason : AttributionVerifyReason)
  deriving DecidableEq

def isProjectionStructurallyValid (p : AttributionProjection) : Bool :=
  isLowerHexOf 64 p.action_ref && isLowerHexOf 64 p.merkle_root && isLowerHexOf 128 p.signature &&
    p.issuer ≠ [] && p.timestamp ≠ [] && p.merkle_path.length = 2 && p.merkle_path.all (isLowerHexOf 64)

def tagOf (text : Str) : Option AttributionAxisTag := ATTRIBUTION_AXIS_TAGS.find? (fun tag => tagText tag = text)

def verifyEnvelope (p : AttributionProjection) (computedRoot : Block 32) (issuerPublicKeyHex : Str) :
    Except AttributionError AttributionVerifyResult :=
  if hex computedRoot ≠ toLowerCase p.merkle_root then return .invalid .MERKLE_MISMATCH
  else do
    let envelope ← envelopeBytes P p.action_ref p.merkle_root p.issuer p.timestamp
    return if P.verify envelope p.signature issuerPublicKeyHex then .valid else .invalid .SIGNATURE_INVALID

def verifyAttributionProjection (projection : AttributionProjection) (issuerPublicKeyHex : Str) :
    Except AttributionError AttributionVerifyResult :=
  if !isProjectionStructurallyValid projection then return .invalid .MALFORMED
  else
    match tagOf projection.axis_tag with
    | none => return .invalid .INVALID_AXIS_TAG
    | some tag => do
      let axisLeaf ← hashAxisLeaf P projection.axis_data
      match reconstructRoot P axisLeaf projection.merkle_path tag with
      | none => return .invalid .MALFORMED
      | some computedRoot => verifyEnvelope P projection computedRoot issuerPublicKeyHex

def verifyAxes (primitive : AttributionPrimitive) (issuerPublicKeyHex : Str) :
    List AttributionAxisTag → Except AttributionError AttributionVerifyResult
  | [] => return .valid
  | tag :: rest => do
    let projection ← projectAttribution P primitive tag
    match ← verifyAttributionProjection P projection issuerPublicKeyHex with
    | .valid => verifyAxes primitive issuerPublicKeyHex rest
    | .invalid reason => return .invalid reason

def verifyAttributionPrimitive (primitive : AttributionPrimitive) (issuerPublicKeyHex : Str) :
    Except AttributionError AttributionVerifyResult :=
  verifyAxes P primitive issuerPublicKeyHex ATTRIBUTION_AXIS_TAGS

end

section
variable {α : Type*} (r : α → α → Prop) [DecidableRel r]

theorem isChain_orderedInsert (htotal : ∀ a b, r a b ∨ r b a) (a : α) {l : List α} (h : l.IsChain r) :
    (l.orderedInsert r a).IsChain r := by
  induction l with
  | nil => exact List.isChain_singleton a
  | cons b l ih =>
    rw [List.orderedInsert_cons]
    split
    · rename_i hab
      exact List.isChain_cons_cons.mpr ⟨hab, h⟩
    · rename_i hab
      have hba := (htotal a b).resolve_left hab
      cases l with
      | nil => exact List.isChain_cons_cons.mpr ⟨hba, List.isChain_singleton a⟩
      | cons c l =>
        obtain ⟨hbc, htail⟩ := List.isChain_cons_cons.mp h
        have hinsert := ih htail
        rw [List.orderedInsert_cons] at hinsert ⊢
        split
        · rename_i hac
          rw [if_pos hac] at hinsert
          exact List.isChain_cons_cons.mpr ⟨hba, hinsert⟩
        · rename_i hac
          rw [if_neg hac] at hinsert
          exact List.isChain_cons_cons.mpr ⟨hbc, hinsert⟩

theorem isChain_insertionSort (htotal : ∀ a b, r a b ∨ r b a) (l : List α) : (l.insertionSort r).IsChain r := by
  induction l with
  | nil => exact List.isChain_nil
  | cons a l ih =>
    rw [List.insertionSort_cons]
    exact isChain_orderedInsert r htotal a ih

theorem insertionSort_of_isChain {l : List α} (h : l.IsChain r) : l.insertionSort r = l := by
  induction l with
  | nil => rfl
  | cons a l ih =>
    rw [List.insertionSort_cons, ih (List.isChain_of_isChain_cons h)]
    cases l with
    | nil => rfl
    | cons b l => rw [List.orderedInsert_cons, if_pos (List.isChain_cons_cons.mp h).1]

theorem insertionSort_idem (htotal : ∀ a b, r a b ∨ r b a) (l : List α) :
    (l.insertionSort r).insertionSort r = l.insertionSort r :=
  insertionSort_of_isChain r (isChain_insertionSort r htotal l)

end

end AgentPassport.Attribution
