import AgentPassport.CanonicalWrite
import AgentPassport.JsArithmetic
import AgentPassport.PromotedTree
import AgentPassport.Sha256

/-! Context-provenance attestations (`v2/context-provenance`): context entries in one tree for each
channel, the channels' roots in a tree above, disclosure of all entries or of some with their paths,
and the recomputation the verifier makes. -/
namespace AgentPassport.ContextProvenance
open JsText Js ByteBlocks Sha256 Utf8 CanonicalJcs PromotedTree
open DelegationSchema (isLowerHexOf)
open Multibase (hexToBytes)

inductive ContextChannel where
  | systemConfig | developer | userSocket | retrievalStore | toolResult | external | memory | quarantine
  deriving DecidableEq

def channelText : ContextChannel → Str
  | .systemConfig => lit "system-config"
  | .developer => lit "developer"
  | .userSocket => lit "user-socket"
  | .retrievalStore => lit "retrieval-store"
  | .toolResult => lit "tool-result"
  | .external => lit "external"
  | .memory => lit "memory"
  | .quarantine => lit "quarantine"

def CHANNEL_ORDER : List ContextChannel :=
  [.systemConfig, .developer, .userSocket, .retrievalStore, .toolResult, .external, .memory, .quarantine]

inductive DisclosureMode where
  | inclusion | fullSet
  deriving DecidableEq

structure ContextItem where
  ctx_id : Str
  channel : ContextChannel
  content_ref : Str
  byte_len : JsNumber
  trust_tier : Option Str
  content : Option Str
  deriving DecidableEq

def LEAF_TAG : Str := lit "CPA:v0.1:leaf\n"
def NODE_TAG : Str := lit "CPA:v0.1:node\n"
def EMPTY_SENTINEL : Str := lit "EMPTY"

inductive CpaError where
  | emptyLevel
  | emptyPartition
  | emptyProof
  | duplicateCtxId (ctx_id : Str)
  | ctxIdNotFound (ctx_id : Str)
  | canonical (e : JcsError)
  | key
  deriving DecidableEq

/-- The functions of the platform: number texts, SHA-256 and Ed25519. -/
structure Platform where
  numText : Double → Str
  sha256 : Hash
  sign : Str → Str → Option Str
  publicKeyFromPrivate : Str → Option Str

/-- The four fields that are committed; the content and the trust tier are not among them. -/
def leafPreimage (leaf : ContextItem) : JsValue :=
  .obj [(lit "byte_len", .num leaf.byte_len), (lit "channel", .str (channelText leaf.channel)),
    (lit "content_ref", .str leaf.content_ref), (lit "ctx_id", .str leaf.ctx_id)]

def leafInput (textBytes : List UInt8) : List UInt8 := utf8 LEAF_TAG ++ textBytes

def nodeInput (pair : Block 32 × Block 32) : List UInt8 := utf8 NODE_TAG ++ (pair.1.bytes ++ pair.2.bytes)

def emptyInput : List UInt8 := utf8 NODE_TAG ++ utf8 EMPTY_SENTINEL

section
variable (P : Platform)

def hashLeafText (text : Except JcsError Str) : Except CpaError (Block 32) :=
  match text with
  | .error e => throw (.canonical e)
  | .ok text => return P.sha256 (leafInput (utf8 text))

def leafHash (leaf : ContextItem) : Except CpaError (Block 32) :=
  hashLeafText P (canonicalizeJCS P.numText (leafPreimage leaf))

def leafHashForWrite (leaf : ContextItem) : Except CpaError (Block 32) :=
  hashLeafText P (canonicalizeJCSForWrite P.numText (leafPreimage leaf))

def nodeHash (left right : Block 32) : Block 32 := P.sha256 (nodeInput (left, right))

def sortByCtxId (leaves : List ContextItem) : List ContextItem :=
  leaves.insertionSort (fun a b => a.ctx_id ≤ b.ctx_id)

/-- The first id that is that of the leaf before it. -/
def duplicateCtxId : List ContextItem → Option Str
  | a :: b :: rest => if b.ctx_id = a.ctx_id then some b.ctx_id else duplicateCtxId (b :: rest)
  | _ => none

def sortedLeaves (empty : CpaError) (leaves : List ContextItem) : Except CpaError (List ContextItem) :=
  if leaves = [] then throw empty
  else
    match duplicateCtxId (sortByCtxId leaves) with
    | some ctx_id => throw (.duplicateCtxId ctx_id)
    | none => return sortByCtxId leaves

/-- `sorted.map(leaf)`. -/
def digestAll (leaf : ContextItem → Except CpaError (Block 32)) :
    List ContextItem → Except CpaError (List (Block 32))
  | [] => return []
  | item :: rest => do
    let digest ← leaf item
    let digests ← digestAll leaf rest
    return digest :: digests

/-- The root of a level that has a node. -/
def reduceLevel (level : List (Block 32)) : Except CpaError (Block 32) :=
  match reduce (nodeHash P) level.length level with
  | root :: _ => return root
  | [] => throw .emptyLevel

def buildPartitionRootBytesImpl (leaves : List ContextItem) (leaf : ContextItem → Except CpaError (Block 32)) :
    Except CpaError (Block 32) := do
  let sorted ← sortedLeaves .emptyPartition leaves
  let digests ← digestAll leaf sorted
  reduceLevel P digests

def buildPartitionRootBytes (leaves : List ContextItem) : Except CpaError (Block 32) :=
  buildPartitionRootBytesImpl P leaves (leafHash P)

def buildPartitionRootBytesForWrite (leaves : List ContextItem) : Except CpaError (Block 32) :=
  buildPartitionRootBytesImpl P leaves (leafHashForWrite P)

/-- The root over the partition roots; over none, the sentinel's digest. -/
def buildTopRootBytes (roots : List (Block 32)) : Block 32 :=
  match reduce (nodeHash P) roots.length roots with
  | root :: _ => root
  | [] => P.sha256 emptyInput

structure InclusionStep where
  sibling : Str
  side : Side
  deriving DecidableEq

structure InclusionProof where
  ctx_id : Str
  path : List InclusionStep
  deriving DecidableEq

def findCtxId (ctx_id : Str) (sorted : List ContextItem) : Except CpaError Nat :=
  match sorted.findIdx? (fun l => l.ctx_id = ctx_id) with
  | some index => return index
  | none => throw (.ctxIdNotFound ctx_id)

/-- A level where the target is promoted has no step. -/
def buildInclusionProofImpl (leaves : List ContextItem) (ctx_id : Str)
    (leaf : ContextItem → Except CpaError (Block 32)) : Except CpaError InclusionProof := do
  let sorted ← sortedLeaves .emptyProof leaves
  let index ← findCtxId ctx_id sorted
  let current ← digestAll leaf sorted
  let steps := (siblings (nodeHash P) current.length current index).filterMap id
  return { ctx_id, path := steps.map (fun s => ⟨hex s.2, s.1⟩) }

def buildInclusionProofForWrite (leaves : List ContextItem) (ctx_id : Str) : Except CpaError InclusionProof :=
  buildInclusionProofImpl P leaves ctx_id (leafHashForWrite P)

/-- The loop over the path; none when a sibling is not 64 hexadecimal digits. -/
def foldPath : List InclusionStep → Block 32 → Option (Block 32)
  | [], acc => some acc
  | step :: rest, acc =>
    if !isLowerHexOf 64 step.sibling then none
    else
      match asBlock (hexToBytes step.sibling) with
      | none => none
      | some sibling => foldPath rest (combine (nodeHash P) acc (step.side, sibling))

def verifyInclusionProof (leaf : ContextItem) (proof : InclusionProof) (partition_root : Str) : Bool :=
  if !isLowerHexOf 64 partition_root then false
  else if proof.ctx_id ≠ leaf.ctx_id then false
  else
    match leafHash P leaf with
    | .error _ => false
    | .ok acc =>
      match foldPath P proof.path acc with
      | none => false
      | some acc => hex acc = partition_root

end

structure ContextProfile where
  channel : ContextChannel
  hidden_leaf_count : Int
  deriving DecidableEq

structure CpaPartition where
  channel : ContextChannel
  partition_root : Str
  leaf_count : Nat
  context_profile : Option ContextProfile
  leaves : Option (List ContextItem)
  inclusion_proofs : Option (List InclusionProof)
  deriving DecidableEq

structure ContextProvenanceAttestation where
  action_ref : Str
  producer_did : Str
  producer_pubkey : Str
  attested_at : Str
  mode : DisclosureMode
  partitions : List CpaPartition
  root : Str
  producer_attestation : Option JsValue
  signature : Str

structure BuildCpaInput where
  privateKey : Str
  action_ref : Str
  producer_did : Str
  attested_at : Str
  mode : DisclosureMode
  items : List ContextItem
  disclose : List Str
  producer_attestation : Option JsValue

def optional (name : String) (v : Option JsValue) : List (Str × JsValue) := (v.map (fun v => (lit name, v))).toList

def ContextItem.value (item : ContextItem) : JsValue :=
  .obj ([(lit "ctx_id", JsValue.str item.ctx_id), (lit "channel", .str (channelText item.channel)),
    (lit "content_ref", .str item.content_ref), (lit "byte_len", .num item.byte_len)] ++
    optional "trust_tier" (item.trust_tier.map .str) ++ optional "content" (item.content.map .str))

def sideText : Side → Str
  | .left => lit "left"
  | .right => lit "right"

def InclusionProof.value (proof : InclusionProof) : JsValue :=
  .obj [(lit "ctx_id", .str proof.ctx_id), (lit "path", .arr (proof.path.map (fun step =>
    .obj [(lit "sibling", .str step.sibling), (lit "side", .str (sideText step.side))])))]

def CpaPartition.value (part : CpaPartition) : JsValue :=
  .obj ([(lit "channel", JsValue.str (channelText part.channel)), (lit "partition_root", .str part.partition_root),
    (lit "leaf_count", .num (JsNumber.ofInt part.leaf_count))] ++
    optional "context_profile" (part.context_profile.map (fun profile =>
      .obj [(lit "channel", .str (channelText profile.channel)),
        (lit "hidden_leaf_count", .num (JsNumber.ofInt profile.hidden_leaf_count))])) ++
    optional "leaves" (part.leaves.map (fun leaves => .arr (leaves.map ContextItem.value))) ++
    optional "inclusion_proofs" (part.inclusion_proofs.map (fun proofs => .arr (proofs.map InclusionProof.value))))

def modeText : DisclosureMode → Str
  | .inclusion => lit "inclusion"
  | .fullSet => lit "full-set"

def ContextProvenanceAttestation.value (c : ContextProvenanceAttestation) : JsValue :=
  .obj ([(lit "version", JsValue.str (lit "cpa/0.1")), (lit "action_ref", .str c.action_ref),
    (lit "producer_did", .str c.producer_did), (lit "producer_pubkey", .str c.producer_pubkey),
    (lit "attested_at", .str c.attested_at), (lit "mode", .str (modeText c.mode)),
    (lit "partitions", .arr (c.partitions.map CpaPartition.value)), (lit "root", .str c.root)] ++
    optional "producer_attestation" c.producer_attestation ++ [(lit "signature", JsValue.str c.signature)])

section
variable (P : Platform)

def discloseLeaves (leaves : List ContextItem) : List ContextItem → Except CpaError (List (ContextItem × InclusionProof))
  | [] => return []
  | leaf :: rest => do
    let proof ← buildInclusionProofForWrite P leaves leaf.ctx_id
    let others ← discloseLeaves leaves rest
    return (leaf, proof) :: others

def sortProofs (proofs : List InclusionProof) : List InclusionProof :=
  proofs.insertionSort (fun a b => a.ctx_id ≤ b.ctx_id)

def inclusionPartition (channel : ContextChannel) (partition_root : Str) (leaf_count : Nat)
    (disclosed : List (ContextItem × InclusionProof)) : CpaPartition where
  channel := channel
  partition_root := partition_root
  leaf_count := leaf_count
  context_profile := some ⟨channel, leaf_count - disclosed.length⟩
  leaves := if 0 < disclosed.length then some (sortByCtxId (disclosed.map (·.1))) else none
  inclusion_proofs := if 0 < disclosed.length then some (sortProofs (disclosed.map (·.2))) else none

def buildPartition (mode : DisclosureMode) (disclose : List Str) (channel : ContextChannel)
    (leaves : List ContextItem) : Except CpaError (CpaPartition × Block 32) := do
  let rootBytes ← buildPartitionRootBytesForWrite P leaves
  match mode with
  | .fullSet => return (⟨channel, hex rootBytes, leaves.length, none, some leaves, none⟩, rootBytes)
  | .inclusion => do
    let disclosed ← discloseLeaves P leaves (leaves.filter (fun leaf => leaf.ctx_id ∈ disclose))
    return (inclusionPartition channel (hex rootBytes) leaves.length disclosed, rootBytes)

def bucket (items : List ContextItem) (channel : ContextChannel) : List ContextItem :=
  items.filter (fun item => item.channel = channel)

def buildPartitions (mode : DisclosureMode) (disclose : List Str) (items : List ContextItem) :
    List ContextChannel → Except CpaError (List (CpaPartition × Block 32))
  | [] => return []
  | channel :: rest =>
    if bucket items channel = [] then buildPartitions mode disclose items rest
    else do
      let part ← buildPartition P mode disclose channel (bucket items channel)
      let parts ← buildPartitions mode disclose items rest
      return part :: parts

def orThrow {α : Type} (v : Option α) (e : CpaError) : Except CpaError α :=
  match v with
  | some v => return v
  | none => throw e

def signingText (c : ContextProvenanceAttestation) : Except CpaError Str :=
  match canonicalizeJCSForWrite P.numText c.value with
  | .error e => throw (.canonical e)
  | .ok text => return text

def buildCPA (input : BuildCpaInput) : Except CpaError ContextProvenanceAttestation := do
  let built ← buildPartitions P input.mode input.disclose input.items CHANNEL_ORDER
  let producer_pubkey ← orThrow (P.publicKeyFromPrivate input.privateKey) .key
  let unsigned : ContextProvenanceAttestation := {
    action_ref := input.action_ref
    producer_did := input.producer_did
    producer_pubkey
    attested_at := input.attested_at
    mode := input.mode
    partitions := built.map (·.1)
    root := hex (buildTopRootBytes P (built.map (·.2)))
    producer_attestation := input.producer_attestation
    signature := [] }
  let bytes ← signingText P unsigned
  let signature ← orThrow (P.sign bytes input.privateKey) .key
  return { unsigned with signature }

inductive CpaReasonCode where
  | SHAPE_INVALID | SIGNATURE_INVALID | KEY_NOT_ACTIVE | DID_MISMATCH | ACTION_REF_MISMATCH | CPA_REF_MISMATCH
  | CONTENT_REF_MISMATCH | PARTITION_ROOT_MISMATCH | ROOT_MISMATCH | CARDINALITY_MISMATCH
  | INCLUSION_PROOF_INVALID | DISCLOSURE_POLICY_UNSATISFIED | DOMAIN_TAG_CONFUSION
  deriving DecidableEq

def reasonIf (condition : Bool) (reason : CpaReasonCode) : List CpaReasonCode := if condition then [reason] else []

/-- `hexToBytes(part.partition_root)`; the shape check has seen 64 hexadecimal digits. -/
def declaredRoot (part : CpaPartition) : Block 32 := (asBlock (hexToBytes part.partition_root)).getD (Block.zero 32)

/-- What one partition adds: its reasons, and its declared root unless recomputing threw. -/
def recomputePartition (part : CpaPartition) : List CpaReasonCode × List (Block 32) :=
  let leaves := part.leaves.getD []
  match buildPartitionRootBytes P leaves with
  | .error _ => ([.PARTITION_ROOT_MISMATCH], [])
  | .ok recomputed =>
    (reasonIf (hex recomputed ≠ part.partition_root) .PARTITION_ROOT_MISMATCH ++
      reasonIf (leaves.length ≠ part.leaf_count) .CARDINALITY_MISMATCH, [declaredRoot part])

def recomputeFullSet (c : ContextProvenanceAttestation) : List CpaReasonCode :=
  c.partitions.flatMap (fun part => (recomputePartition P part).1) ++
    reasonIf (hex (buildTopRootBytes P (c.partitions.flatMap (fun part => (recomputePartition P part).2))) ≠ c.root)
      .ROOT_MISMATCH

/-- `proofByCtx.get(ctx_id)`: the last proof set for an id is kept. -/
def proofByCtx (proofs : List InclusionProof) (ctx_id : Str) : Option InclusionProof :=
  proofs.reverse.find? (fun proof => proof.ctx_id = ctx_id)

def checkDisclosed (proofs : List InclusionProof) (partition_root : Str) (leaf : ContextItem) : List CpaReasonCode :=
  match proofByCtx proofs leaf.ctx_id with
  | none => [.INCLUSION_PROOF_INVALID]
  | some proof => reasonIf (!verifyInclusionProof P leaf proof partition_root) .INCLUSION_PROOF_INVALID

def checkPartition (part : CpaPartition) : List CpaReasonCode :=
  let disclosed := part.leaves.getD []
  let proofs := part.inclusion_proofs.getD []
  reasonIf (0 < disclosed.length && proofs.length ≠ disclosed.length) .INCLUSION_PROOF_INVALID ++
    disclosed.flatMap (checkDisclosed P proofs part.partition_root) ++
    proofs.flatMap (fun proof =>
      reasonIf (!disclosed.any (fun leaf => leaf.ctx_id = proof.ctx_id)) .INCLUSION_PROOF_INVALID) ++
    reasonIf (part.context_profile.map (·.hidden_leaf_count) ≠ some ((part.leaf_count : Int) - disclosed.length))
      .CARDINALITY_MISMATCH

def recomputeInclusion (c : ContextProvenanceAttestation) : List CpaReasonCode :=
  c.partitions.flatMap (checkPartition P) ++
    reasonIf (hex (buildTopRootBytes P (c.partitions.map declaredRoot)) ≠ c.root) .ROOT_MISMATCH

/-- Step 5 of `verifyCPA`: the reasons it adds. -/
def recompute (c : ContextProvenanceAttestation) : List CpaReasonCode :=
  match c.mode with
  | .fullSet => recomputeFullSet P c
  | .inclusion => recomputeInclusion P c

end

end AgentPassport.ContextProvenance
