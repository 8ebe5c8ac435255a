import AgentPassport.DecisionRecord

/-! The packed action descriptor and its integrity hash. -/
namespace AgentPassport.ActionRecord
open ByteBlocks DecisionRecord

/-- Eight pre-hashed path components, unused slots included. -/
structure PathHashes where
  slots : List UInt64
  size : slots.length = 8
  deriving DecidableEq

structure ActionDescriptor where
  version : UInt8
  reserved : Block 3
  passportIdHash : Block 32
  toolDescriptorHash : Block 32
  localToolId : UInt32
  operationId : UInt16
  resourceType : UInt16
  riskClass : UInt8
  resourcePathDepth : UInt8
  reserved2 : Block 2
  costUnits : UInt32
  sequenceId : UInt64
  nonce : Block 16
  resourcePathHashes : PathHashes
  actionHash : Block 32
  deriving DecidableEq

/-- The wire form up to `action_hash`: the bytes the hash covers. -/
def ActionDescriptor.hashedBytes (a : ActionDescriptor) : List UInt8 :=
  [a.version] ++ a.reserved.bytes ++ a.passportIdHash.bytes ++ a.toolDescriptorHash.bytes ++
    toLe 4 a.localToolId.toNat ++ toLe 2 a.operationId.toNat ++ toLe 2 a.resourceType.toNat ++
    [a.riskClass, a.resourcePathDepth] ++ a.reserved2.bytes ++ toLe 4 a.costUnits.toNat ++
    toLe 8 a.sequenceId.toNat ++ a.nonce.bytes ++
    a.resourcePathHashes.slots.flatMap (fun h => toLe 8 h.toNat)

def ActionDescriptor.toBytes (a : ActionDescriptor) : List UInt8 :=
  a.hashedBytes ++ a.actionHash.bytes

theorem hashedBytes_length (a : ActionDescriptor) : a.hashedBytes.length = 172 := by
  have h : ∀ l : List UInt64, (l.flatMap (fun h => toLe 8 h.toNat)).length = 8 * l.length := by
    intro l
    induction l with
    | nil => rfl
    | cons x xs ih =>
      rw [List.flatMap_cons, List.length_append, ih, toLe_length, List.length_cons]
      omega
  simp [ActionDescriptor.hashedBytes, h, a.resourcePathHashes.size]

/-- The hash covers everything in front of the stored hash itself. -/
def ActionDescriptor.computeActionHash (B : Blake3) (a : ActionDescriptor) : Block 32 :=
  B.hash (a.toBytes.take 172)

def ActionDescriptor.verifyActionHash (B : Blake3) (a : ActionDescriptor) : Bool :=
  a.computeActionHash B = a.actionHash

theorem computeActionHash_eq (B : Blake3) (a : ActionDescriptor) :
    a.computeActionHash B = B.hash a.hashedBytes := by
  unfold ActionDescriptor.computeActionHash ActionDescriptor.toBytes
  rw [List.take_left' (hashedBytes_length a)]

end AgentPassport.ActionRecord
