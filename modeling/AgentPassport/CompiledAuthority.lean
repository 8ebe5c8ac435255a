import AgentPassport.ReceiptLog
import AgentPassport.ToolRegistry
import AgentPassport.ResourceTrie
import AgentPassport.ApprovalRules

/-! The runtime passport, and its compilation into the hot-path authority with and
without crash recovery. Fields that no modelled function reads are left out. -/
namespace AgentPassport.CompiledAuthority
open ByteBlocks DecisionRecord ReceiptLog ToolRegistry ResourceTrie ApprovalRules

inductive RiskClass where
  | r0 | r1 | r2 | r3 | r4
  deriving DecidableEq

def RiskClass.toU8 : RiskClass → UInt8
  | .r0 => 0
  | .r1 => 1
  | .r2 => 2
  | .r3 => 3
  | .r4 => 4

inductive Tier where
  | t1 | t2 | t3
  deriving DecidableEq

def Tier.toU8 : Tier → UInt8
  | .t1 => 1
  | .t2 => 2
  | .t3 => 3

inductive DurabilityMode where
  | memoryBuffered | blockingGroupCommit | queuedGroupCommit | strict
  deriving DecidableEq

structure ApprovalRule where
  predicate : String
  onMatch : ApprovalAction

structure AuthorityBlob where
  allowedTools : List String
  allowedOperations : List String
  resourceScopes : List String
  approvalRules : List ApprovalRule

structure BudgetLease where
  maxActions : UInt64
  maxCostUnits : UInt64

/-- Instants are nanoseconds since the Unix epoch. -/
structure RuntimePassport where
  passportId : String
  issuedAt : Int
  expiresAt : Int
  maxClockSkewMs : UInt32
  revocationEpoch : UInt32
  toolRegistryRoot : String
  riskClass : RiskClass
  minimumTierRequired : Tier
  tierAttested : Tier
  verifierInstanceId : String
  sequenceStart : UInt64
  sequenceEnd : UInt64
  budgetLease : BudgetLease
  authorityBlob : AuthorityBlob

inductive PassportError where
  | temporalBoundsInvalid
  | tierMismatch (attested minimum : Tier)
  | sequenceWindowInvalid
  deriving DecidableEq

/-- The structural checks `from_json` makes on the deserialized passport. -/
def RuntimePassport.fromJson (p : RuntimePassport) : Except PassportError RuntimePassport :=
  if p.expiresAt ≤ p.issuedAt then .error .temporalBoundsInvalid
  else if p.tierAttested.toU8 < p.minimumTierRequired.toU8 then
    .error (.tierMismatch p.tierAttested p.minimumTierRequired)
  else if p.sequenceEnd ≤ p.sequenceStart then .error .sequenceWindowInvalid
  else .ok p

theorem fromJson_window {p q : RuntimePassport} (h : p.fromJson = .ok q) :
    q = p ∧ p.sequenceStart < p.sequenceEnd := by
  unfold RuntimePassport.fromJson at h
  split at h
  · cases h
  · split at h
    · cases h
    · split at h
      · cases h
      · rename_i hw
        exact ⟨(Except.ok.inj h).symm, UInt64.not_le.mp hw⟩

structure BitMap where
  words : List UInt64

def BitMap.new (capacityBits : Nat) : BitMap :=
  ⟨List.replicate (max ((capacityBits + 63) / 64) 1) 0⟩

def BitMap.capacity (m : BitMap) : Nat := 64 * m.words.length

def BitMap.set (m : BitMap) (bit : UInt32) : BitMap :=
  ⟨m.words.modify (bit.toNat / 64) (· ||| (1 <<< UInt64.ofNat (bit.toNat % 64)))⟩

def BitMap.get (m : BitMap) (bit : UInt32) : Bool :=
  m.words.getD (bit.toNat / 64) 0 &&& (1 <<< UInt64.ofNat (bit.toNat % 64)) ≠ 0

structure Authority where
  expiresAtUnixNs : UInt64
  issuedAtUnixNs : UInt64
  maxClockSkewNs : UInt64
  revocationEpoch : UInt32
  riskClass : UInt8
  minimumTierRequired : UInt8
  sequenceNext : UInt64
  sequenceEnd : UInt64
  budgetRemainingActions : UInt32
  budgetRemainingCostUnits : UInt64
  allowedOpMask : UInt32
  lastTimeAnchorNs : UInt64
  passportIdHash : Block 32
  verifierInstanceIdHash : Block 32
  allowedToolBitmap : BitMap
  toolRegistry : Registry
  resourceTrie : Option TrieNode
  approvalRules : List CompiledApprovalRule
  durabilityMode : DurabilityMode
  receiptStreamKey : Block 32
  /-- `0` is the fresh-start sentinel; step 10 consults this only when it is positive. -/
  recoveredFloor : UInt64

def Authority.storeSequence (a : Authority) (n : UInt64) : Authority := { a with sequenceNext := n }

def Authority.storeActions (a : Authority) (n : UInt32) : Authority :=
  { a with budgetRemainingActions := n }

def Authority.storeCost (a : Authority) (n : UInt64) : Authority :=
  { a with budgetRemainingCostUnits := n }

section Store
variable (a : Authority) (n : UInt64) (k : UInt32)

@[simp] theorem Authority.storeSequence_sequence : (a.storeSequence n).sequenceNext = n := rfl
@[simp] theorem Authority.storeSequence_actions :
    (a.storeSequence n).budgetRemainingActions = a.budgetRemainingActions := rfl
@[simp] theorem Authority.storeSequence_cost :
    (a.storeSequence n).budgetRemainingCostUnits = a.budgetRemainingCostUnits := rfl
@[simp] theorem Authority.storeActions_sequence :
    (a.storeActions k).sequenceNext = a.sequenceNext := rfl
@[simp] theorem Authority.storeActions_actions : (a.storeActions k).budgetRemainingActions = k := rfl
@[simp] theorem Authority.storeActions_cost :
    (a.storeActions k).budgetRemainingCostUnits = a.budgetRemainingCostUnits := rfl
@[simp] theorem Authority.storeCost_sequence : (a.storeCost n).sequenceNext = a.sequenceNext := rfl
@[simp] theorem Authority.storeCost_actions :
    (a.storeCost n).budgetRemainingActions = a.budgetRemainingActions := rfl
@[simp] theorem Authority.storeCost_cost : (a.storeCost n).budgetRemainingCostUnits = n := rfl

@[simp] theorem Authority.storeSequence_twice (m : UInt64) :
    (a.storeSequence m).storeSequence n = a.storeSequence n := rfl
@[simp] theorem Authority.storeActions_twice (j : UInt32) :
    (a.storeActions j).storeActions k = a.storeActions k := rfl

@[simp] theorem Authority.storeSequence_self : a.storeSequence a.sequenceNext = a := rfl
@[simp] theorem Authority.storeActions_self : a.storeActions a.budgetRemainingActions = a := rfl
end Store

/-- A formatted message: its text, and the value whose `{:?}` form ends it. That form follows the printable
characters of Unicode, so it is kept as the value. -/
structure Formatted where
  text : String
  debug : Option String

inductive CompileError where
  | unknownTool (descriptorHash : Block 32)
  | unknownOperation (name : String)
  | approvalRule (e : ApprovalCompileError)
  | registryRootMismatch (passportRoot verifierRoot : Block 32)
  | invalidFieldValue (message : Formatted)
  | recoveryFailed (e : RecoveryError)
  | logPassportMismatch (recoveredFloor sequenceStart sequenceEnd : UInt64)

def hexValue (b : UInt8) : Option Nat :=
  if 0x30 ≤ b ∧ b ≤ 0x39 then some (b.toNat - 0x30)
  else if 0x61 ≤ b ∧ b ≤ 0x66 then some (b.toNat - 0x57)
  else if 0x41 ≤ b ∧ b ≤ 0x46 then some (b.toNat - 0x37)
  else none

/-- `u8::from_str_radix(_, 16)` on a two-byte slice; a leading plus sign is accepted. -/
def u8FromStrRadix16 (hi lo : UInt8) : Option UInt8 :=
  match hexValue lo with
  | none => none
  | some l =>
    if hi = 0x2B then some (UInt8.ofNat l)
    else (hexValue hi).map (fun h => UInt8.ofNat (16 * h + l))

/-- A byte at which a `str` may be sliced. -/
def isCharBoundary (b : UInt8) : Bool := !(0x80 ≤ b && b ≤ 0xBF)

inductive HexFailure where
  | slice | digit
  deriving DecidableEq

/-- The chunk loop of the hex decoders, two bytes a round; a round fails when the slice
would cut a character or its two bytes are no number. -/
def decodeHexPairs : List UInt8 → Except HexFailure (List UInt8)
  | [] => .ok []
  | [_] => .error .slice
  | hi :: lo :: rest =>
    if !isCharBoundary hi || !(rest.headD 0 |> isCharBoundary) then .error .slice
    else match u8FromStrRadix16 hi lo with
      | none => .error .digit
      | some b => (decodeHexPairs rest).map (b :: ·)

theorem decodeHexPairs_length (hex out : List UInt8) (h : decodeHexPairs hex = .ok out) :
    2 * out.length = hex.length := by
  fun_induction decodeHexPairs hex generalizing out with
  | case1 => cases h; rfl
  | case2 => cases h
  | case3 => cases h
  | case4 => cases h
  | case5 hi lo rest hb b hu ih =>
    cases hr : decodeHexPairs rest with
    | error e => simp [hr, Except.map] at h
    | ok t =>
      simp only [hr, Except.map, Except.ok.injEq] at h
      subst h
      have := ih t hr
      simp only [List.length_cons]
      omega

def decodeHex32 (hex : List UInt8) : Except HexFailure (Block 32) :=
  match h : decodeHexPairs hex with
  | .error e => .error e
  | .ok out =>
    if hl : hex.length = 64 then
      .ok ⟨out, by have := decodeHexPairs_length hex out h; omega⟩
    else .error .slice

/-- `str::split_once(':')`. -/
def splitOnceColon (s : String) : Option (List Char × List Char) :=
  let front := s.toList.takeWhile (· ≠ ':')
  match s.toList.drop front.length with
  | [] => none
  | _ :: rest => some (front, rest)

def parseBlake3Field (s : String) : Option (Block 32) :=
  match splitOnceColon s with
  | none => none
  | some (_, hex) => if (utf8 hex).length ≠ 64 then none else (decodeHex32 (utf8 hex)).toOption

def decodeHashField (s : String) : Except CompileError (Block 32) :=
  let hex := utf8 (match splitOnceColon s with | some (_, rest) => rest | none => s.toList)
  if hex.length ≠ 64 then
    .error (.invalidFieldValue ⟨"expected 64 hex chars, got " ++ toString hex.length ++ " for ", some s⟩)
  else match decodeHex32 hex with
    | .ok b => .ok b
    | .error .slice => .error (.invalidFieldValue ⟨"hex slice failed for ", some s⟩)
    | .error .digit => .error (.invalidFieldValue ⟨"non-hex character in ", some s⟩)

/-- Instants outside the `i64` nanosecond range, and negative ones, become 0. -/
def datetimeToUnixNs (t : Int) : UInt64 :=
  if 0 ≤ t ∧ t < 2 ^ 63 then UInt64.ofNat t.toNat else 0

def defaultDurabilityFor : RiskClass → DurabilityMode
  | .r0 | .r1 => .memoryBuffered
  | .r2 | .r3 => .blockingGroupCommit
  | .r4 => .strict

variable (B : Blake3)

def compileOpMask (operations : List String) : Except CompileError UInt32 :=
  operations.foldlM (fun mask op =>
    match operationIdFromName op with
    | some id => .ok (mask ||| (1 <<< id.toUInt32))
    | none => .error (.unknownOperation op)) 0

def compileToolBitmap (registry : Registry) (tools : List String) : Except CompileError BitMap :=
  let capacity := max ((registry.maxLocalId.map (fun m => m.toNat + 1)).getD 0) 65536
  tools.foldlM (fun bitmap tool =>
    match parseBlake3Field tool with
    | none => .error (.unknownTool (Block.zero 32))
    | some descriptorHash =>
      match registry.getByHash descriptorHash with
      | none => .error (.unknownTool descriptorHash)
      | some localId => .ok (bitmap.set localId)) (BitMap.new capacity)

def compileApprovalRules (rules : List ApprovalRule) :
    Except CompileError (List CompiledApprovalRule) :=
  rules.mapM (fun r =>
    match CompiledApprovalRule.compile r.predicate r.onMatch with
    | .ok rule => .ok rule
    | .error e => .error (.approvalRule e))

def leaseActions (maxActions : UInt64) : UInt32 :=
  if maxActions.toNat < 2 ^ 32 then maxActions.toUInt32 else UInt32.ofNat (2 ^ 32 - 1)

def fromPassport (passport : RuntimePassport) (registry : Registry) :
    Except CompileError Authority := do
  let verifierRoot := registry.currentRoot B
  let passportRoot ← decodeHashField passport.toolRegistryRoot
  if verifierRoot ≠ passportRoot then
    throw (.registryRootMismatch passportRoot verifierRoot)
  let allowedOpMask ← compileOpMask passport.authorityBlob.allowedOperations
  let allowedToolBitmap ← compileToolBitmap registry passport.authorityBlob.allowedTools
  let approvalRules ← compileApprovalRules passport.authorityBlob.approvalRules
  return {
    expiresAtUnixNs := datetimeToUnixNs passport.expiresAt
    issuedAtUnixNs := datetimeToUnixNs passport.issuedAt
    maxClockSkewNs := passport.maxClockSkewMs.toUInt64 * 1000000
    revocationEpoch := passport.revocationEpoch
    riskClass := passport.riskClass.toU8
    minimumTierRequired := passport.minimumTierRequired.toU8
    sequenceNext := passport.sequenceStart
    sequenceEnd := passport.sequenceEnd
    budgetRemainingActions := leaseActions passport.budgetLease.maxActions
    budgetRemainingCostUnits := passport.budgetLease.maxCostUnits
    allowedOpMask
    lastTimeAnchorNs := datetimeToUnixNs passport.issuedAt
    passportIdHash := B.hash (utf8 passport.passportId.toList)
    verifierInstanceIdHash := B.hash (utf8 passport.verifierInstanceId.toList)
    allowedToolBitmap
    toolRegistry := registry
    resourceTrie := some (TrieNode.build B passport.authorityBlob.resourceScopes)
    approvalRules
    durabilityMode := defaultDurabilityFor passport.riskClass
    receiptStreamKey := Block.zero 32
    recoveredFloor := 0 }

/-- The recovered floor checked against the passport's window; `none` on a fresh start. -/
def validatedFloor (passport : RuntimePassport) (report : RecoveryReport) :
    Except CompileError (Option UInt64) :=
  match report.status with
  | .freshStart => .ok none
  | .cleanRecovery | .partialRecovery _ _ =>
    let floor := report.lastCommittedSequenceId
    if floor ≠ 0 ∧ floor < passport.sequenceStart then
      .error (.logPassportMismatch floor passport.sequenceStart passport.sequenceEnd)
    else if floor ≥ passport.sequenceEnd then
      .error (.logPassportMismatch floor passport.sequenceStart passport.sequenceEnd)
    else .ok (some floor)

def fromPassportWithRecovery (passport : RuntimePassport) (registry : Registry)
    (logPath : Option (List UInt8)) (macKey : Block 32) :
    Except CompileError (Authority × RecoveryReport) :=
  match recoverLog B logPath macKey with
  | .error e => .error (.recoveryFailed e)
  | .ok report => do
    let floor? ← validatedFloor passport report
    let auth ← fromPassport B passport registry
    match floor? with
    | none => return (auth, report)
    | some floor =>
      return ({ auth with recoveredFloor := floor }.storeSequence (floor + 1), report)

end AgentPassport.CompiledAuthority
