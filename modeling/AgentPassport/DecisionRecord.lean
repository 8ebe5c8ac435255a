import AgentPassport.ByteBlocks

/-! The packed 64-byte decision record and its keyed identity. The hash functions are
a parameter: nothing below depends on how a digest is computed. -/
namespace AgentPassport.DecisionRecord
open ByteBlocks

/-- The three BLAKE3 modes the verifier calls: plain, keyed, and 16 bytes of the
derive-key output for a context string. -/
structure Blake3 where
  hash : List UInt8 → Block 32
  keyed : Block 32 → List UInt8 → Block 32
  deriveKey : String → List UInt8 → Block 16

/-- A finite table of digests; an input outside it gets the zero digest. -/
def Blake3.ofTable (hashes : List (List UInt8 × Block 32))
    (macs : List ((Block 32 × List UInt8) × Block 32))
    (ids : List ((String × List UInt8) × Block 16)) : Blake3 where
  hash input := (hashes.lookup input).getD (Block.zero 32)
  keyed key input := (macs.lookup (key, input)).getD (Block.zero 32)
  deriveKey context input := (ids.lookup (context, input)).getD (Block.zero 16)

inductive DecisionType where
  | allow | deny | escalate
  deriving DecidableEq

inductive ReasonCode where
  | ok
  | expiredPassport
  | notYetValid
  | staleRevocationEpoch
  | registryVersionMismatch
  | toolNotAllowed
  | operationNotAllowed
  | resourceOutOfScope
  | riskTierTooLow
  | riskClassExceeded
  | budgetExceeded
  | sequenceReplay
  | nonceReplay
  | approvalRequired
  | deniedByRule
  | actionHashInvalid
  | verifierInstanceMismatch
  | clockAnchorStale
  | sequenceRecoveryInvalid
  | strictModeRequired
  deriving DecidableEq

inductive DecisionError where
  | invalidDecisionType (v : UInt8)
  | invalidReasonCode (v : UInt8)
  deriving DecidableEq

def DecisionType.toU8 : DecisionType → UInt8
  | .allow => 0
  | .deny => 1
  | .escalate => 2

def DecisionType.fromU8 : UInt8 → Except DecisionError DecisionType
  | 0 => .ok .allow
  | 1 => .ok .deny
  | 2 => .ok .escalate
  | other => .error (.invalidDecisionType other)

def ReasonCode.toU8 : ReasonCode → UInt8
  | .ok => 0x00
  | .expiredPassport => 0x01
  | .notYetValid => 0x02
  | .staleRevocationEpoch => 0x03
  | .registryVersionMismatch => 0x04
  | .toolNotAllowed => 0x05
  | .operationNotAllowed => 0x06
  | .resourceOutOfScope => 0x07
  | .riskTierTooLow => 0x08
  | .riskClassExceeded => 0x09
  | .budgetExceeded => 0x0A
  | .sequenceReplay => 0x0B
  | .nonceReplay => 0x0C
  | .approvalRequired => 0x0D
  | .deniedByRule => 0x0E
  | .actionHashInvalid => 0x0F
  | .verifierInstanceMismatch => 0x10
  | .clockAnchorStale => 0x11
  | .sequenceRecoveryInvalid => 0x12
  | .strictModeRequired => 0x13

def ReasonCode.fromU8 : UInt8 → Except DecisionError ReasonCode
  | 0x00 => .ok .ok
  | 0x01 => .ok .expiredPassport
  | 0x02 => .ok .notYetValid
  | 0x03 => .ok .staleRevocationEpoch
  | 0x04 => .ok .registryVersionMismatch
  | 0x05 => .ok .toolNotAllowed
  | 0x06 => .ok .operationNotAllowed
  | 0x07 => .ok .resourceOutOfScope
  | 0x08 => .ok .riskTierTooLow
  | 0x09 => .ok .riskClassExceeded
  | 0x0A => .ok .budgetExceeded
  | 0x0B => .ok .sequenceReplay
  | 0x0C => .ok .nonceReplay
  | 0x0D => .ok .approvalRequired
  | 0x0E => .ok .deniedByRule
  | 0x0F => .ok .actionHashInvalid
  | 0x10 => .ok .verifierInstanceMismatch
  | 0x11 => .ok .clockAnchorStale
  | 0x12 => .ok .sequenceRecoveryInvalid
  | 0x13 => .ok .strictModeRequired
  | other => .error (.invalidReasonCode other)

theorem DecisionType.fromU8_toU8 (t : DecisionType) : DecisionType.fromU8 t.toU8 = .ok t := by
  cases t <;> rfl

theorem ReasonCode.fromU8_toU8 (r : ReasonCode) : ReasonCode.fromU8 r.toU8 = .ok r := by
  cases r <;> rfl

theorem DecisionType.toU8_fromU8 {v : UInt8} {t : DecisionType}
    (h : DecisionType.fromU8 v = .ok t) : t.toU8 = v := by
  unfold DecisionType.fromU8 at h
  split at h <;> cases h <;> rfl

theorem ReasonCode.toU8_fromU8 {v : UInt8} {r : ReasonCode}
    (h : ReasonCode.fromU8 v = .ok r) : r.toU8 = v := by
  unfold ReasonCode.fromU8 at h
  split at h <;> cases h <;> rfl

structure Decision where
  decisionType : DecisionType
  reasonCode : ReasonCode
  reserved : Block 6
  sequenceId : UInt64
  decisionId : Block 16
  eventMac : Block 32
  /-- Bound into `eventMac`; not part of the wire form. -/
  timestampUnixNs : UInt64
  deriving DecidableEq

def decisionIdContext : String := "APS decision_id v1"

def deriveDecisionId (B : Blake3) (passportIdHash actionHash : Block 32)
    (t : DecisionType) (r : ReasonCode) : Block 16 :=
  B.deriveKey decisionIdContext (passportIdHash.bytes ++ actionHash.bytes ++ [t.toU8, r.toU8])

def packCanonicalEvent (d : Decision) (passportIdHash actionHash : Block 32)
    (timestampNs : UInt64) : List UInt8 :=
  passportIdHash.bytes ++ actionHash.bytes ++ toLe 8 d.sequenceId.toNat ++
    [d.decisionType.toU8, d.reasonCode.toU8] ++ d.decisionId.bytes ++ toLe 8 timestampNs.toNat

def Decision.computeEventMac (B : Blake3) (d : Decision) (receiptStreamKey : Block 32)
    (passportIdHash actionHash : Block 32) (timestampNs : UInt64) : Block 32 :=
  B.keyed receiptStreamKey (packCanonicalEvent d passportIdHash actionHash timestampNs)

def Decision.finalizeMac (B : Blake3) (d : Decision) (receiptStreamKey : Block 32)
    (passportIdHash actionHash : Block 32) (timestampNs : UInt64) : Decision :=
  { d with eventMac := d.computeEventMac B receiptStreamKey passportIdHash actionHash timestampNs }

def Decision.toBytes (d : Decision) : Block 64 where
  bytes := d.decisionType.toU8 :: d.reasonCode.toU8 ::
    (d.reserved.bytes ++ (toLe 8 d.sequenceId.toNat ++ (d.decisionId.bytes ++ d.eventMac.bytes)))
  size := by simp

/-- The timestamp is disclosed out of band, so parsing sets it to 0. -/
def Decision.fromBytes (b : Block 64) : Except DecisionError Decision := do
  let decisionType ← DecisionType.fromU8 (b.bytes.getD 0 0)
  let reasonCode ← ReasonCode.fromU8 (b.bytes.getD 1 0)
  return {
    decisionType, reasonCode
    reserved := b.slice 2 6 (by decide)
    sequenceId := UInt64.ofNat (ofLe (b.slice 8 8 (by decide)).bytes)
    decisionId := b.slice 16 16 (by decide)
    eventMac := b.slice 32 32 (by decide)
    timestampUnixNs := 0 }

theorem Decision.fromBytes_toBytes (d : Decision) :
    Decision.fromBytes d.toBytes = .ok { d with timestampUnixNs := 0 } := by
  have hr : d.toBytes.slice 2 6 (by decide) = d.reserved :=
    Block.slice_append _ _ [d.decisionType.toU8, d.reasonCode.toU8]
      (toLe 8 d.sequenceId.toNat ++ (d.decisionId.bytes ++ d.eventMac.bytes)) _ rfl rfl
  have hs : d.toBytes.slice 8 8 (by decide) = leBlock 8 d.sequenceId.toNat :=
    Block.slice_append _ _ (d.decisionType.toU8 :: d.reasonCode.toU8 :: d.reserved.bytes)
      (d.decisionId.bytes ++ d.eventMac.bytes) _ (by simp) (by simp [Decision.toBytes])
  have hi : d.toBytes.slice 16 16 (by decide) = d.decisionId :=
    Block.slice_append _ _ (d.decisionType.toU8 :: d.reasonCode.toU8 ::
      (d.reserved.bytes ++ toLe 8 d.sequenceId.toNat)) d.eventMac.bytes _
      (by simp) (by simp [Decision.toBytes])
  have hm : d.toBytes.slice 32 32 (by decide) = d.eventMac :=
    Block.slice_append _ _ (d.decisionType.toU8 :: d.reasonCode.toU8 ::
      (d.reserved.bytes ++ (toLe 8 d.sequenceId.toNat ++ d.decisionId.bytes))) [] _
      (by simp) (by simp [Decision.toBytes])
  have h0 : d.toBytes.bytes.getD 0 0 = d.decisionType.toU8 := rfl
  have h1 : d.toBytes.bytes.getD 1 0 = d.reasonCode.toU8 := rfl
  simp only [Decision.fromBytes, h0, h1, DecisionType.fromU8_toU8, ReasonCode.fromU8_toU8,
    hr, hs, hi, hm, leBlock_bytes, ofLe_u64]
  rfl

theorem u64_block (b : Block 8) : toLe 8 (UInt64.ofNat (ofLe b.bytes)).toNat = b.bytes := by
  have hlt : ofLe b.bytes < 2 ^ 64 := by
    have h := ofLe_lt b.bytes
    rw [b.size] at h
    exact h
  have hn : (UInt64.ofNat (ofLe b.bytes)).toNat = ofLe b.bytes :=
    UInt64.toNat_ofNat_of_lt' hlt
  have hb := toLe_ofLe b.bytes
  rw [b.size] at hb
  rw [hn, hb]

theorem Decision.toBytes_fromBytes {b : Block 64} {d : Decision}
    (h : Decision.fromBytes b = .ok d) : d.toBytes = b := by
  unfold Decision.fromBytes at h
  cases ht : DecisionType.fromU8 (b.bytes.getD 0 0) with
  | error e => rw [ht] at h; cases h
  | ok t =>
    cases hr : ReasonCode.fromU8 (b.bytes.getD 1 0) with
    | error e => rw [ht, hr] at h; cases h
    | ok r =>
      rw [ht, hr] at h
      cases h
      apply Block.ext_bytes
      have h2 := b.slice_drop 2 6 (by decide)
      have h8 := b.slice_drop 8 8 (by decide)
      have h16 := b.slice_drop 16 16 (by decide)
      have h32 : (b.slice 32 32 (by decide)).bytes = b.bytes.drop 32 :=
        List.take_of_length_le (by simp)
      have hhead : b.bytes = b.bytes.getD 0 0 :: b.bytes.getD 1 0 :: b.bytes.drop 2 := by
        obtain ⟨bytes, hsize⟩ := b
        match bytes, hsize with
        | x :: y :: rest, _ => rfl
      simp only [Decision.toBytes, DecisionType.toU8_fromU8 ht, ReasonCode.toU8_fromU8 hr, u64_block,
        h32, h16, h8, h2]
      exact hhead.symm

end AgentPassport.DecisionRecord
