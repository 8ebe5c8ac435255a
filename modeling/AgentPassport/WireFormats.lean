import AgentPassport.ActionRecord

/-! The three binary layouts of the verifier: the 204-byte action descriptor and the 64-byte
decision are read back as they were written, and the bytes under an event MAC determine the event. -/
namespace AgentPassport.WireFormats
open ByteBlocks DecisionRecord ActionRecord

inductive ActionError where
  | invalidVersion (version : UInt8)
  | invalidRiskClass (riskClass : UInt8)
  | invalidPathDepth (depth : UInt8)
  deriving DecidableEq

section
variable {n : Nat} (b : Block n)

/-- The little-endian integer in the `k` bytes from `off` on. -/
def readLe (off k : Nat) : Nat := ofLe ((b.bytes.drop off).take k)

def readU16Le (off : Nat) : UInt16 := UInt16.ofNat (readLe b off 2)

def readU32Le (off : Nat) : UInt32 := UInt32.ofNat (readLe b off 4)

def readU64Le (off : Nat) : UInt64 := UInt64.ofNat (readLe b off 8)

end

def readPathHashes (b : Block 204) : PathHashes where
  slots := (List.range 8).map (fun i => readU64Le b (108 + i * 8))
  size := by rw [List.length_map, List.length_range]

def readFields (b : Block 204) : ActionDescriptor where
  version := b.bytes.getD 0 0
  reserved := b.slice 1 3 (by omega)
  passportIdHash := b.slice 4 32 (by omega)
  toolDescriptorHash := b.slice 36 32 (by omega)
  localToolId := readU32Le b 68
  operationId := readU16Le b 72
  resourceType := readU16Le b 74
  riskClass := b.bytes.getD 76 0
  resourcePathDepth := b.bytes.getD 77 0
  reserved2 := b.slice 78 2 (by omega)
  costUnits := readU32Le b 80
  sequenceId := readU64Le b 84
  nonce := b.slice 92 16 (by omega)
  resourcePathHashes := readPathHashes b
  actionHash := b.slice 172 32 (by omega)

/-- Only the format is validated; the hash is carried unchecked. -/
def ActionDescriptor.fromBytes (b : Block 204) : Except ActionError ActionDescriptor :=
  if b.bytes.getD 0 0 ≠ 1 then .error (.invalidVersion (b.bytes.getD 0 0))
  else if b.bytes.getD 76 0 > 4 then .error (.invalidRiskClass (b.bytes.getD 76 0))
  else if b.bytes.getD 77 0 > 8 then .error (.invalidPathDepth (b.bytes.getD 77 0))
  else .ok (readFields b)

theorem toBytes_length (a : ActionDescriptor) : a.toBytes.length = 204 := by
  rw [ActionDescriptor.toBytes, List.length_append, hashedBytes_length, a.actionHash.size]

/-- What `to_bytes` returns, as an array. -/
def wire (a : ActionDescriptor) : Block 204 := ⟨a.toBytes, toBytes_length a⟩

/-- The descriptors the format admits. -/
structure Admitted (a : ActionDescriptor) : Prop where
  version : a.version = 1
  riskClass : a.riskClass ≤ 4
  depth : a.resourcePathDepth ≤ 8

theorem take_drop_append {c u v : List UInt8} {i k : Nat} (hi : u.length = i) (hk : c.length = k) :
    ((u ++ (c ++ v)).drop i).take k = c := by
  subst hi hk
  rw [List.drop_left, List.take_left]

theorem slots_length (l : List UInt64) : (l.flatMap (fun h => toLe 8 h.toNat)).length = 8 * l.length := by
  induction l with
  | nil => rfl
  | cons x xs ih =>
    rw [List.flatMap_cons, List.length_append, ih, toLe_length, List.length_cons]
    omega

theorem read_slots (l : List UInt64) (u v : List UInt8) :
    (List.range l.length).map (fun i =>
      UInt64.ofNat (ofLe (((u ++ (l.flatMap (fun h => toLe 8 h.toNat) ++ v)).drop (u.length + i * 8)).take 8))) = l := by
  induction l generalizing u with
  | nil => rfl
  | cons x xs ih =>
    have hfirst : ((u ++ ((x :: xs).flatMap (fun h => toLe 8 h.toNat) ++ v)).drop (u.length + 0 * 8)).take 8 =
        toLe 8 x.toNat := by
      rw [List.flatMap_cons, List.append_assoc]
      exact take_drop_append (by omega) (toLe_length 8 _)
    have hrest := ih (u ++ toLe 8 x.toNat)
    rw [List.length_append, toLe_length] at hrest
    rw [List.length_cons, List.range_succ_eq_map, List.map_cons, List.map_map, hfirst, ofLe_u64]
    congr 1
    refine Eq.trans (List.map_congr_left ?_) hrest
    intro i _
    have hoff : u.length + (i + 1) * 8 = u.length + 8 + i * 8 := by omega
    simp only [Function.comp_apply, Nat.succ_eq_add_one, hoff, List.flatMap_cons, List.append_assoc]

theorem slots_of_bytes (m : Nat) (bytes : List UInt8) (h : bytes.length = 8 * m) :
    (List.range m).flatMap (fun i => (bytes.drop (i * 8)).take 8) = bytes := by
  induction m generalizing bytes with
  | zero =>
    have hnil : bytes = [] := List.length_eq_zero_iff.mp h
    rw [hnil]
    rfl
  | succ m ih =>
    have hrest := ih (bytes.drop 8) (by rw [List.length_drop]; omega)
    rw [List.range_succ_eq_map, List.flatMap_cons, List.flatMap_map, Nat.zero_mul, List.drop_zero]
    calc bytes.take 8 ++ (List.range m).flatMap (fun i => (bytes.drop ((i + 1) * 8)).take 8)
        = bytes.take 8 ++ (List.range m).flatMap (fun i => ((bytes.drop 8).drop (i * 8)).take 8) := by
          simp only [List.drop_drop, Nat.succ_mul, Nat.add_comm]
      _ = bytes.take 8 ++ bytes.drop 8 := by rw [hrest]
      _ = bytes := List.take_append_drop 8 bytes

theorem ofLe_u16 (v : UInt16) : UInt16.ofNat (ofLe (toLe 2 v.toNat)) = v := by
  rw [ofLe_toLe 2 v.toNat (by simpa using v.toNat_lt)]
  exact UInt16.ofNat_toNat

theorem take_drop_flatten {segs : List (List UInt8)} {k : Nat} {c : List UInt8} (h : segs[k]? = some c) :
    ((segs.flatten).drop ((segs.map List.length).take k).sum).take c.length = c := by
  induction segs generalizing k with
  | nil => cases h
  | cons x xs ih =>
    cases k with
    | zero =>
      cases h
      rw [List.flatten_cons]
      exact List.take_left
    | succ k =>
      rw [List.map_cons, List.take_succ_cons, List.sum_cons, List.flatten_cons, ← List.drop_drop, List.drop_left]
      exact ih h

section
variable (a : ActionDescriptor)

def segments : List (List UInt8) :=
  [[a.version], a.reserved.bytes, a.passportIdHash.bytes, a.toolDescriptorHash.bytes, toLe 4 a.localToolId.toNat,
    toLe 2 a.operationId.toNat, toLe 2 a.resourceType.toNat, [a.riskClass, a.resourcePathDepth], a.reserved2.bytes,
    toLe 4 a.costUnits.toNat, toLe 8 a.sequenceId.toNat, a.nonce.bytes,
    a.resourcePathHashes.slots.flatMap (fun h => toLe 8 h.toNat), a.actionHash.bytes]

theorem wire_segments : (wire a).bytes = (segments a).flatten := by
  simp only [wire, ActionDescriptor.toBytes, ActionDescriptor.hashedBytes, segments, List.flatten_cons, List.flatten_nil,
    List.append_nil, List.append_assoc]

theorem segments_lengths : (segments a).map List.length = [1, 3, 32, 32, 4, 2, 2, 2, 2, 4, 8, 16, 64, 32] := by
  simp only [segments, List.map_cons, List.map_nil, slots_length, a.resourcePathHashes.size, Block.length_bytes,
    toLe_length, List.length_cons, List.length_nil]

theorem wire_field {k : Nat} {c : List UInt8} (h : (segments a)[k]? = some c) :
    ((wire a).bytes.drop (([1, 3, 32, 32, 4, 2, 2, 2, 2, 4, 8, 16, 64, 32] : List Nat).take k).sum).take c.length =
      c := by
  rw [wire_segments, ← segments_lengths a]
  exact take_drop_flatten h

theorem wire_slice {k i n : Nat} {c : Block n} (h : (segments a)[k]? = some c.bytes)
    (hi : (([1, 3, 32, 32, 4, 2, 2, 2, 2, 4, 8, 16, 64, 32] : List Nat).take k).sum = i) (hin : i + n ≤ 204) :
    (wire a).slice i n hin = c := by
  apply Block.ext_bytes
  have hfield := wire_field a h
  rw [hi, c.size] at hfield
  exact hfield

theorem wire_readLe {k i n v : Nat} (h : (segments a)[k]? = some (toLe n v))
    (hi : (([1, 3, 32, 32, 4, 2, 2, 2, 2, 4, 8, 16, 64, 32] : List Nat).take k).sum = i) :
    readLe (wire a) i n = ofLe (toLe n v) := by
  have hfield := wire_field a h
  rw [hi, toLe_length] at hfield
  rw [readLe, hfield]

theorem getD_of_take_drop {bytes : List UInt8} {i : Nat} {x y : UInt8} (h : (bytes.drop i).take 2 = [x, y]) :
    bytes.getD i 0 = x ∧ bytes.getD (i + 1) 0 = y := by
  have hx : ((bytes.drop i).take 2)[0]? = some x := by rw [h]; rfl
  have hy : ((bytes.drop i).take 2)[1]? = some y := by rw [h]; rfl
  rw [List.getElem?_take_of_lt (by decide), List.getElem?_drop] at hx hy
  rw [List.getD_eq_getElem?_getD, List.getD_eq_getElem?_getD, ← Nat.add_zero i, hx, hy]
  exact ⟨rfl, rfl⟩

theorem wire_version : (wire a).bytes.getD 0 0 = a.version := by
  rw [wire_segments]
  rfl

theorem wire_riskClass : (wire a).bytes.getD 76 0 = a.riskClass := (getD_of_take_drop (wire_field a (k := 7) rfl)).1

theorem wire_depth : (wire a).bytes.getD 77 0 = a.resourcePathDepth :=
  (getD_of_take_drop (wire_field a (k := 7) rfl)).2

theorem wire_pathHashes : readPathHashes (wire a) = a.resourcePathHashes := by
  have hslots := read_slots a.resourcePathHashes.slots ((segments a).take 12).flatten a.actionHash.bytes
  have hlength : ((segments a).take 12).flatten.length = 108 := by simp [segments]
  have hbytes : (wire a).bytes = ((segments a).take 12).flatten ++
      (a.resourcePathHashes.slots.flatMap (fun h => toLe 8 h.toNat) ++ a.actionHash.bytes) := by
    rw [wire_segments]
    simp [segments]
  rw [hlength, ← hbytes, a.resourcePathHashes.size] at hslots
  generalize a.resourcePathHashes = hashes at hslots
  obtain ⟨slots, hsize⟩ := hashes
  cases hslots
  rfl

theorem readFields_wire : readFields (wire a) = a := by
  rw [readFields, wire_version, wire_riskClass, wire_depth, wire_pathHashes,
    wire_slice a (k := 1) (i := 1) (c := a.reserved) rfl rfl,
    wire_slice a (k := 2) (i := 4) (c := a.passportIdHash) rfl rfl,
    wire_slice a (k := 3) (i := 36) (c := a.toolDescriptorHash) rfl rfl,
    wire_slice a (k := 8) (i := 78) (c := a.reserved2) rfl rfl,
    wire_slice a (k := 11) (i := 92) (c := a.nonce) rfl rfl,
    wire_slice a (k := 13) (i := 172) (c := a.actionHash) rfl rfl,
    readU32Le, wire_readLe a (k := 4) (i := 68) rfl rfl, ofLe_u32,
    readU16Le, wire_readLe a (k := 5) (i := 72) rfl rfl, ofLe_u16,
    readU16Le, wire_readLe a (k := 6) (i := 74) rfl rfl, ofLe_u16,
    readU32Le, wire_readLe a (k := 9) (i := 80) rfl rfl, ofLe_u32,
    readU64Le, wire_readLe a (k := 10) (i := 84) rfl rfl, ofLe_u64]

theorem fromBytes_wire : (Admitted a → ActionDescriptor.fromBytes (wire a) = .ok a) ∧
    (¬ Admitted a → ∃ e, ActionDescriptor.fromBytes (wire a) = .error e) := by
  rw [ActionDescriptor.fromBytes, wire_version, wire_riskClass, wire_depth, readFields_wire]
  constructor
  · intro h
    rw [if_neg (not_not.mpr h.version), if_neg (UInt8.not_lt.mpr h.riskClass), if_neg (UInt8.not_lt.mpr h.depth)]
  · intro h
    split
    · exact ⟨_, rfl⟩
    · split
      · exact ⟨_, rfl⟩
      · split
        · exact ⟨_, rfl⟩
        · rename_i hv hr hd
          exact absurd ⟨not_not.mp hv, UInt8.not_lt.mp hr, UInt8.not_lt.mp hd⟩ h

end

def pieces (bytes : List UInt8) : Nat → List Nat → List (List UInt8)
  | _, [] => []
  | off, n :: ns => (bytes.drop off).take n :: pieces bytes (off + n) ns

theorem flatten_pieces (bytes : List UInt8) (off : Nat) (ns : List Nat) :
    (pieces bytes off ns).flatten = (bytes.drop off).take ns.sum := by
  induction ns generalizing off with
  | nil => rfl
  | cons n ns ih =>
    rw [pieces, List.flatten_cons, ih, List.sum_cons, List.take_add, List.drop_drop]

theorem toLe_readLe {n : Nat} (b : Block n) {off k : Nat} (h : off + k ≤ n) :
    toLe k (readLe b off k) = (b.bytes.drop off).take k ∧ readLe b off k < 256 ^ k := by
  have hslice := toLe_ofLe (b.slice off k h).bytes
  have hlt := ofLe_lt (b.slice off k h).bytes
  rw [Block.length_bytes] at hslice hlt
  exact ⟨hslice, hlt⟩

section
variable (b : Block 204)

theorem toLe_readU16 {off : Nat} (h : off + 2 ≤ 204) : toLe 2 (readU16Le b off).toNat = (b.bytes.drop off).take 2 := by
  obtain ⟨heq, hlt⟩ := toLe_readLe b h
  rw [readU16Le, UInt16.toNat_ofNat_of_lt' hlt, heq]

theorem toLe_readU32 {off : Nat} (h : off + 4 ≤ 204) : toLe 4 (readU32Le b off).toNat = (b.bytes.drop off).take 4 := by
  obtain ⟨heq, hlt⟩ := toLe_readLe b h
  rw [readU32Le, UInt32.toNat_ofNat_of_lt' hlt, heq]

theorem toLe_readU64 {off : Nat} (h : off + 8 ≤ 204) : toLe 8 (readU64Le b off).toNat = (b.bytes.drop off).take 8 := by
  obtain ⟨heq, hlt⟩ := toLe_readLe b h
  rw [readU64Le, UInt64.toNat_ofNat_of_lt' hlt, heq]

theorem slots_readPathHashes :
    (readPathHashes b).slots.flatMap (fun h => toLe 8 h.toNat) = (b.bytes.drop 108).take 64 := by
  have hblocks := slots_of_bytes 8 ((b.bytes.drop 108).take 64) (by simp)
  rw [readPathHashes, List.flatMap_map, ← hblocks, List.flatMap_def, List.flatMap_def]
  congr 1
  apply List.map_congr_left
  intro i hi
  have hlt := List.mem_range.mp hi
  rw [toLe_readU64 b (by omega), List.drop_take, List.take_take, List.drop_drop, Nat.min_eq_left (by omega)]

theorem take_two {bytes : List UInt8} {i : Nat} (h : i + 2 ≤ bytes.length) :
    (bytes.drop i).take 2 = [bytes.getD i 0, bytes.getD (i + 1) 0] := by
  rw [List.drop_eq_getElem_cons (by omega), List.drop_eq_getElem_cons (by omega), List.take_succ_cons,
    List.take_succ_cons, List.take_zero]
  simp [List.getD_eq_getElem?_getD, show i < bytes.length by omega, show i + 1 < bytes.length by omega]

theorem take_one {bytes : List UInt8} {i : Nat} (h : i + 1 ≤ bytes.length) :
    (bytes.drop i).take 1 = [bytes.getD i 0] := by
  rw [List.drop_eq_getElem_cons (by omega), List.take_succ_cons, List.take_zero]
  simp [List.getD_eq_getElem?_getD, show i < bytes.length by omega]

theorem segments_readFields :
    segments (readFields b) = pieces b.bytes 0 [1, 3, 32, 32, 4, 2, 2, 2, 2, 4, 8, 16, 64, 32] := by
  simp only [segments, readFields, pieces, toLe_readU16 b (show 72 + 2 ≤ 204 by decide),
    toLe_readU16 b (show 74 + 2 ≤ 204 by decide), toLe_readU32 b (show 68 + 4 ≤ 204 by decide),
    toLe_readU32 b (show 80 + 4 ≤ 204 by decide), toLe_readU64 b (show 84 + 8 ≤ 204 by decide), slots_readPathHashes,
    ← take_one (show 0 + 1 ≤ b.bytes.length by rw [b.size]; decide),
    ← take_two (show 76 + 2 ≤ b.bytes.length by rw [b.size]; decide)]
  rfl

theorem wire_readFields : wire (readFields b) = b := by
  apply Block.ext_bytes
  rw [wire_segments, segments_readFields, flatten_pieces, List.drop_zero]
  exact List.take_of_length_le (by rw [b.size]; decide)

theorem wire_fromBytes {a : ActionDescriptor} (h : ActionDescriptor.fromBytes b = .ok a) : wire a = b := by
  rw [ActionDescriptor.fromBytes] at h
  split at h
  · cases h
  · split at h
    · cases h
    · split at h
      · cases h
      · cases h
        exact wire_readFields b

end

theorem decisionType_inj {t t' : DecisionType} (h : t.toU8 = t'.toU8) : t = t' := by
  have hread := DecisionType.fromU8_toU8 t
  rw [h, DecisionType.fromU8_toU8] at hread
  exact (Except.ok.inj hread).symm

theorem reasonCode_inj {r r' : ReasonCode} (h : r.toU8 = r'.toU8) : r = r' := by
  have hread := ReasonCode.fromU8_toU8 r
  rw [h, ReasonCode.fromU8_toU8] at hread
  exact (Except.ok.inj hread).symm

theorem u64_inj {v v' : UInt64} (h : toLe 8 v.toNat = toLe 8 v'.toNat) : v = v' := by
  rw [← ofLe_u64 v, h, ofLe_u64]

/-- What an event MAC covers. -/
structure SameEvent (d d' : Decision) (passport passport' action action' : Block 32) (timestamp timestamp' : UInt64) :
    Prop where
  passport : passport = passport'
  action : action = action'
  sequenceId : d.sequenceId = d'.sequenceId
  decisionType : d.decisionType = d'.decisionType
  reasonCode : d.reasonCode = d'.reasonCode
  decisionId : d.decisionId = d'.decisionId
  timestamp : timestamp = timestamp'

theorem packCanonicalEvent_inj {d d' : Decision} {passport passport' action action' : Block 32}
    {timestamp timestamp' : UInt64}
    (h : packCanonicalEvent d passport action timestamp = packCanonicalEvent d' passport' action' timestamp') :
    SameEvent d d' passport passport' action action' timestamp timestamp' := by
  rw [packCanonicalEvent, packCanonicalEvent] at h
  obtain ⟨h, htime⟩ := List.append_inj' h (by rw [toLe_length, toLe_length])
  obtain ⟨h, hid⟩ := List.append_inj' h (by rw [d.decisionId.size, d'.decisionId.size])
  obtain ⟨h, hcodes⟩ := List.append_inj' h rfl
  obtain ⟨h, hsequence⟩ := List.append_inj' h (by rw [toLe_length, toLe_length])
  obtain ⟨hpassport, haction⟩ := List.append_inj' h (by rw [action.size, action'.size])
  obtain ⟨htype, hreason⟩ := List.cons.inj hcodes
  exact {
    passport := Block.ext_bytes hpassport
    action := Block.ext_bytes haction
    sequenceId := u64_inj hsequence
    decisionType := decisionType_inj htype
    reasonCode := reasonCode_inj (List.cons.inj hreason).1
    decisionId := Block.ext_bytes hid
    timestamp := u64_inj htime }

/-- The descriptor and the decision survive their wire forms, nothing else is accepted, and two
events share the bytes under the MAC only if they are one event. -/
theorem wire_formats :
    (∀ a, Admitted a → ActionDescriptor.fromBytes (wire a) = .ok a) ∧
    (∀ a, ¬ Admitted a → ∃ e, ActionDescriptor.fromBytes (wire a) = .error e) ∧
    (∀ b a, ActionDescriptor.fromBytes b = .ok a → wire a = b) ∧
    (∀ d : Decision, Decision.fromBytes d.toBytes = .ok { d with timestampUnixNs := 0 }) ∧
    (∀ b d, Decision.fromBytes b = .ok d → d.toBytes = b) ∧
    ∀ d d' passport passport' action action' timestamp timestamp',
      packCanonicalEvent d passport action timestamp = packCanonicalEvent d' passport' action' timestamp' →
      SameEvent d d' passport passport' action action' timestamp timestamp' := by
  refine ⟨?_, ?_, ?_, ?_, ?_, ?_⟩
  · exact fun a => (fromBytes_wire a).1
  · exact fun a => (fromBytes_wire a).2
  · exact fun b a h => wire_fromBytes b h
  · exact Decision.fromBytes_toBytes
  · exact fun b d h => Decision.toBytes_fromBytes h
  · exact fun d d' passport passport' action action' timestamp timestamp' h => packCanonicalEvent_inj h

def boundaryAction : ActionDescriptor where
  version := 1
  reserved := ⟨[1, 2, 3], rfl⟩
  passportIdHash := Block.fill 32 0x11
  toolDescriptorHash := Block.fill 32 0x22
  localToolId := 0x01020304
  operationId := 0x0506
  resourceType := 0x0708
  riskClass := 4
  resourcePathDepth := 8
  reserved2 := ⟨[9, 10], rfl⟩
  costUnits := 0xFFFFFFFF
  sequenceId := 0x0102030405060708
  nonce := Block.fill 16 0x33
  resourcePathHashes := ⟨[1, 2, 3, 4, 5, 6, 7, 0xFFFFFFFFFFFFFFFF], rfl⟩
  actionHash := Block.fill 32 0x44

theorem wire_formats_boundary :
    ActionDescriptor.fromBytes (wire boundaryAction) = .ok boundaryAction ∧
    ∃ e, ActionDescriptor.fromBytes (wire { boundaryAction with riskClass := 5 }) = .error e :=
  ⟨wire_formats.1 boundaryAction ⟨rfl, by decide, by decide⟩,
    wire_formats.2.1 { boundaryAction with riskClass := 5 } (fun h => absurd h.riskClass (by decide))⟩

end AgentPassport.WireFormats
