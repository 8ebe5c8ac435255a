import Mathlib.Tactic.Linarith

/-! Byte strings of a fixed length and little-endian integers. Independent of any
record format: a format is a concatenation of blocks, and reading one back is slicing. -/
namespace AgentPassport.ByteBlocks

/-- `[u8; n]`: the length is part of the value, so a short buffer cannot be built. -/
structure Block (n : Nat) where
  bytes : List UInt8
  size : bytes.length = n
  deriving DecidableEq

theorem Block.ext_bytes {n : Nat} {a b : Block n} (h : a.bytes = b.bytes) : a = b := by
  cases a
  cases b
  cases h
  rfl

@[simp] theorem Block.length_bytes {n : Nat} (b : Block n) : b.bytes.length = n := b.size

def Block.fill (n : Nat) (v : UInt8) : Block n := ⟨List.replicate n v, List.length_replicate⟩

def Block.zero (n : Nat) : Block n := Block.fill n 0

/-- `&b[i..i + k]` copied out. -/
def Block.slice {n : Nat} (b : Block n) (i k : Nat) (h : i + k ≤ n) : Block k :=
  ⟨(b.bytes.drop i).take k, by simp only [List.length_take, List.length_drop, b.size]; omega⟩

theorem Block.slice_append {n k i : Nat} (b : Block n) (c : Block k) (u v : List UInt8)
    (h : i + k ≤ n) (hi : u.length = i) (hb : b.bytes = u ++ (c.bytes ++ v)) :
    b.slice i k h = c := by
  apply Block.ext_bytes
  subst hi
  simp [Block.slice, hb]

/-- The low `n` bytes of `v`, least significant first. -/
def toLe : Nat → Nat → List UInt8
  | 0, _ => []
  | n+1, v => UInt8.ofNat v :: toLe n (v / 256)

def ofLe : List UInt8 → Nat
  | [] => 0
  | b :: bs => b.toNat + 256 * ofLe bs

@[simp] theorem toLe_length (n v : Nat) : (toLe n v).length = n := by
  induction n generalizing v with
  | zero => rfl
  | succ n ih => simp [toLe, ih]

theorem ofLe_toLe (n v : Nat) (h : v < 256 ^ n) : ofLe (toLe n v) = v := by
  induction n generalizing v with
  | zero => simp only [pow_zero, Nat.lt_one_iff] at h; simp [toLe, ofLe, h]
  | succ n ih =>
    have hq : v / 256 < 256 ^ n := by
      rw [pow_succ] at h
      omega
    simp only [toLe, ofLe, ih _ hq, UInt8.toNat_ofNat']
    omega

theorem toLe_ofLe (bs : List UInt8) : toLe bs.length (ofLe bs) = bs := by
  induction bs with
  | nil => rfl
  | cons b bs ih =>
    have hb := b.toNat_lt
    have hq : (b.toNat + 256 * ofLe bs) / 256 = ofLe bs := by omega
    have hr : UInt8.ofNat (b.toNat + 256 * ofLe bs) = b := by
      rw [← UInt8.toNat_inj, UInt8.toNat_ofNat']
      omega
    rw [List.length_cons, toLe, ofLe, hq, hr, ih]

theorem Block.slice_drop {n : Nat} (b : Block n) (i k : Nat) (h : i + k ≤ n) :
    (b.slice i k h).bytes ++ b.bytes.drop (i + k) = b.bytes.drop i := by
  rw [Block.slice, ← List.drop_drop, List.take_append_drop]

theorem ofLe_lt (bs : List UInt8) : ofLe bs < 256 ^ bs.length := by
  induction bs with
  | nil => simp [ofLe]
  | cons b bs ih =>
    have hb := b.toNat_lt
    rw [ofLe, List.length_cons, pow_succ]
    omega

def leBlock (n v : Nat) : Block n := ⟨toLe n v, toLe_length n v⟩

@[simp] theorem leBlock_bytes (n v : Nat) : (leBlock n v).bytes = toLe n v := rfl

theorem ofLe_u64 (v : UInt64) : UInt64.ofNat (ofLe (toLe 8 v.toNat)) = v := by
  rw [ofLe_toLe 8 v.toNat (by simpa using v.toNat_lt)]
  exact UInt64.ofNat_toNat

theorem ofLe_u32 (v : UInt32) : UInt32.ofNat (ofLe (toLe 4 v.toNat)) = v := by
  rw [ofLe_toLe 4 v.toNat (by simpa using v.toNat_lt)]
  exact UInt32.ofNat_toNat

end AgentPassport.ByteBlocks
