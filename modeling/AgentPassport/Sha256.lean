import AgentPassport.ByteBlocks
import AgentPassport.DelegationSchema
import AgentPassport.Multibase
import AgentPassport.Utf8

/-! SHA-256 as a function from byte strings to 32 bytes, and digests as hexadecimal texts. -/
namespace AgentPassport.Sha256
open JsText ByteBlocks DelegationSchema Multibase

abbrev Hash := List UInt8 → Block 32

def CollisionFree (sha256 : Hash) (inputs : List (List UInt8)) : Prop :=
  ∀ x ∈ inputs, ∀ y ∈ inputs, sha256 x = sha256 y → x = y

instance (sha256 : Hash) (inputs : List (List UInt8)) : Decidable (CollisionFree sha256 inputs) :=
  inferInstanceAs (Decidable (∀ x ∈ inputs, ∀ y ∈ inputs, sha256 x = sha256 y → x = y))

theorem CollisionFree.mono {sha256 : Hash} {inputs inputs' : List (List UInt8)} (h : CollisionFree sha256 inputs)
    (hsub : ∀ x ∈ inputs', x ∈ inputs) : CollisionFree sha256 inputs' := by
  intro x hx y hy
  exact h x (hsub x hx) y (hsub y hy)

theorem CollisionFree.of_nodup {sha256 : Hash} {inputs : List (List UInt8)} (h : (inputs.map sha256).Nodup) :
    CollisionFree sha256 inputs := by
  intro x hx y hy heq
  exact List.inj_on_of_nodup_map h hx hy heq

/-- `digest('hex')`. -/
def hex (digest : Block 32) : Str := bytesToHex digest.bytes

/-- `Buffer.from(text, 'hex')`, which stops at the first pair that is not hexadecimal. -/
def bufferFromHex : Str → List UInt8
  | a :: b :: rest =>
    match hexDigit a, hexDigit b with
    | some x, some y => UInt8.ofNat (16 * x + y) :: bufferFromHex rest
    | _, _ => []
  | _ => []

/-- A buffer whose length has been checked. -/
def asBlock (bytes : List UInt8) : Option (Block 32) := if h : bytes.length = 32 then some ⟨bytes, h⟩ else none

/-- `/^[0-9a-f]{n}$/i`. -/
def isHexOf (n : Nat) (s : Str) : Bool := s.length = n && s.all isHex

/-- `toLowerCase` on the ASCII letters. Every use compares the result with a text of hexadecimal
digits, and no other character is lowered to one. -/
def toLowerCase (s : Str) : Str := s.map (fun c => if 0x41 ≤ c && c ≤ 0x5A then c + 0x20 else c)

def ascii (s : String) : List UInt8 := s.toByteArray.data.toList

theorem ascii_ofList (l : List Char) : ascii (String.ofList l) = l.flatMap String.utf8EncodeChar := by
  rw [ascii, String.toByteArray_ofList, List.utf8Encode, List.data_toByteArray]

def ofTable (table : List (List UInt8 × Str)) : Hash := fun input =>
  (((table.find? (fun row => row.1 = input)).bind (fun row => asBlock (bufferFromHex row.2)))).getD (Block.zero 32)

theorem ofTable_cons_eq (input : List UInt8) (digest : Str) (table : List (List UInt8 × Str)) :
    ofTable ((input, digest) :: table) input = (asBlock (bufferFromHex digest)).getD (Block.zero 32) := by
  have hfind : ((input, digest) :: table).find? (fun row => row.1 = input) = some (input, digest) :=
    List.find?_cons_of_pos (decide_eq_true rfl)
  rw [ofTable, hfind, Option.bind_some]

theorem ofTable_cons_ne {other input : List UInt8} (h : other ≠ input) (digest : Str) (table : List (List UInt8 × Str)) :
    ofTable ((other, digest) :: table) input = ofTable table input := by
  have hfind : ((other, digest) :: table).find? (fun row => row.1 = input) = table.find? (fun row => row.1 = input) :=
    List.find?_cons_of_neg (by simpa using h)
  rw [ofTable, hfind, ofTable]

theorem hexDigit_hexChar : ∀ n < 16, hexDigit (hexChar n) = some n := by decide

theorem isLowerHex_hexChar : ∀ n < 16, isLowerHex (hexChar n) = true := by decide

theorem bytesToHex_cons (b : UInt8) (bytes : List UInt8) :
    bytesToHex (b :: bytes) = hexChar (b.toNat / 16) :: hexChar (b.toNat % 16) :: bytesToHex bytes := rfl

theorem lower_of_bytesToHex (bytes : List UInt8) : ∀ c ∈ bytesToHex bytes, isLowerHex c = true := by
  induction bytes with
  | nil =>
    intro c hc
    cases hc
  | cons b bytes ih =>
    have hb := b.toNat_lt
    rw [bytesToHex_cons, List.forall_mem_cons, List.forall_mem_cons]
    exact ⟨isLowerHex_hexChar _ (by omega), isLowerHex_hexChar _ (by omega), ih⟩

theorem bufferFromHex_bytesToHex (bytes : List UInt8) : bufferFromHex (bytesToHex bytes) = bytes := by
  induction bytes with
  | nil => rfl
  | cons b bytes ih =>
    have hb := b.toNat_lt
    have hbyte : UInt8.ofNat (16 * (b.toNat / 16) + b.toNat % 16) = b := by
      rw [show 16 * (b.toNat / 16) + b.toNat % 16 = b.toNat by omega, UInt8.ofNat_toNat]
    rw [bytesToHex_cons, bufferFromHex, hexDigit_hexChar _ (by omega), hexDigit_hexChar _ (by omega)]
    simp only [hbyte, ih]

theorem hex_lower (digest : Block 32) : isLowerHexOf 64 (hex digest) = true := by
  rw [isLowerHexOf, hex, bytesToHex_length, digest.size, Bool.and_eq_true, List.all_eq_true]
  exact ⟨rfl, lower_of_bytesToHex digest.bytes⟩

theorem isHexOf_of_lower {n : Nat} {s : Str} (h : isLowerHexOf n s = true) : isHexOf n s = true := by
  rw [isLowerHexOf, Bool.and_eq_true, List.all_eq_true] at h
  rw [isHexOf, Bool.and_eq_true, List.all_eq_true]
  refine ⟨h.1, ?_⟩
  intro c hc
  rw [isHex, h.2 c hc]
  rfl

theorem asBlock_bytes (digest : Block 32) : asBlock digest.bytes = some digest := dif_pos digest.size

theorem asBlock_hex (digest : Block 32) : asBlock (bufferFromHex (hex digest)) = some digest := by
  rw [hex, bufferFromHex_bytesToHex, asBlock_bytes]

theorem hex_inj {a b : Block 32} (h : hex a = hex b) : a = b := by
  have hbytes := congrArg bufferFromHex h
  rw [hex, hex, bufferFromHex_bytesToHex, bufferFromHex_bytesToHex] at hbytes
  exact Block.ext_bytes hbytes

theorem toLowerCase_lower {s : Str} (h : ∀ c ∈ s, isLowerHex c = true) : toLowerCase s = s := by
  rw [toLowerCase]
  conv_rhs => rw [← List.map_id s]
  apply List.map_congr_left
  intro c hc
  have hlower := h c hc
  simp only [isLowerHex, isDigit, Bool.or_eq_true, Bool.and_eq_true, decide_eq_true_eq,
    UInt16.le_iff_toNat_le] at hlower
  simp only [Bool.and_eq_true, decide_eq_true_eq, UInt16.le_iff_toNat_le]
  rw [if_neg]
  · rfl
  · rintro ⟨hlo, hhi⟩
    have hlo : 65 ≤ c.toNat := hlo
    have hhi : c.toNat ≤ 90 := hhi
    obtain ⟨-, hend⟩ | ⟨hstart, -⟩ := hlower
    · have hend : c.toNat ≤ 57 := hend
      omega
    · have hstart : 97 ≤ c.toNat := hstart
      omega

theorem toLowerCase_digits {s : Str} (h : ∀ c ∈ s, isHex c = true) : ∀ c ∈ toLowerCase s, isLowerHex c = true := by
  intro c hc
  obtain ⟨d, hd, rfl⟩ := List.mem_map.mp hc
  have hhex := h d hd
  rw [isHex, Bool.or_eq_true] at hhex
  obtain hlower | hupper := hhex
  · have hsame := toLowerCase_lower (s := [d]) (by simpa using hlower)
    rw [toLowerCase, List.map_singleton, List.singleton_inj] at hsame
    rw [hsame, hlower]
  · have hall : ∀ n < 6, isLowerHex (UInt16.ofNat (0x41 + n) + 0x20) = true := by decide
    simp only [Bool.and_eq_true, decide_eq_true_eq, UInt16.le_iff_toNat_le] at hupper
    obtain ⟨hlo, hhi⟩ := hupper
    have hlo : 65 ≤ d.toNat := hlo
    have hhi : d.toNat ≤ 70 := hhi
    have hletter : (0x41 ≤ d && d ≤ 0x5A) = true := by
      simp only [Bool.and_eq_true, decide_eq_true_eq, UInt16.le_iff_toNat_le]
      exact ⟨hlo, hhi.trans (by decide)⟩
    have hdigit := hall (d.toNat - 65) (by omega)
    rw [show 0x41 + (d.toNat - 65) = d.toNat by omega, UInt16.ofNat_toNat] at hdigit
    rw [if_pos hletter, hdigit]

theorem toLowerCase_of_hex {n : Nat} {s : Str} (h : isLowerHexOf n s = true) : toLowerCase s = s := by
  rw [isLowerHexOf, Bool.and_eq_true, List.all_eq_true] at h
  exact toLowerCase_lower h.2

@[simp] theorem toLowerCase_hex (digest : Block 32) : toLowerCase (hex digest) = hex digest :=
  toLowerCase_of_hex (hex_lower digest)

theorem exists_hex {s : Str} (h : isLowerHexOf 64 s = true) : ∃ digest, s = hex digest := by
  rw [isLowerHexOf, Bool.and_eq_true, List.all_eq_true, decide_eq_true_eq] at h
  obtain ⟨hlength, hlower⟩ := h
  have hround := bytesToHex_hexToBytes s (by omega) hlower
  have hsize : (hexToBytes s).length = 32 := by
    have hcount := bytesToHex_length (hexToBytes s)
    rw [hround] at hcount
    omega
  exact ⟨⟨hexToBytes s, hsize⟩, hround.symm⟩

end AgentPassport.Sha256
