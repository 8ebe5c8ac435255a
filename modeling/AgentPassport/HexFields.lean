import AgentPassport.CompiledAuthority
import AgentPassport.ApprovalGrammar

/-! The hash and signature fields of a passport (`parse_blake3_field` and `decode_hash_field` of `compiled.rs`,
`decode_signature` of `passport.rs`): which texts they read, and as which bytes. `get` on a `str` returns nothing where
an index would panic, so every failure is a value. -/
namespace AgentPassport.HexFields
open ByteBlocks ResourceTrie CompiledAuthority ApprovalRules ApprovalGrammar

/-- `PassportError::SignatureDecode`. -/
structure SignatureDecode where
  message : Formatted

theorem block_length {n : Nat} {hex out : List UInt8} (h : decodeHexPairs hex = .ok out) (hl : hex.length = 2 * n) :
    out.length = n := by
  have hpairs := decodeHexPairs_length hex out h
  omega

/-- The chunk loop into an array of `n` bytes. -/
def decodeHexBlock (n : Nat) (hex : List UInt8) : Except HexFailure (Block n) :=
  match h : decodeHexPairs hex with
  | .error e => .error e
  | .ok out =>
    if hl : hex.length = 2 * n then .ok ⟨out, block_length h hl⟩
    else .error .slice

def decodeSignature (sig : String) : Except SignatureDecode (Block 64) :=
  let hex := utf8 (match splitOnceColon sig with | some (_, rest) => rest | none => sig.toList)
  if hex.length ≠ 128 then .error ⟨⟨"expected 128 hex chars (64-byte signature), got " ++ toString hex.length, none⟩⟩
  else match decodeHexBlock 64 hex with
    | .ok b => .ok b
    | .error .slice => .error ⟨⟨"hex slice failed", none⟩⟩
    | .error .digit => .error ⟨⟨"non-hex character in ", some sig⟩⟩

def isHexDigit (c : Char) : Bool := ('0' ≤ c && c ≤ '9') || ('a' ≤ c && c ≤ 'f') || ('A' ≤ c && c ≤ 'F')

def IsHex (n : Nat) (text : List Char) : Prop := text.length = n ∧ ∀ c ∈ text, isHexDigit c = true

def lowerHex (bytes : List UInt8) : List Char :=
  bytes.flatMap (fun b => [hexDigit (b.toNat / 16), hexDigit (b.toNat % 16)])

def afterColon (s : String) : Option (List Char) := (splitOnceColon s).map Prod.snd

/-- What follows the first colon, or the whole text. -/
def fieldBody (s : String) : List Char := (afterColon s).getD s.toList

/-- A text is read when it is the digits of `n` bytes, and as the bytes it writes. -/
structure ExactHex {n : Nat} (decoded : Option (Block n)) (body : Option (List Char)) : Prop where
  succeeds : decoded.isSome = true ↔ ∃ text, body = some text ∧ IsHex (2 * n) text
  reencodes : ∀ b, decoded = some b → ∃ text, body = some text ∧ lowerHex b.bytes = text.map Char.toLower

def zeroSign (c : Char) : Char := if c = '+' then '0' else c

/-- Plus signs that begin a pair become zeros. -/
def zeroSigns : List Char → List Char
  | hi :: lo :: rest => zeroSign hi :: lo :: zeroSigns rest
  | text => text

/-- No plus sign stands where a digit begins a pair of an otherwise hexadecimal text. -/
def NoSignedPair (n : Nat) (body : Option (List Char)) : Prop :=
  ∀ text, body = some text → IsHex (2 * n) (zeroSigns text) → IsHex (2 * n) text

variable {c : Char}

theorem isHexDigit_low (h : isHexDigit c = true) : c.toNat < 0x80 := by
  simp only [isHexDigit, Bool.or_eq_true, Bool.and_eq_true, decide_eq_true_eq, Char.le_def, UInt32.le_iff_toNat_le] at h
  have hval : c.toNat = c.val.toNat := rfl
  have hnine : '9'.val.toNat = 0x39 := rfl
  have hf : 'f'.val.toNat = 0x66 := rfl
  have hF : 'F'.val.toNat = 0x46 := rfl
  omega

theorem hexValue_byteOf (hc : c.toNat < 0x80) : (hexValue (byteOf c)).map (fun v => (decide (v < 16), hexDigit v)) =
      if isHexDigit c then some (true, c.toLower) else none := by
  have hall : ∀ n < 0x80, (hexValue (byteOf (Char.ofNat n))).map (fun v => (decide (v < 16), hexDigit v)) =
      if isHexDigit (Char.ofNat n) then some (true, (Char.ofNat n).toLower) else none := by decide
  have h := hall c.toNat hc
  rwa [Char.ofNat_toNat] at h

theorem hexValue_digit (h : isHexDigit c = true) :
    ∃ v, hexValue (byteOf c) = some v ∧ v < 16 ∧ hexDigit v = c.toLower := by
  have hvalue := hexValue_byteOf (isHexDigit_low h)
  rw [if_pos h] at hvalue
  obtain ⟨v, hv, heq⟩ := Option.map_eq_some_iff.mp hvalue
  obtain ⟨hlt, hdigit⟩ := Prod.mk.inj heq
  exact ⟨v, hv, of_decide_eq_true hlt, hdigit⟩

theorem isHexDigit_of_value (hc : c.toNat < 0x80) (h : (hexValue (byteOf c)).isSome = true) : isHexDigit c = true := by
  have hvalue := hexValue_byteOf hc
  by_contra hnot
  rw [if_neg hnot, Option.map_eq_none_iff] at hvalue
  rw [hvalue] at h
  cases h

theorem hexValue_high {b : UInt8} (hb : 0x80 ≤ b.toNat) : hexValue b = none := by
  have h : ∀ c : UInt8, c.toNat ≤ 0x66 → ¬ b ≤ c := by
    intro c hc hle
    have := UInt8.le_iff_toNat_le.mp hle
    omega
  rw [hexValue, if_neg (fun hr => h _ (by decide) hr.2), if_neg (fun hr => h _ (by decide) hr.2),
    if_neg (fun hr => h _ (by decide) hr.2)]

theorem radix_some {hi lo b : UInt8} (h : u8FromStrRadix16 hi lo = some b) :
    (hi = 0x2B ∨ (hexValue hi).isSome = true) ∧ (hexValue lo).isSome = true := by
  unfold u8FromStrRadix16 at h
  cases hlo : hexValue lo with
  | none =>
    rw [hlo] at h
    cases h
  | some l =>
    rw [hlo] at h
    dsimp only at h
    split at h
    · rename_i hplus
      exact ⟨.inl hplus, rfl⟩
    · cases hhi : hexValue hi with
      | none =>
        rw [hhi] at h
        cases h
      | some d => exact ⟨.inr rfl, rfl⟩

theorem radix_pair {hi lo : Char} (hhi : isHexDigit (zeroSign hi) = true) (hlo : isHexDigit lo = true) :
    ∃ b, u8FromStrRadix16 (byteOf hi) (byteOf lo) = some b ∧
      [hexDigit (b.toNat / 16), hexDigit (b.toNat % 16)] = [(zeroSign hi).toLower, lo.toLower] := by
  obtain ⟨l, hl, hllt, hldigit⟩ := hexValue_digit hlo
  by_cases hplus : hi = '+'
  · subst hplus
    have hnat : (UInt8.ofNat l).toNat = l := by
      rw [UInt8.toNat_ofNat']
      omega
    have hsign : byteOf '+' = 0x2B := rfl
    refine ⟨UInt8.ofNat l, ?_, ?_⟩
    · rw [u8FromStrRadix16, hl, hsign]
      exact if_pos rfl
    · rw [hnat, Nat.div_eq_of_lt hllt, Nat.mod_eq_of_lt hllt, hldigit]
      rfl
  · have hzero : zeroSign hi = hi := if_neg hplus
    rw [hzero] at hhi ⊢
    obtain ⟨d, hd, hdlt, hddigit⟩ := hexValue_digit hhi
    have hnat : (UInt8.ofNat (16 * d + l)).toNat = 16 * d + l := by
      rw [UInt8.toNat_ofNat']
      omega
    have hsign : byteOf hi ≠ 0x2B := by
      intro heq
      rw [heq] at hd
      cases hd
    refine ⟨UInt8.ofNat (16 * d + l), ?_, ?_⟩
    · rw [u8FromStrRadix16, hl]
      dsimp only
      rw [if_neg hsign, hd]
      rfl
    · have hquot : (16 * d + l) / 16 = d := by omega
      have hrem : (16 * d + l) % 16 = l := by omega
      rw [hnat, hquot, hrem, hddigit, hldigit]

variable {text : List Char}

theorem bytesOf_length (h : ∀ c ∈ text, c.toNat < 0x80) : (bytesOf text).length = text.length := by
  induction text with
  | nil => rfl
  | cons c text ih =>
    obtain ⟨hc, htext⟩ := List.forall_mem_cons.mp h
    rw [bytesOf_cons_low hc, List.length_cons, List.length_cons, ih htext]

theorem zeroSign_low (h : isHexDigit (zeroSign c) = true) : c.toNat < 0x80 := by
  by_cases hplus : c = '+'
  · rw [hplus]
    decide
  · rw [zeroSign, if_neg hplus] at h
    exact isHexDigit_low h

theorem zeroSigns_length (text : List Char) : (zeroSigns text).length = text.length := by
  fun_induction zeroSigns text with
  | case1 hi lo rest ih => rw [List.length_cons, List.length_cons, ih, List.length_cons, List.length_cons]
  | case2 => rfl

theorem zeroSigns_low (h : ∀ c ∈ zeroSigns text, isHexDigit c = true) : ∀ c ∈ text, c.toNat < 0x80 := by
  fun_induction zeroSigns text with
  | case1 hi lo rest ih =>
    obtain ⟨hhi, h⟩ := List.forall_mem_cons.mp h
    obtain ⟨hlo, hrest⟩ := List.forall_mem_cons.mp h
    exact List.forall_mem_cons.mpr ⟨zeroSign_low hhi, List.forall_mem_cons.mpr ⟨isHexDigit_low hlo, ih hrest⟩⟩
  | case2 => exact fun c hc => isHexDigit_low (h c hc)

theorem zeroSigns_hex (h : ∀ c ∈ text, isHexDigit c = true) : zeroSigns text = text := by
  fun_induction zeroSigns text with
  | case1 hi lo rest ih =>
    obtain ⟨hhi, h⟩ := List.forall_mem_cons.mp h
    obtain ⟨hlo, hrest⟩ := List.forall_mem_cons.mp h
    have hplus : hi ≠ '+' := by
      rintro rfl
      exact absurd hhi (by decide)
    rw [ih hrest, zeroSign, if_neg hplus]
  | case2 => rfl

theorem isCharBoundary_low {b : UInt8} (hb : b.toNat < 0x80) : isCharBoundary b = true := by
  have hlow : ¬ (0x80 : UInt8) ≤ b := by
    intro hle
    have := UInt8.le_iff_toNat_le.mp hle
    have hval : (0x80 : UInt8).toNat = 0x80 := rfl
    omega
  rw [isCharBoundary, decide_eq_false hlow]
  rfl

theorem byteOf_boundary (hc : c.toNat < 0x80) : isCharBoundary (byteOf c) = true := by
  refine isCharBoundary_low ?_
  rw [byteOf_toNat hc]
  exact hc

theorem headD_boundary (h : ∀ c ∈ text, c.toNat < 0x80) : isCharBoundary ((bytesOf text).headD 0) = true := by
  cases text with
  | nil => rfl
  | cons c text =>
    have hc := h c List.mem_cons_self
    rw [bytesOf_cons_low hc]
    exact byteOf_boundary hc

theorem decodeHexPairs_some (heven : text.length % 2 = 0) (h : ∀ c ∈ zeroSigns text, isHexDigit c = true) :
    ∃ out, decodeHexPairs (bytesOf text) = .ok out ∧ lowerHex out = (zeroSigns text).map Char.toLower := by
  fun_induction zeroSigns text with
  | case1 hi lo rest ih =>
    obtain ⟨hhi, h⟩ := List.forall_mem_cons.mp h
    obtain ⟨hlo, hrest⟩ := List.forall_mem_cons.mp h
    have heven : rest.length % 2 = 0 := by
      rw [List.length_cons, List.length_cons] at heven
      omega
    obtain ⟨out, hout, hlower⟩ := ih heven hrest
    obtain ⟨b, hb, hdigits⟩ := radix_pair hhi hlo
    refine ⟨b :: out, ?_, ?_⟩
    · rw [bytesOf_cons_low (zeroSign_low hhi), bytesOf_cons_low (isHexDigit_low hlo), decodeHexPairs,
        byteOf_boundary (zeroSign_low hhi), headD_boundary (zeroSigns_low hrest), hb, hout]
      rfl
    · rw [lowerHex, List.flatMap_cons, hdigits]
      show (zeroSign hi).toLower :: lo.toLower :: lowerHex out = _
      rw [hlower]
      rfl
  | case2 text hshort =>
    cases text with
    | nil => exact ⟨[], rfl, rfl⟩
    | cons c rest =>
      cases rest with
      | nil => cases heven
      | cons d rest => exact absurd rfl (hshort c d rest)

theorem decodeHexPairs_high {b : UInt8} (hb : 0x80 ≤ b.toNat) (bytes : List UInt8) :
    ∃ e, decodeHexPairs (b :: bytes) = .error e := by
  cases bytes with
  | nil => exact ⟨.slice, rfl⟩
  | cons lo rest =>
    rw [decodeHexPairs]
    split
    · exact ⟨.slice, rfl⟩
    · cases hradix : u8FromStrRadix16 b lo with
      | none => exact ⟨.digit, rfl⟩
      | some v =>
        obtain ⟨hplus | hvalue, -⟩ := radix_some hradix
        · rw [hplus] at hb
          exact absurd hb (by decide)
        · rw [hexValue_high hb] at hvalue
          cases hvalue

theorem zeroSigns_of_decode {out : List UInt8} (h : decodeHexPairs (bytesOf text) = .ok out) :
    ∀ c ∈ zeroSigns text, isHexDigit c = true := by
  fun_induction zeroSigns text generalizing out with
  | case1 hi lo rest ih =>
    have hhilow : hi.toNat < 0x80 := by
      by_contra hhigh
      obtain ⟨b, bs, hbytes, hb⟩ := bytesOf_cons_high (Nat.not_lt.mp hhigh) (lo :: rest)
      obtain ⟨e, he⟩ := decodeHexPairs_high hb bs
      rw [hbytes, he] at h
      cases h
    rw [bytesOf_cons_low hhilow] at h
    have hlolow : lo.toNat < 0x80 := by
      by_contra hhigh
      obtain ⟨b, bs, hbytes, hb⟩ := bytesOf_cons_high (Nat.not_lt.mp hhigh) rest
      rw [hbytes, decodeHexPairs] at h
      split at h
      · cases h
      · split at h
        · cases h
        · rename_i v hradix
          have hvalue := (radix_some hradix).2
          rw [hexValue_high hb] at hvalue
          cases hvalue
    rw [bytesOf_cons_low hlolow, decodeHexPairs] at h
    split at h
    · cases h
    · split at h
      · cases h
      · rename_i v hradix
        obtain ⟨hhi, hlo⟩ := radix_some hradix
        cases hrest : decodeHexPairs (bytesOf rest) with
        | error e =>
          rw [hrest] at h
          cases h
        | ok tail =>
          have hlo := isHexDigit_of_value hlolow hlo
          refine List.forall_mem_cons.mpr ⟨?_, List.forall_mem_cons.mpr ⟨hlo, ih hrest⟩⟩
          by_cases hplus : hi = '+'
          · rw [hplus]
            decide
          · rw [zeroSign, if_neg hplus]
            obtain hsign | hvalue := hhi
            · refine absurd (Char.toNat_inj.mp ?_) hplus
              rw [← byteOf_toNat hhilow, hsign]
              rfl
            · exact isHexDigit_of_value hhilow hvalue
  | case2 text hshort =>
    cases text with
    | nil => exact List.forall_mem_nil _
    | cons c rest =>
      cases rest with
      | nil =>
        by_cases hc : c.toNat < 0x80
        · rw [bytesOf_cons_low hc] at h
          cases h
        · obtain ⟨b, bs, hbytes, hb⟩ := bytesOf_cons_high (Nat.not_lt.mp hc) []
          obtain ⟨e, he⟩ := decodeHexPairs_high hb bs
          rw [hbytes, he] at h
          cases h
      | cons d rest => exact absurd rfl (hshort c d rest)

variable {n : Nat}

theorem decodeHexBlock_ok {hex : List UInt8} {b : Block n} :
    decodeHexBlock n hex = .ok b ↔ decodeHexPairs hex = .ok b.bytes := by
  unfold decodeHexBlock
  split
  · rename_i e he
    rw [he]
    exact iff_of_false (fun h => by cases h) (fun h => by cases h)
  · rename_i out hout
    have hlength := decodeHexPairs_length hex out hout
    constructor
    · intro h
      split at h
      · cases h
        exact hout
      · cases h
    · intro h
      cases Except.ok.inj (hout.symm.trans h)
      rw [dif_pos (by rw [← hlength, b.size])]

theorem decodeHex32_eq (hex : List UInt8) : decodeHex32 hex = decodeHexBlock 32 hex := rfl

/-- A decoder of `n` bytes reads the texts that are hexadecimal but for signs, and as the bytes they write with zeros
for the signs. -/
structure Reads {n : Nat} (decoded : Option (Block n)) (body : Option (List Char)) : Prop where
  succeeds : decoded.isSome = true ↔ ∃ text, body = some text ∧ IsHex (2 * n) (zeroSigns text)
  reencodes : ∀ b, decoded = some b → ∃ text, body = some text ∧ lowerHex b.bytes = (zeroSigns text).map Char.toLower

theorem reads_of_text {decoded : Option (Block n)} (text : List Char)
    (h : decoded = if (utf8 text).length = 2 * n then (decodeHexBlock n (utf8 text)).toOption else none) :
    Reads decoded (some text) := by
  have hsome : ∀ b, decoded = some b → IsHex (2 * n) (zeroSigns text) ∧
      lowerHex b.bytes = (zeroSigns text).map Char.toLower := by
    intro b hb
    rw [h] at hb
    split at hb
    · rename_i hlength
      cases hblock : decodeHexBlock n (utf8 text) with
      | error e =>
        rw [hblock] at hb
        cases hb
      | ok block =>
        rw [hblock] at hb
        cases hb
        have hpairs := decodeHexBlock_ok.mp hblock
        have hdigits := zeroSigns_of_decode hpairs
        have hchars : (utf8 text).length = text.length := bytesOf_length (zeroSigns_low hdigits)
        refine ⟨⟨by rw [zeroSigns_length, ← hchars, hlength], hdigits⟩, ?_⟩
        obtain ⟨out, hout, hlower⟩ := decodeHexPairs_some (by omega) hdigits
        cases hpairs.symm.trans hout
        exact hlower
    · cases hb
  constructor
  · constructor
    · intro hisSome
      obtain ⟨b, hb⟩ := Option.isSome_iff_exists.mp hisSome
      exact ⟨text, rfl, (hsome b hb).1⟩
    · rintro ⟨text', heq, hlength, hdigits⟩
      cases heq
      rw [zeroSigns_length] at hlength
      have hchars : (utf8 text).length = text.length := bytesOf_length (zeroSigns_low hdigits)
      obtain ⟨out, hout, -⟩ := decodeHexPairs_some (by omega) hdigits
      have hsize := decodeHexPairs_length _ out hout
      have hblock : decodeHexBlock n (utf8 text) = .ok ⟨out, by
          have : (bytesOf text).length = text.length := hchars
          omega⟩ := decodeHexBlock_ok.mpr hout
      rw [h, if_pos (hchars.trans hlength), hblock]
      rfl
  · exact fun b hb => ⟨text, rfl, (hsome b hb).2⟩

theorem Reads.none : Reads (n := n) none none := by
  constructor
  · refine iff_of_false Bool.false_ne_true ?_
    rintro ⟨text, htext, -⟩
    cases htext
  · intro b hb
    cases hb

theorem Reads.exact_iff {decoded : Option (Block n)} {body : Option (List Char)} (h : Reads decoded body) :
    ExactHex decoded body ↔ NoSignedPair n body := by
  constructor
  · intro hexact text hbody hhex
    obtain ⟨text', hbody', hhex'⟩ := hexact.succeeds.mp (h.succeeds.mpr ⟨text, hbody, hhex⟩)
    cases hbody.symm.trans hbody'
    exact hhex'
  · intro hsigns
    constructor
    · rw [h.succeeds]
      constructor
      · rintro ⟨text, hbody, hhex⟩
        exact ⟨text, hbody, hsigns text hbody hhex⟩
      · rintro ⟨text, hbody, hhex⟩
        exact ⟨text, hbody, by rwa [zeroSigns_hex hhex.2]⟩
    · intro b hb
      obtain ⟨text, hbody, hlower⟩ := h.reencodes b hb
      obtain ⟨text', hbody', hhex⟩ := h.succeeds.mp (by rw [hb]; rfl)
      cases hbody.symm.trans hbody'
      rw [zeroSigns_hex (hsigns text hbody hhex).2] at hlower
      exact ⟨text, hbody, hlower⟩

theorem parseBlake3Field_reads (s : String) : Reads (parseBlake3Field s) (afterColon s) := by
  rw [parseBlake3Field, afterColon]
  cases splitOnceColon s with
  | none => exact Reads.none
  | some parts =>
    obtain ⟨front, text⟩ := parts
    refine reads_of_text text ?_
    dsimp only
    rw [← decodeHex32_eq, ite_not]

theorem decodeHashField_eq (s : String) : (decodeHashField s).toOption =
    if (utf8 (fieldBody s)).length = 2 * 32 then (decodeHexBlock 32 (utf8 (fieldBody s))).toOption else none := by
  rw [decodeHashField, fieldBody, afterColon, ← decodeHex32_eq]
  cases splitOnceColon s
  all_goals
    dsimp only [Option.map_none, Option.map_some, Option.getD_none, Option.getD_some]
    rw [ite_not]
    split
    · split <;> simp_all [Except.toOption]
    · rfl

theorem decodeSignature_eq (s : String) : (decodeSignature s).toOption =
    if (utf8 (fieldBody s)).length = 2 * 64 then (decodeHexBlock 64 (utf8 (fieldBody s))).toOption else none := by
  rw [decodeSignature, fieldBody, afterColon]
  cases splitOnceColon s
  all_goals
    dsimp only [Option.map_none, Option.map_some, Option.getD_none, Option.getD_some]
    rw [ite_not]
    split
    · split <;> simp_all [Except.toOption]
    · rfl

/-- Each decoder reads exactly the hexadecimal texts, as the bytes they write, at every text in which no pair of an
otherwise hexadecimal field begins with a plus sign, and at no other. -/
theorem hex_fields_exact_iff (s : String) :
    (ExactHex (parseBlake3Field s) (afterColon s) ↔ NoSignedPair 32 (afterColon s)) ∧
    (ExactHex (decodeHashField s).toOption (some (fieldBody s)) ↔ NoSignedPair 32 (some (fieldBody s))) ∧
    (ExactHex (decodeSignature s).toOption (some (fieldBody s)) ↔ NoSignedPair 64 (some (fieldBody s))) :=
  ⟨(parseBlake3Field_reads s).exact_iff, (reads_of_text _ (decodeHashField_eq s)).exact_iff,
    (reads_of_text _ (decodeSignature_eq s)).exact_iff⟩

/-- A root of sixty-two zeros after a signed digit. -/
def signedRoot : String := String.ofList ('+' :: 'f' :: List.replicate 62 '0')

theorem signed_root_decoded : ¬ ExactHex (decodeHashField signedRoot).toOption (some (fieldBody signedRoot)) := by
  intro h
  obtain ⟨text, hbody, -, hdigits⟩ := h.succeeds.mp (by decide)
  cases hbody
  have hplus := hdigits '+' (by decide)
  exact absurd hplus (by decide)

end AgentPassport.HexFields
