import AgentPassport.BitStrings
import AgentPassport.JsArithmetic
import AgentPassport.Sha256

/-! Word handles (`v2/word_handles/codec.ts`): the first bits of a digest as words of a lexicon, eleven
bits a word, followed by one or two checksum words. -/
namespace AgentPassport.WordHandles
open JsText Js BitStrings Sha256 Multibase

def WORD_BITS : Nat := 11

/-- The 2048 words, no two of them equal. -/
structure Lexicon where
  words : List Str
  size : words.length = 2048
  distinct : words.Nodup

inductive CodecError where
  | prefixBits
  | checksumWords
  | notHex
  | tooFewBits (supplied needed : Nat)
  | noDataWords
  deriving DecidableEq

inductive HandleInput where
  | bytes (bytes : List UInt8)
  | text (hex : Str)

def validatePrefixBits : JsNumber → Except CodecError Nat
  | .finite d =>
    if !d.isInteger || d.toInt ≤ 0 || d.toInt % WORD_BITS ≠ 0 then throw .prefixBits
    else if d.toInt > 0xFFFF then throw .prefixBits
    else return d.toInt.toNat
  | _ => throw .prefixBits

def validateChecksumWords (checksumWords : JsNumber) : Except CodecError Nat :=
  if checksumWords.eq (JsNumber.ofInt 1) then return 1
  else if checksumWords.eq (JsNumber.ofInt 2) then return 2
  else throw .checksumWords

def stripSha256Prefix (hex : Str) : Str := if hex.take 7 = lit "sha256:" then hex.drop 7 else hex

def toBytes : HandleInput → Except CodecError (List UInt8 × Nat)
  | .bytes bytes => return (bytes, bytes.length * 8)
  | .text input =>
    let hex := stripSha256Prefix input
    if !hex.all isHex then throw .notHex
    else
      let padded := if hex.length % 2 = 0 then hex else hex ++ [0x30]
      return (hexToBytes padded, hex.length * 4)

/-- Bit `i`, the most significant first. -/
def getBit (bytes : List UInt8) (i : Nat) : Nat := ((bytes.getD (i >>> 3) 0).toNat >>> (7 - (i &&& 7))) &&& 1

/-- The eleven bits from `start` on. -/
def readIndex (bytes : List UInt8) (start : Nat) : Nat :=
  (List.range WORD_BITS).foldl (fun idx b => (idx <<< 1) ||| getBit bytes (start + b)) 0

/-- The first bits in whole bytes; the rest of the last byte is 0. -/
def packPrefix (bytes : List UInt8) (prefixBits : Nat) : List UInt8 :=
  let byteLen := (prefixBits + 7) / 8
  let packed := bytes.take byteLen ++ List.replicate (byteLen - bytes.length) 0
  if prefixBits % 8 ≠ 0 then packed.modify (byteLen - 1) (fun byte => byte &&& highMask (prefixBits % 8)) else packed

section
variable (sha256 : Hash)

def checksumIndicesFor (prefixBits : Nat) (packedPrefix : List UInt8) (checksumWords : Nat) : List Nat :=
  let digest := sha256 (UInt8.ofNat (prefixBits >>> 8) :: UInt8.ofNat prefixBits :: packedPrefix)
  (List.range checksumWords).map (fun j => readIndex digest.bytes (WORD_BITS * j))

/-- `WORDS[idx]`. -/
def word (L : Lexicon) (idx : Nat) : Str := L.words.getD idx []

def dataIndices (bytes : List UInt8) (prefixBits : Nat) : List Nat :=
  (List.range (prefixBits / WORD_BITS)).map (fun i => readIndex bytes (WORD_BITS * i))

def encodeBytes (L : Lexicon) (bytes : List UInt8) (bitLength prefixBits checksumWords : Nat) :
    Except CodecError (List Str) :=
  if bitLength < prefixBits then throw (.tooFewBits bitLength prefixBits)
  else
    return (dataIndices bytes prefixBits).map (word L) ++
      (checksumIndicesFor sha256 prefixBits (packPrefix bytes prefixBits) checksumWords).map (word L)

def encode (L : Lexicon) (input : HandleInput) (prefixBits checksumWords : JsNumber) : Except CodecError (List Str) := do
  let bits ← validatePrefixBits prefixBits
  let count ← validateChecksumWords checksumWords
  let supplied ← toBytes input
  encodeBytes sha256 L supplied.1 supplied.2 bits count

structure DecodeResult where
  prefixHex : Option Str
  prefixBits : Option Nat
  checksumOk : Bool
  failedWordIndex : Option Nat
  outOfLexicon : List Nat
  deriving DecidableEq

/-- `WORD_INDEX.get(w)`. -/
def wordIndex (L : Lexicon) (w : Str) : Option Nat := L.words.findIdx? (fun x => x = w)

/-- One word's bits, the most significant first, set from the running position on. -/
def packWord (idx : Nat) : List Nat → List UInt8 × Nat → List UInt8 × Nat
  | [], state => state
  | b :: rest, (packed, bitPos) =>
    packWord idx rest (if (idx >>> b) &&& 1 ≠ 0 then setBit packed bitPos else packed, bitPos + 1)

/-- `for (let b = WORD_BITS - 1; b >= 0; b--)`. -/
def bitsDown : List Nat := (List.range WORD_BITS).reverse

def packFromIndices (indices : List Nat) (prefixBits : Nat) : List UInt8 :=
  (indices.foldl (fun state idx => packWord idx bitsDown state) (List.replicate ((prefixBits + 7) / 8) 0, 0)).1

/-- `expected.every((e, j) => e === given[j])`. -/
def allEqual (expected given : List Nat) : Bool := (List.range expected.length).all (fun j => expected[j]? = given[j]?)

/-- The positions where some other word gives the checksum that stands in the handle. -/
def fixable (L : Lexicon) (indices given : List Nat) (prefixBits checksumWords : Nat) : List Nat :=
  (List.range indices.length).filter (fun i => (List.range L.words.length).any (fun cand =>
    indices[i]? ≠ some cand &&
      allEqual (checksumIndicesFor sha256 prefixBits (packFromIndices (indices.set i cand) prefixBits) checksumWords) given))

def differing (expected given : List Nat) (dataWordCount checksumWords : Nat) : List Nat :=
  ((List.range checksumWords).filter (fun j => given[j]? ≠ expected[j]?)).map (dataWordCount + ·)

def localize (fixable differing : List Nat) : Option Nat :=
  match fixable with
  | [i] => some i
  | [] =>
    match differing with
    | [j] => some j
    | _ => none
  | _ => none

def decodeIndices (L : Lexicon) (indices given : List Nat) (prefixBits checksumWords : Nat) : DecodeResult :=
  let packed := packFromIndices indices prefixBits
  let expected := checksumIndicesFor sha256 prefixBits packed checksumWords
  let checksumOk := allEqual expected given
  { prefixHex := some (bytesToHex packed)
    prefixBits := some prefixBits
    checksumOk
    failedWordIndex :=
      if checksumOk then none
      else localize (fixable sha256 L indices given prefixBits checksumWords)
        (differing expected given indices.length checksumWords)
    outOfLexicon := [] }

def unknownWords (L : Lexicon) (words : List Str) : List Nat :=
  (List.range words.length).filter (fun i => ((words[i]?).bind (wordIndex L)).isNone)

def decodeWords (L : Lexicon) (words : List Str) (checksumWords : Nat) : Except CodecError DecodeResult :=
  if (unknownWords L words).length > 0 then return ⟨none, none, false, none, unknownWords L words⟩
  else if words.length ≤ checksumWords then throw .noDataWords
  else do
    let dataWordCount := words.length - checksumWords
    let prefixBits ← validatePrefixBits (JsNumber.ofInt (WORD_BITS * dataWordCount))
    let indices := words.filterMap (wordIndex L)
    return decodeIndices sha256 L (indices.take dataWordCount) (indices.drop dataWordCount) prefixBits checksumWords

def decode (L : Lexicon) (words : List Str) (checksumWords : JsNumber) : Except CodecError DecodeResult := do
  let count ← validateChecksumWords checksumWords
  decodeWords sha256 L words count

end

end AgentPassport.WordHandles
