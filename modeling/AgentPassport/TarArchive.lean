import AgentPassport.ByteFields
import AgentPassport.Outcome
import AgentPassport.TextDecoder
import Mathlib.Data.List.Sort

/-! The deterministic archive of a policy bundle (`v2/policy-bundle/tar.ts`): a header of 512 bytes and
the padded data of every file in name order, then two zero blocks. -/
namespace AgentPassport.TarArchive
open JsText Utf8 TextDecoder ByteFields

def BLOCK_SIZE : Nat := 512
def NAME_MAX : Nat := 100

structure TarEntry where
  name : Str
  data : List UInt8
  deriving DecidableEq

inductive TarError where
  | fieldTooLong (length limit : Nat) (value : Str)
  | nameTooLong (name : Str)
  | absoluteName (name : Str)
  | duplicateName (name : Str)
  | invalidOctal
  | notBlocks
  | checksumMismatch
  | unsupportedType (flag : UInt8) (name : Str)
  | truncated
  deriving DecidableEq

def FIXED_MODE : Str := lit "000644 "
def FIXED_ID : Str := lit "0000000 "
def FIXED_MTIME : Str := lit "00000000000 "
def FIXED_MAGIC : Str := lit "ustar\x00"
def FIXED_VERSION : Str := lit "00"

/-- `value.toString(8)`. -/
def octalDigits (value : Nat) : Str := (Nat.toDigits 8 value).map (fun c => UInt16.ofNat c.toNat)

def octal (value width : Nat) : Str := List.replicate (width - (octalDigits value).length) 0x30 ++ octalDigits value

def writeString (buf : List UInt8) (offset : Nat) (value : Str) (length : Nat) : Except TarError (List UInt8) :=
  if (utf8 value).length > length then throw (.fieldTooLong (utf8 value).length length value)
  else return writeAt buf offset (utf8 value)

/-- The checksum field itself counts as spaces. -/
def computeChecksum (header : List UInt8) : Nat :=
  (List.range BLOCK_SIZE).foldl (fun sum i => sum + if 148 ≤ i ∧ i < 156 then 0x20 else (header.getD i 0).toNat) 0

def checkName (name : Str) : Except TarError Unit :=
  if (utf8 name).length > NAME_MAX then throw (.nameTooLong name)
  else if name.head? = some 0x2F then throw (.absoluteName name)
  else return ()

def headerFields (entry : TarEntry) : Except TarError (List UInt8) := do
  let header ← writeString (List.replicate BLOCK_SIZE 0) 0 entry.name NAME_MAX
  let header ← writeString header 100 FIXED_MODE 8
  let header ← writeString header 108 FIXED_ID 8
  let header ← writeString header 116 FIXED_ID 8
  let header ← writeString header 124 (octal entry.data.length 11 ++ lit " ") 12
  let header ← writeString header 136 FIXED_MTIME 12
  let header ← writeString (writeAt header 156 [0x30]) 257 FIXED_MAGIC 6
  writeString header 263 FIXED_VERSION 2

def buildHeader (entry : TarEntry) : Except TarError (List UInt8) := do
  checkName entry.name
  let header ← headerFields entry
  writeString header 148 (octal (computeChecksum header) 6 ++ lit "\x00 ") 8

/-- A name that an earlier entry has. -/
def checkNames : List Str → List TarEntry → Except TarError Unit
  | _, [] => return ()
  | names, entry :: rest => if names.any (· = entry.name) then throw (.duplicateName entry.name) else checkNames (entry.name :: names) rest

def sortEntries (entries : List TarEntry) : List TarEntry := entries.insertionSort (fun a b => a.name ≤ b.name)

def padding (data : List UInt8) : List UInt8 :=
  if data.length % BLOCK_SIZE ≠ 0 then List.replicate (BLOCK_SIZE - data.length % BLOCK_SIZE) 0 else []

def packEntries : List TarEntry → Except TarError (List UInt8)
  | [] => return List.replicate BLOCK_SIZE 0 ++ List.replicate BLOCK_SIZE 0
  | entry :: rest => do
    let header ← buildHeader entry
    let blocks ← packEntries rest
    return header ++ entry.data ++ padding entry.data ++ blocks

def packTar (entries : List TarEntry) : Except TarError (List UInt8) := do
  checkNames [] entries
  packEntries (sortEntries entries)

def readString (buf : List UInt8) (offset length : Nat) : Str :=
  trimEnd (TextDecoder.decode ((field offset length buf).takeWhile (fun b => b ≠ 0)))

def isOctalDigit (c : UInt16) : Bool := 0x30 ≤ c && c ≤ 0x37

def octalValue (digits : Str) : Nat := digits.foldl (fun n c => 8 * n + (c.toNat - 0x30)) 0

def leadingOctal (text : Str) : Option Nat :=
  let digits := text.takeWhile isOctalDigit
  if digits.isEmpty then none else some (octalValue digits)

/-- `parseInt(text, 8)`. -/
def parseInt8 (text : Str) : Option Int :=
  match text.dropWhile isTrimmed with
  | 0x2D :: rest => (leadingOctal rest).map (fun n => -(n : Int))
  | 0x2B :: rest => (leadingOctal rest).map (fun n => (n : Int))
  | rest => (leadingOctal rest).map (fun n => (n : Int))

def readOctal (buf : List UInt8) (offset length : Nat) : Except TarError Int :=
  let raw := trimEnd ((readString buf offset length).dropWhile isTrimmed)
  if raw = [] then return 0
  else
    match parseInt8 raw with
    | some n => return n
    | none => throw .invalidOctal

def isZeroBlock (buf : List UInt8) : Bool := (buf.take BLOCK_SIZE).all (fun b => b = 0)

def checkChecksum (header : List UInt8) : Except TarError Unit := do
  let stored ← readOctal header 148 8
  if stored ≠ computeChecksum header then throw .checksumMismatch

def checkType (flag : UInt8) (name : Str) : Except TarError Unit :=
  if flag ≠ 0x30 ∧ flag ≠ 0x00 then throw (.unsupportedType flag name) else return ()

/-- `archive.slice(pos, pos + size)`, when it has that size. -/
def readData (body : List UInt8) (size : Int) : Except TarError (List UInt8) :=
  if size < 0 ∨ (body.take size.toNat).length ≠ size.toNat then throw .truncated else return body.take size.toNat

def readEntry (archive : List UInt8) : Except TarError (TarEntry × Nat) := do
  checkChecksum (archive.take BLOCK_SIZE)
  let name := readString archive 0 NAME_MAX
  let size ← readOctal archive 124 12
  checkType (archive.getD 156 0) name
  let data ← readData (archive.drop BLOCK_SIZE) size
  return (⟨name, data⟩, BLOCK_SIZE + (size.toNat + (BLOCK_SIZE - 1)) / BLOCK_SIZE * BLOCK_SIZE)

/-- The loop of `unpackTar` over the blocks that are left. -/
def unpackEntries : Nat → List UInt8 → Except TarError (List TarEntry)
  | 0, _ => return []
  | blocks + 1, archive =>
    if archive.length < BLOCK_SIZE then return []
    else if isZeroBlock archive then return []
    else do
      let (entry, consumed) ← readEntry archive
      let rest ← unpackEntries blocks (archive.drop consumed)
      return entry :: rest

def unpackTar (archive : List UInt8) : Except TarError (List TarEntry) :=
  if archive.length % BLOCK_SIZE ≠ 0 then throw .notBlocks
  else unpackEntries (archive.length / BLOCK_SIZE) archive

end AgentPassport.TarArchive
