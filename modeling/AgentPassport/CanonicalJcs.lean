import AgentPassport.JsValue
import AgentPassport.JsonString
import AgentPassport.SeparatedText
import Mathlib.Data.List.Sort

/-! RFC 8785 canonicalization (`core/canonical-jcs.ts`, `core/write-policy.ts`) and the
preimages of a delegation's id and signature (`v2/authority-delegation/canonical.ts`). The
text of a finite number is `JSON.stringify`'s and a parameter, `numText`. -/
namespace AgentPassport.CanonicalJcs
open JsText Js JsonString SeparatedText

/-- What a canonicalizer throws. -/
inductive JcsError where
  | undefinedAt (path : Str)
  | nonFinite
  | unsafeInteger (path : Str)
  | loneSurrogate (which : Surrogate)
  | unsupportedType (type : Str)
  deriving DecidableEq

def surrogateName : Surrogate → Str
  | .high => lit "high"
  | .low => lit "low"

def JcsError.message : JcsError → Str
  | .undefinedAt path => lit "canonicalizeJCS: undefined at " ++ path
  | .nonFinite => lit "JCS does not support Infinity or NaN"
  | .unsafeInteger path => path ++ lit ": integer exceeds the interoperable IEEE 754 range"
  | .loneSurrogate which =>
    lit "canonicalizeJCS: string contains an unpaired UTF-16 " ++ surrogateName which
      ++ lit " surrogate; a lone surrogate has no valid UTF-8 encoding and RFC 8785 requires rejection"
  | .unsupportedType type => lit "JCS: unsupported type " ++ type

def assertNoLoneSurrogate (s : Str) : Except JcsError Unit :=
  match JsText.loneSurrogate s with
  | some which => throw (.loneSurrogate which)
  | none => pure ()

/-- `isUnsafeWriteInteger` on a finite number. -/
def isUnsafeWriteInteger (d : Double) : Bool :=
  d.isInteger && decide (2 ^ 53 - 1 < d.toInt.natAbs)

def itemPath (path : Str) (i : Nat) : Str := path ++ lit "[" ++ decimal i ++ lit "]"
def memberPath (path name : Str) : Str := path ++ lit "." ++ name

mutual
def assertNoUndefined (path : Str) : JsValue → Except JcsError Unit
  | .undefined => throw (.undefinedAt path)
  | .arr items => assertItems path 0 items
  | .obj members => assertMembers path members
  | _ => pure ()

def assertItems (path : Str) (i : Nat) : List JsValue → Except JcsError Unit
  | [] => pure ()
  | v :: rest => do
    assertNoUndefined (itemPath path i) v
    assertItems path (i + 1) rest

def assertMembers (path : Str) : List (Str × JsValue) → Except JcsError Unit
  | [] => pure ()
  | (name, v) :: rest => do
    assertNoUndefined (memberPath path name) v
    assertMembers path rest
end

/-- `Object.keys(obj).sort()`, carrying what belongs to each key: code-unit order. -/
def sortByName {α : Type*} (members : List (Str × α)) : List (Str × α) :=
  members.insertionSort (fun a b => a.1 ≤ b.1)

/-- The loop over the sorted keys; the text of a member is only looked at in its turn. -/
def writePairs : List (Str × Except JcsError Str) → Except JcsError (List Str)
  | [] => pure []
  | (name, text) :: rest => do
    assertNoLoneSurrogate name
    let text ← text
    let pairs ← writePairs rest
    return (stringifyString name ++ lit ":" ++ text) :: pairs

section
variable (numText : Double → Str)

mutual
/-- The recursive emitter; `writePath` is set on the write path only. -/
def canonicalizeValue (writePath : Option Str) : JsValue → Except JcsError Str
  | .null => return lit "null"
  | .undefined =>
    match writePath with
    | some path => throw (.undefinedAt path)
    | none => throw (.unsupportedType (lit "undefined"))
  | .bool b => return if b then lit "true" else lit "false"
  | .num (.finite d) =>
    match writePath with
    | some path => if isUnsafeWriteInteger d then throw (.unsafeInteger path) else return numText d
    | none => return numText d
  | .num _ => throw .nonFinite
  | .str s => do
    assertNoLoneSurrogate s
    return stringifyString s
  | .date (some iso) => return stringifyString iso
  | .date none => return lit "null"
  | .arr items => do
    let parts ← canonicalizeItems writePath 0 items
    return lit "[" ++ join 0x2C parts ++ lit "]"
  | .obj members => do
    let pairs ← writePairs (sortByName (canonicalizeMembers writePath members))
    return lit "\x7b" ++ join 0x2C pairs ++ lit "\x7d"
  | .other type => throw (.unsupportedType (typeName type))

def canonicalizeItems (writePath : Option Str) (i : Nat) : List JsValue → Except JcsError (List Str)
  | [] => return []
  | v :: rest => do
    let part ← canonicalizeValue (writePath.map (itemPath · i)) v
    let parts ← canonicalizeItems writePath (i + 1) rest
    return part :: parts

def canonicalizeMembers (writePath : Option Str) :
    List (Str × JsValue) → List (Str × Except JcsError Str)
  | [] => []
  | (name, v) :: rest =>
    (name, canonicalizeValue (writePath.map (memberPath · name)) v)
      :: canonicalizeMembers writePath rest
end

def canonicalizeJCS (value : JsValue) : Except JcsError Str := do
  assertNoUndefined (lit "$") value
  canonicalizeValue numText none value

def canonicalizeJCSForWrite (value : JsValue) : Except JcsError Str :=
  canonicalizeValue numText (some (lit "$")) value

end

def AUTHORITY_DELEGATION_ID_DOMAIN : Str := lit "APS-AUTHORITY-DELEGATION-ID-V1\x00"
def AUTHORITY_DELEGATION_SIGNATURE_DOMAIN : Str := lit "APS-AUTHORITY-DELEGATION-SIGNATURE-V1\x00"

/-- An object without one of its members, as a rest pattern copies it. -/
def omitMember (name : Str) : JsValue → JsValue
  | .obj members => .obj (members.filter (fun m => m.1 ≠ name))
  | v => v

def unsignedDelegation (delegation : JsValue) : JsValue := omitMember (lit "signature") delegation

def authorityDelegationBody (delegation : JsValue) : JsValue :=
  omitMember (lit "signature") (omitMember (lit "delegation_id") delegation)

section
variable (numText : Double → Str)

def authorityDelegationIdInput (body : JsValue) : Except JcsError Str := do
  return AUTHORITY_DELEGATION_ID_DOMAIN ++ (← canonicalizeJCS numText body)

def authorityDelegationIdInputForWrite (body : JsValue) : Except JcsError Str := do
  return AUTHORITY_DELEGATION_ID_DOMAIN ++ (← canonicalizeJCSForWrite numText body)

def authorityDelegationSignatureInput (delegation : JsValue) : Except JcsError Str := do
  return AUTHORITY_DELEGATION_SIGNATURE_DOMAIN ++ (← canonicalizeJCS numText delegation)

def authorityDelegationSignatureInputForWrite (delegation : JsValue) : Except JcsError Str := do
  return AUTHORITY_DELEGATION_SIGNATURE_DOMAIN ++ (← canonicalizeJCSForWrite numText delegation)

end

end AgentPassport.CanonicalJcs
