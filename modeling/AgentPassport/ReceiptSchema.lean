import AgentPassport.DelegationSchema
import AgentPassport.StrictRoundTrip
import AgentPassport.Utf8

/-! The closed envelope of a receipt (`v2/receipt-core/receipt.ts`, with `assertExactKeys` of
`v2/receipt-core/jcs.ts`). -/
namespace AgentPassport.ReceiptSchema
open JsText Js StrictRoundTrip Utf8
open DelegationSchema (isLowerHexOf isDelegationId isLeapYear timestampWhere)

/-- What the checks throw: the strict canonicalizer's errors, a type error of the runtime and the
messages of the checks themselves. -/
inductive ReceiptError where
  | strict (e : StrictJcsError)
  | runtime
  | unknownField (name field : Str)
  | missingField (name field : Str)
  | noncharacter (path : Str) (codePoint : Nat)
  | notNfc (index : Nat)
  | digest (key : Str)
  | message (text : String)
  deriving DecidableEq

abbrev Check := Except ReceiptError Unit

def require (ok : Bool) (text : String) : Check := if ok then return () else throw (.message text)

def text : JsValue → Str
  | .str s => s
  | _ => []

def items : JsValue → List JsValue
  | .arr items => items
  | _ => []

/-- `typeof v === 'string' && v !== ''`. -/
def isIdentifier : JsValue → Bool
  | .str s => s ≠ []
  | _ => false

/-- A string of `n` lowercase hexadecimal digits. -/
def isHexText (n : Nat) : JsValue → Bool
  | .str s => isLowerHexOf n s
  | _ => false

/-- Absent, or as `check` wants it. -/
def absentOr (check : JsValue → Bool) : JsValue → Bool
  | .undefined => true
  | v => check v

def isDelegationRef : JsValue → Bool
  | .str s => isDelegationId s
  | _ => false

/-- An object that is no array. -/
def isRecord : JsValue → Bool
  | .obj _ => true
  | .date _ => true
  | _ => false

def isArray : JsValue → Bool
  | .arr _ => true
  | _ => false

def unknownField (name : Str) (allowed : List Str) (members : List (Str × JsValue)) : Check :=
  match members.find? (fun m => !allowed.any (· = m.1)) with
  | some m => throw (.unknownField name m.1)
  | none => return ()

def missingField (name : Str) (required : List Str) (members : List (Str × JsValue)) : Check :=
  match required.find? (fun key => !members.any (fun m => m.1 = key)) with
  | some key => throw (.missingField name key)
  | none => return ()

def exactMembers (members : List (Str × JsValue)) (allowed required : List Str) (name : Str) : Check := do
  unknownField name allowed members
  missingField name required members

/-- The own keys of an array or a string are its indices; a primitive has no `in`. -/
def assertExactKeys (value : JsValue) (allowed required : List Str) (name : Str) : Check :=
  match value with
  | .obj members => exactMembers members allowed required name
  | .date _ => exactMembers [] allowed required name
  | .arr items => if items.isEmpty then exactMembers [] allowed required name else throw (.unknownField name (lit "0"))
  | .str s => if s.isEmpty then throw .runtime else throw (.unknownField name (lit "0"))
  | _ => throw .runtime

def without (value : JsValue) (names : List Str) : JsValue :=
  match value with
  | .obj members => .obj (members.filter (fun m => !names.any (· = m.1)))
  | v => v

def isNoncharacterCodePoint (codePoint : Nat) : Bool :=
  (0xFDD0 ≤ codePoint && codePoint ≤ 0xFDEF) || codePoint % 0x10000 = 0xFFFE || codePoint % 0x10000 = 0xFFFF

/-- `codePointAt` along the string: a pair is one code point, every other unit is its own. -/
def codePoints : Str → List Nat
  | [] => []
  | [c] => [c.toNat]
  | c :: d :: rest =>
    if isHigh c && isLow d then (0x10000 + (c.toNat - 0xD800) * 0x400 + (d.toNat - 0xDC00)) :: codePoints rest
    else c.toNat :: codePoints (d :: rest)

def assertNoNoncharacter (s path : Str) : Check :=
  match (codePoints s).find? isNoncharacterCodePoint with
  | some codePoint => throw (.noncharacter path codePoint)
  | none => return ()

mutual
def assertNoNoncharacters (path : Str) : JsValue → Check
  | .str s => assertNoNoncharacter s path
  | .arr items => assertNoNoncharacterItems path 0 items
  | .obj members => assertNoNoncharacterMembers path members
  | _ => pure ()

def assertNoNoncharacterItems (path : Str) (i : Nat) : List JsValue → Check
  | [] => pure ()
  | v :: rest => do
    assertNoNoncharacters (path ++ lit "[" ++ decimal i ++ lit "]") v
    assertNoNoncharacterItems path (i + 1) rest

def assertNoNoncharacterMembers (path : Str) : List (Str × JsValue) → Check
  | [] => pure ()
  | (name, v) :: rest => do
    assertNoNoncharacter name (path ++ lit " key")
    assertNoNoncharacters (path ++ lit "." ++ name) v
    assertNoNoncharacterMembers path rest
end

def DAYS_IN_MONTH : List Nat := [31, 28, 31, 30, 31, 30, 31, 31, 30, 31, 30, 31]

def maxDay (year month : Nat) : Nat := if month = 2 && isLeapYear year then 29 else (DAYS_IN_MONTH[month - 1]?).getD 0

/-- `new Date(value).toISOString() === value`: every field is in its range. -/
def dateRoundTrips (year month day hour minute second : Nat) : Bool :=
  decide (1 ≤ month ∧ month ≤ 12 ∧ 1 ≤ day ∧ day ≤ maxDay year month ∧ hour ≤ 23 ∧ minute ≤ 59 ∧ second ≤ 59)

def isExactUtcMilliseconds : Str → Bool :=
  timestampWhere (fun year month day hour minute second =>
    if second = 60 then decide (1 ≤ month ∧ month ≤ 12 ∧ day = maxDay year month ∧ hour = 23 ∧ minute = 59)
    else dateRoundTrips year month day hour minute second)

def isUtcText : JsValue → Bool
  | .str s => isExactUtcMilliseconds s
  | _ => false

/-- `later > earlier`. -/
def isLaterUtcMillisecond (later earlier : Str) : Bool := earlier < later

/-- `compareEvidence` and `compareSignatures`: the UTF-8 bytes of two texts, the first one first. -/
def before (a b : Str × Str) : Bool :=
  utf8 a.1 < utf8 b.1 || (utf8 a.1 = utf8 b.1 && utf8 a.2 < utf8 b.2)

def joined (key : Str × Str) : Str := key.1 ++ 0 :: key.2

/-- A list whose keys ascend and differ, each item of the form `check` wants. -/
def checkAscending (check : JsValue → Check) (key : JsValue → Str × Str) (duplicate unsorted : String) :
    List (Str × Str) → List JsValue → Check
  | _, [] => return ()
  | seen, item :: rest => do
    check item
    require (!seen.any (fun k => joined k = joined (key item))) duplicate
    require (seen.head?.all (fun last => before last (key item))) unsorted
    checkAscending check key duplicate unsorted (key item :: seen) rest

def evidenceKey (ref : JsValue) : Str × Str := (text (ref.get (lit "artifact_type")), text (ref.get (lit "sha256")))

def EVIDENCE_MEMBERS : List Str := [lit "artifact_type", lit "sha256"]

def checkEvidenceRef (ref : JsValue) : Check := do
  assertExactKeys ref EVIDENCE_MEMBERS EVIDENCE_MEMBERS (lit "EvidenceRefV1")
  require (isIdentifier (ref.get (lit "artifact_type")) && isHexText 64 (ref.get (lit "sha256"))) "EvidenceRefV1: value"

def signatureKey (proof : JsValue) : Str × Str := (text (proof.get (lit "signer")), text (proof.get (lit "key_id")))

def SIGNATURE_MEMBERS : List Str := [lit "signer", lit "key_id", lit "alg", lit "value"]

def isEd25519 : JsValue → Bool
  | .str s => s = lit "Ed25519"
  | _ => false

def checkSignature (requireValues : Bool) (proof : JsValue) : Check := do
  assertExactKeys proof SIGNATURE_MEMBERS SIGNATURE_MEMBERS (lit "ReceiptSignatureV1")
  require (isIdentifier (proof.get (lit "signer")) && isIdentifier (proof.get (lit "key_id")) &&
    isEd25519 (proof.get (lit "alg")) && (!requireValues || isHexText 128 (proof.get (lit "value"))))
    "ReceiptSignatureV1: value"

def RECEIPT_REQUIRED : List Str :=
  [lit "profile", lit "receipt_id", lit "receipt_type", lit "issuer", lit "subject_agent", lit "action_ref",
    lit "delegation_ref", lit "issued_at", lit "evidence_refs", lit "result", lit "signatures"]

def RECEIPT_MEMBERS : List Str := lit "decision_ref" :: lit "prev" :: RECEIPT_REQUIRED

def PROFILE : Str := lit "aps-receipt-v1"

def isProfile : JsValue → Bool
  | .str s => s = PROFILE
  | _ => false

variable (numText : Double → Str)

def assertStrict (value : JsValue) : Check :=
  match strictJCS numText value with
  | .ok _ => return ()
  | .error e => throw (.strict e)

/-- The checks of the members that are neither arrays nor the id. -/
def checkMembers (receipt : JsValue) (requireValues : Bool) : Check := do
  require (isProfile (receipt.get (lit "profile"))) "ReceiptV1: profile"
  require (isIdentifier (receipt.get (lit "receipt_type"))) "ReceiptV1: empty identifier"
  require (isIdentifier (receipt.get (lit "issuer"))) "ReceiptV1: empty identifier"
  require (isIdentifier (receipt.get (lit "subject_agent"))) "ReceiptV1: empty identifier"
  require (isDelegationRef (receipt.get (lit "delegation_ref"))) "ReceiptV1: delegation_ref"
  require (!requireValues || isHexText 64 (receipt.get (lit "receipt_id"))) "ReceiptV1: receipt_id"
  require (isHexText 64 (receipt.get (lit "action_ref"))) "ReceiptV1: action_ref"
  require (absentOr (isHexText 64) (receipt.get (lit "decision_ref"))) "ReceiptV1: decision_ref"
  require (absentOr (isHexText 64) (receipt.get (lit "prev"))) "ReceiptV1: prev"
  require (isUtcText (receipt.get (lit "issued_at"))) "ReceiptV1: issued_at"
  require (isRecord (receipt.get (lit "result"))) "ReceiptV1: result"

def checkLists (receipt : JsValue) (requireValues : Bool) : Check := do
  require (isArray (receipt.get (lit "evidence_refs")) && isArray (receipt.get (lit "signatures"))) "ReceiptV1: arrays"
  checkAscending checkEvidenceRef evidenceKey "ReceiptV1: duplicate evidence_ref" "ReceiptV1: evidence_refs not sorted" []
    (items (receipt.get (lit "evidence_refs")))
  checkAscending (checkSignature requireValues) signatureKey "ReceiptV1: duplicate signature"
    "ReceiptV1: signatures not sorted" [] (items (receipt.get (lit "signatures")))
  require (!requireValues || (items (receipt.get (lit "signatures"))).any
    (fun proof => text (proof.get (lit "signer")) = text (receipt.get (lit "issuer")))) "ReceiptV1: issuer signature missing"

def validateReceiptV1 (receipt : JsValue) (requireValues : Bool) : Check := do
  assertExactKeys receipt RECEIPT_MEMBERS RECEIPT_REQUIRED (lit "ReceiptV1")
  assertStrict numText receipt
  assertNoNoncharacters (lit "ReceiptV1") receipt
  checkMembers receipt requireValues
  checkLists receipt requireValues

end AgentPassport.ReceiptSchema
