import AgentPassport.DelegationScope
import AgentPassport.PlainData
import Mathlib.Data.List.Sort

/-! The closed schema of an authority delegation (`v2/authority-delegation/schema.ts` and
`types.ts`), and the record a value that passes it is read as. -/
namespace AgentPassport.DelegationSchema
open JsText Js PlainData DelegationScope

inductive AuthorityFailureCode where
  | SCHEMA_INVALID | UNSUPPORTED_VERSION | UNSUPPORTED_RECORD_TYPE | UNSUPPORTED_PROFILE
  | RESOURCE_LIMIT | NONCANONICAL_VALUE | ID_MISMATCH | KEY_RESOLUTION_FAILED
  | KEY_SCHEME_UNSUPPORTED | KEY_NOT_FOUND | KEY_AMBIGUOUS | KEY_UNREACHABLE
  | KEY_MATERIAL_MALFORMED | SIGNATURE_INVALID | ROOT_UNTRUSTED | CHAIN_DUPLICATE_ID
  | PARENT_MISMATCH | CHAIN_CONTINUITY | ISSUED_AT_OUTSIDE_PARENT | SCOPE_WIDENING
  | SPEND_WIDENING | SPEND_UNIT_CHANGE | DEPTH_EXHAUSTED | DEPTH_WIDENING | TIME_WIDENING
  | REPUTATION_WIDENING | VALUES_WEAKENING | REVERSIBILITY_WIDENING | NOT_YET_VALID | EXPIRED
  | REVOKED | REVOCATION_UNKNOWN
  deriving DecidableEq

inductive Facet where
  | scope | spend | depth | time | reputation | values | reversibility
  deriving DecidableEq

structure AuthorityFailure where
  code : AuthorityFailureCode
  message : String
  index : Option Nat
  facet : Option Facet
  deriving DecidableEq

def failure (code : AuthorityFailureCode) (message : String) : AuthorityFailure := ⟨code, message, none, none⟩

/-- One failure unless the check passes. -/
def require (ok : Bool) (code : AuthorityFailureCode) (message : String) : List AuthorityFailure :=
  if ok then [] else [failure code message]

def AUTHORITY_DELEGATION_RECORD_TYPE : Str := lit "aps:authority-delegation:v1"
def AUTHORITY_DELEGATION_VERSION : Str := lit "1.0"
def SCOPE_PROFILE_V1 : Str := lit "aps-hierarchical-v1"
def REPUTATION_PROFILE_V1 : Str := lit "aps-score-0-100-v1"
def VALUES_PROFILE_V1 : Str := lit "aps-values-identifiers-v1"
def REVERSIBILITY_PROFILE_V1 : Str := lit "aps-tci-v1"

def str? : JsValue → Option Str
  | .str s => some s
  | _ => none

/-- `record`: the own members of an object that is no array. -/
def record : JsValue → Option (List (Str × JsValue))
  | .obj members => some members
  | .date _ => some []
  | _ => none

def field (members : List (Str × JsValue)) (name : String) : JsValue :=
  (member? (lit name) members).getD .undefined

def sortNames (names : List Str) : List Str := names.insertionSort (fun a b => a ≤ b)

theorem sortNames_perm (names : List Str) : (sortNames names).Perm names := List.perm_insertionSort _ names

theorem sortNames_pairwise (names : List Str) : (sortNames names).Pairwise (fun a b => a ≤ b) := by
  have : IsTrans Str (fun a b => a ≤ b) := ⟨fun _ _ _ => List.le_trans⟩
  have : Std.Total (fun a b : Str => a ≤ b) := ⟨fun a b => List.le_total a b⟩
  exact List.pairwise_insertionSort _ names

theorem sortNames_eq_of_perm {names names' : List Str} (h : names.Perm names') : sortNames names = sortNames names' := by
  have hperm := (sortNames_perm names).trans (h.trans (sortNames_perm names').symm)
  exact hperm.eq_of_pairwise (fun a b _ _ hab hba => List.le_antisymm hab hba) (sortNames_pairwise names)
    (sortNames_pairwise names')

def exactKeys (value : List (Str × JsValue)) (expected : List String) : Bool :=
  sortNames (value.map Prod.fst) = sortNames (expected.map lit)

/-- No noncharacter: not in U+FDD0..U+FDEF and not ending in FFFE or FFFF. -/
def isCharacter (codePoint : Nat) : Bool :=
  !(0xFDD0 ≤ codePoint && codePoint ≤ 0xFDEF) && decide (codePoint % 0x10000 < 0xFFFE)

def isIJSONString : Str → Bool
  | [] => true
  | [c] => !isHigh c && !isLow c && isCharacter c.toNat
  | c :: d :: rest =>
    if isHigh c then
      isLow d && isCharacter ((c.toNat - 0xD800) * 0x400 + (d.toNat - 0xDC00) + 0x10000) && isIJSONString rest
    else !isLow c && isCharacter c.toNat && isIJSONString (d :: rest)

mutual
/-- The record-wide walk: every name and string is I-JSON, every number finite, and nothing
else than JSON values occurs. -/
def isIJSONValue : JsValue → Bool
  | .null => true
  | .bool _ => true
  | .str s => isIJSONString s
  | .num (.finite _) => true
  | .date _ => true
  | .arr items => itemsAreIJSON items
  | .obj members => membersAreIJSON members
  | _ => false

def itemsAreIJSON : List JsValue → Bool
  | [] => true
  | v :: rest => isIJSONValue v && itemsAreIJSON rest

def membersAreIJSON : List (Str × JsValue) → Bool
  | [] => true
  | (name, v) :: rest => isIJSONString name && isIJSONValue v && membersAreIJSON rest
end

def isLowerHexOf (length : Nat) (s : Str) : Bool := s.length = length && s.all isLowerHex

def isDelegationId (s : Str) : Bool := s.take 7 = lit "sha256:" && isLowerHexOf 64 (s.drop 7)

def isLeapYear (year : Nat) : Bool := (year % 4 = 0 && year % 100 ≠ 0) || year % 400 = 0

def daysInMonth (year month : Nat) : Nat :=
  if month = 2 && isLeapYear year then 29
  else ([31, 28, 31, 30, 31, 30, 31, 31, 30, 31, 30, 31][month - 1]?).getD 0

/-- The number written by `count` digits from a position on. -/
def numberAt (s : Str) (start count : Nat) : Option Nat :=
  let digits := (s.drop start).take count
  if digits.length = count && digits.all isDigit then some (digitsValue digits) else none

/-- A text `YYYY-MM-DDTHH:MM:SS.sssZ` whose year, month, day, hour, minute and second pass a check. -/
def timestampWhere (check : Nat → Nat → Nat → Nat → Nat → Nat → Bool) (s : Str) : Bool :=
  s.length = 24 && s[4]? = some 0x2D && s[7]? = some 0x2D && s[10]? = some 0x54 &&
    s[13]? = some 0x3A && s[16]? = some 0x3A && s[19]? = some 0x2E && s[23]? = some 0x5A &&
    match numberAt s 0 4, numberAt s 5 2, numberAt s 8 2, numberAt s 11 2, numberAt s 14 2,
      numberAt s 17 2, numberAt s 20 3 with
    | some year, some month, some day, some hour, some minute, some second, some _ =>
      check year month day hour minute second
    | _, _, _, _, _, _, _ => false

/-- The pattern of a timestamp with its lexical ranges, the days of the month, and second 60
only at the end of a month. -/
def canonicalTimestamp : Str → Bool :=
  timestampWhere (fun year month day hour minute second =>
    decide (1 ≤ month ∧ month ≤ 12 ∧ 1 ≤ day ∧ day ≤ 31 ∧ hour ≤ 23 ∧ minute ≤ 59 ∧ second ≤ 60 ∧
      day ≤ daysInMonth year month ∧
      (second = 60 → hour = 23 ∧ minute = 59 ∧ day = daysInMonth year month)))

def isCanonicalTimestamp (v : JsValue) : Bool :=
  match str? v with
  | some s => canonicalTimestamp s
  | none => false

/-- `BigInt` on a canonical decimal. -/
def bigInt (s : Str) : Nat := digitsValue s

def MAX_QUANTITY : Nat := 9223372036854775807

def isCanonicalQuantity (v : JsValue) : Bool :=
  match str? v with
  | some s =>
    (s = lit "0" || (!s.isEmpty && s.all isDigit && s.head? ≠ some 0x30)) && decide (bigInt s ≤ MAX_QUANTITY)
  | none => false

def isAdmissibleIdentifier (v : JsValue) : Bool :=
  match str? v with
  | some s => !s.isEmpty
  | none => false

/-- `Number.isInteger` and between zero and a maximum. -/
def integerUpTo (max : Nat) : JsValue → Bool
  | .num (.finite d) => d.isInteger && decide (0 ≤ d.toInt) && decide (d.toInt ≤ max)
  | _ => false

def strings? : List JsValue → Option (List Str)
  | [] => some []
  | v :: rest => do
    let s ← str? v
    let ss ← strings? rest
    return s :: ss

/-- A facet with a profile: recognised by it before anything else is looked at. -/
def profiledFailures (facet : JsValue) (profile : Str) (malformed unsupported : String)
    (check : List (Str × JsValue) → List AuthorityFailure) : List AuthorityFailure :=
  match record facet with
  | none => [failure .SCHEMA_INVALID malformed]
  | some members =>
    match str? (field members "profile") with
    | none => [failure .SCHEMA_INVALID malformed]
    | some name => if name ≠ profile then [failure .UNSUPPORTED_PROFILE unsupported] else check members

def scopeFailures (scope : JsValue) : List AuthorityFailure :=
  profiledFailures scope SCOPE_PROFILE_V1 "scope must contain profile and grants"
    "unsupported scope profile" fun members =>
      match exactKeys members ["profile", "grants"], field members "grants" with
      | true, .arr items =>
        match strings? items with
        | some grants =>
          require (grantsAreCanonical grants) .NONCANONICAL_VALUE
            "scope grants must be valid, sorted, unique, and irredundant"
        | none => [failure .SCHEMA_INVALID "scope must contain profile and grants"]
      | _, _ => [failure .SCHEMA_INVALID "scope must contain profile and grants"]

def boundedSpendFailures (members : List (Str × JsValue)) : List AuthorityFailure :=
  if exactKeys members ["mode", "unit", "per_action", "cumulative"] &&
      isAdmissibleIdentifier (field members "unit") && isCanonicalQuantity (field members "per_action") &&
      isCanonicalQuantity (field members "cumulative") then
    match str? (field members "per_action"), str? (field members "cumulative") with
    | some perAction, some cumulative =>
      require (decide (bigInt perAction ≤ bigInt cumulative)) .SCHEMA_INVALID
        "spend per_action cannot exceed cumulative"
    | _, _ => [failure .NONCANONICAL_VALUE "bounded spend fields are malformed"]
  else [failure .NONCANONICAL_VALUE "bounded spend fields are malformed"]

def spendFailures (spend : JsValue) : List AuthorityFailure :=
  match record spend with
  | none => [failure .SCHEMA_INVALID "spend must be a tagged object"]
  | some members =>
    match str? (field members "mode") with
    | none => [failure .SCHEMA_INVALID "spend must be a tagged object"]
    | some mode =>
      if mode = lit "unbounded" then
        require (exactKeys members ["mode"]) .SCHEMA_INVALID "unbounded spend has no other fields"
      else if mode = lit "bounded" then boundedSpendFailures members
      else [failure .SCHEMA_INVALID "unknown spend mode"]

def depthFailures (depth : JsValue) : List AuthorityFailure :=
  match record depth with
  | none => [failure .SCHEMA_INVALID "depth.remaining must be an integer from 0 through 255"]
  | some members =>
    require (exactKeys members ["remaining"] && integerUpTo 255 (field members "remaining"))
      .SCHEMA_INVALID "depth.remaining must be an integer from 0 through 255"

def timeFailures (time parentDelegationId issuedAt : JsValue) : List AuthorityFailure :=
  match record time with
  | none => [failure .NONCANONICAL_VALUE "time bounds must be canonical UTC milliseconds"]
  | some members =>
    match str? (field members "not_before"), str? (field members "not_after") with
    | some notBefore, some notAfter =>
      if !(exactKeys members ["not_before", "not_after"] && canonicalTimestamp notBefore &&
          canonicalTimestamp notAfter) then
        [failure .NONCANONICAL_VALUE "time bounds must be canonical UTC milliseconds"]
      else if notAfter ≤ notBefore then [failure .SCHEMA_INVALID "time window must be non-empty"]
      else match parentDelegationId, str? issuedAt with
        | .null, _ => []
        | _, some issued =>
          require (!(canonicalTimestamp issued && decide (notBefore < issued))) .SCHEMA_INVALID
            "time.not_before cannot predate issued_at"
        | _, none => []
    | _, _ => [failure .NONCANONICAL_VALUE "time bounds must be canonical UTC milliseconds"]

def reputationFailures (reputation : JsValue) : List AuthorityFailure :=
  profiledFailures reputation REPUTATION_PROFILE_V1
    "reputation ceiling must be an integer from 0 through 100" "unsupported reputation profile"
    fun members =>
      require (exactKeys members ["profile", "ceiling"] && integerUpTo 100 (field members "ceiling"))
        .SCHEMA_INVALID "reputation ceiling must be an integer from 0 through 100"

def valuesFailures (values : JsValue) : List AuthorityFailure :=
  profiledFailures values VALUES_PROFILE_V1 "values.required must contain valid identifiers"
    "unsupported values profile" fun members =>
      match exactKeys members ["profile", "required"], field members "required" with
      | true, .arr items =>
        if items.all isAdmissibleIdentifier then
          match strings? items with
          | some required =>
            require (ascending required) .NONCANONICAL_VALUE "values.required must be sorted and unique"
          | none => [failure .SCHEMA_INVALID "values.required must contain valid identifiers"]
        else [failure .SCHEMA_INVALID "values.required must contain valid identifiers"]
      | _, _ => [failure .SCHEMA_INVALID "values.required must contain valid identifiers"]

def reversibilityFailures (reversibility : JsValue) : List AuthorityFailure :=
  profiledFailures reversibility REVERSIBILITY_PROFILE_V1 "reversibility facet is malformed"
    "unsupported reversibility profile" fun members =>
      match exactKeys members ["profile", "ceiling"], str? (field members "ceiling") with
      | true, some ceiling =>
        require (ceiling = lit "tentative" || ceiling = lit "compensable" || ceiling = lit "irreversible")
          .SCHEMA_INVALID "reversibility facet is malformed"
      | _, _ => [failure .SCHEMA_INVALID "reversibility facet is malformed"]

def authorityFailures (authority parentDelegationId issuedAt : JsValue) : List AuthorityFailure :=
  match record authority with
  | none => [failure .SCHEMA_INVALID "authority must carry exactly all seven facets"]
  | some members =>
    if !exactKeys members ["scope", "spend", "depth", "time", "reputation", "values", "reversibility"] then
      [failure .SCHEMA_INVALID "authority must carry exactly all seven facets"]
    else
      scopeFailures (field members "scope") ++ spendFailures (field members "spend") ++
        depthFailures (field members "depth") ++
        timeFailures (field members "time") parentDelegationId issuedAt ++
        reputationFailures (field members "reputation") ++ valuesFailures (field members "values") ++
        reversibilityFailures (field members "reversibility")

/-- A required name: absent is a schema failure, too long a ceiling of the implementation. -/
def nameFailures (key : String) (v : JsValue) : List AuthorityFailure :=
  match str? v with
  | none => [failure .SCHEMA_INVALID (key ++ " must be a non-empty well-formed Unicode string")]
  | some s =>
    if s = [] then [failure .SCHEMA_INVALID (key ++ " must be a non-empty well-formed Unicode string")]
    else require (decide (byteLength s ≤ 1024)) .RESOURCE_LIMIT
      (key ++ " exceeds this implementation's 1024-byte ceiling")

def stringWhere (test : Str → Bool) (v : JsValue) : Bool :=
  match str? v with
  | some s => test s
  | none => false

def delegationKeys : List String :=
  ["record_type", "version", "delegation_id", "parent_delegation_id", "issuer", "subject",
    "verification_method", "issued_at", "nonce", "authority", "signature"]

def bodyFailures (top : List (Str × JsValue)) : List AuthorityFailure :=
  require (membersAreIJSON top) .SCHEMA_INVALID
      "record strings must be I-JSON: no unpaired surrogates or noncharacters" ++
    require (stringWhere isDelegationId (field top "delegation_id")) .SCHEMA_INVALID
      "delegation_id must be sha256:<64 lowercase hex>" ++
    require (match field top "parent_delegation_id" with
        | .null => true
        | v => stringWhere isDelegationId v) .SCHEMA_INVALID
      "parent_delegation_id must be null or a delegation digest" ++
    nameFailures "issuer" (field top "issuer") ++ nameFailures "subject" (field top "subject") ++
    nameFailures "verification_method" (field top "verification_method") ++
    require (isCanonicalTimestamp (field top "issued_at")) .NONCANONICAL_VALUE
      "issued_at must be canonical UTC milliseconds" ++
    require (stringWhere (isLowerHexOf 32) (field top "nonce")) .NONCANONICAL_VALUE
      "nonce must be 32 lowercase hex characters" ++
    require (stringWhere (isLowerHexOf 128) (field top "signature")) .SCHEMA_INVALID
      "signature must be 128 lowercase hex characters" ++
    authorityFailures (field top "authority") (field top "parent_delegation_id") (field top "issued_at")

def shapeFailures (snapshot : JsValue) : List AuthorityFailure :=
  match record snapshot with
  | none => [failure .SCHEMA_INVALID "delegation must be an exact closed v1 object"]
  | some top =>
    match str? (field top "record_type"), str? (field top "version") with
    | some recordType, some version =>
      if recordType ≠ AUTHORITY_DELEGATION_RECORD_TYPE then
        [failure .UNSUPPORTED_RECORD_TYPE "record_type names another record, not judged by this schema"]
      else if version ≠ AUTHORITY_DELEGATION_VERSION then
        [failure .UNSUPPORTED_VERSION "unsupported authority-delegation version"]
      else if !exactKeys top delegationKeys then
        [failure .SCHEMA_INVALID "delegation must be an exact closed v1 object"]
      else bodyFailures top
    | _, _ => [failure .SCHEMA_INVALID "record_type and version must be strings"]

def validateAuthorityDelegationShape (value : CallerValue) : List AuthorityFailure :=
  shapeFailures (snapshotPlainData value)

/-! ### The typed record

What `snapshot as AuthorityDelegationV1` claims of a snapshot, and why the schema bears it out. -/

structure ScopeFacet where
  profile : Str
  grants : List Str

/-- Limits are canonical decimals, compared through `bigInt`. -/
inductive SpendFacet where
  | unbounded
  | bounded (unit perAction cumulative : Str)
  deriving DecidableEq

structure TimeFacet where
  notBefore : Str
  notAfter : Str

structure ReputationFacet where
  profile : Str
  ceiling : Nat

structure ValuesFacet where
  profile : Str
  required : List Str

structure ReversibilityFacet where
  profile : Str
  ceiling : Str

structure AuthorityVector where
  scope : ScopeFacet
  spend : SpendFacet
  /-- `depth.remaining`. -/
  remaining : Nat
  time : TimeFacet
  reputation : ReputationFacet
  values : ValuesFacet
  reversibility : ReversibilityFacet

/-- A delegation; the nonce is read by the schema only. -/
structure AuthorityDelegation where
  delegationId : Str
  parentDelegationId : Option Str
  issuer : Str
  subject : Str
  verificationMethod : Str
  issuedAt : Str
  authority : AuthorityVector
  signature : Str

def items? : JsValue → Option (List JsValue)
  | .arr items => some items
  | _ => none

def count? : JsValue → Option Nat
  | .num (.finite d) => if d.isInteger && decide (0 ≤ d.toInt) then some d.toInt.toNat else none
  | _ => none

def nullable? : JsValue → Option (Option Str)
  | .null => some none
  | .str s => some (some s)
  | _ => none

def readScope (v : JsValue) : Option ScopeFacet := do
  let members ← record v
  let profile ← str? (field members "profile")
  let items ← items? (field members "grants")
  let grants ← strings? items
  return ⟨profile, grants⟩

def readSpend (v : JsValue) : Option SpendFacet := do
  let members ← record v
  let mode ← str? (field members "mode")
  if mode = lit "bounded" then do
    let unit ← str? (field members "unit")
    let perAction ← str? (field members "per_action")
    let cumulative ← str? (field members "cumulative")
    return .bounded unit perAction cumulative
  else return .unbounded

def readDepth (v : JsValue) : Option Nat := do
  let members ← record v
  count? (field members "remaining")

def readTime (v : JsValue) : Option TimeFacet := do
  let members ← record v
  let notBefore ← str? (field members "not_before")
  let notAfter ← str? (field members "not_after")
  return ⟨notBefore, notAfter⟩

def readReputation (v : JsValue) : Option ReputationFacet := do
  let members ← record v
  let profile ← str? (field members "profile")
  let ceiling ← count? (field members "ceiling")
  return ⟨profile, ceiling⟩

def readValues (v : JsValue) : Option ValuesFacet := do
  let members ← record v
  let profile ← str? (field members "profile")
  let items ← items? (field members "required")
  let required ← strings? items
  return ⟨profile, required⟩

def readReversibility (v : JsValue) : Option ReversibilityFacet := do
  let members ← record v
  let profile ← str? (field members "profile")
  let ceiling ← str? (field members "ceiling")
  return ⟨profile, ceiling⟩

def readAuthority (v : JsValue) : Option AuthorityVector := do
  let members ← record v
  let scope ← readScope (field members "scope")
  let spend ← readSpend (field members "spend")
  let remaining ← readDepth (field members "depth")
  let time ← readTime (field members "time")
  let reputation ← readReputation (field members "reputation")
  let values ← readValues (field members "values")
  let reversibility ← readReversibility (field members "reversibility")
  return ⟨scope, spend, remaining, time, reputation, values, reversibility⟩

def readDelegation (v : JsValue) : Option AuthorityDelegation := do
  let top ← record v
  let delegationId ← str? (field top "delegation_id")
  let parentDelegationId ← nullable? (field top "parent_delegation_id")
  let issuer ← str? (field top "issuer")
  let subject ← str? (field top "subject")
  let verificationMethod ← str? (field top "verification_method")
  let issuedAt ← str? (field top "issued_at")
  let authority ← readAuthority (field top "authority")
  let signature ← str? (field top "signature")
  return ⟨delegationId, parentDelegationId, issuer, subject, verificationMethod, issuedAt, authority, signature⟩

/-- What the schema guarantees of an authority vector beyond its types. -/
structure WellFormedAuthority (a : AuthorityVector) : Prop where
  grants : grantsAreCanonical a.scope.grants = true
  remaining : a.remaining ≤ 255

theorem require_eq_nil {ok : Bool} {code : AuthorityFailureCode} {message : String} :
    require ok code message = [] ↔ ok = true := by
  unfold require
  split
  · rename_i h
    simp [h]
  · rename_i h
    simp [h]

theorem profiled_inv {facet : JsValue} {profile : Str} {malformed unsupported : String}
    {check : List (Str × JsValue) → List AuthorityFailure}
    (h : profiledFailures facet profile malformed unsupported check = []) :
    ∃ members, record facet = some members ∧ str? (field members "profile") = some profile ∧
      check members = [] := by
  unfold profiledFailures at h
  split at h
  · cases h
  rename_i members hmembers
  split at h
  · cases h
  rename_i name hname
  split at h
  · cases h
  · rename_i heq
    exact ⟨members, hmembers, by rw [hname, not_not.mp heq], h⟩

variable {v : JsValue}

theorem scope_read (h : scopeFailures v = []) : ∃ s, readScope v = some s ∧ grantsAreCanonical s.grants = true := by
  obtain ⟨members, hmembers, hprofile, hcheck⟩ := profiled_inv h
  split at hcheck
  · rename_i items _ hitems
    split at hcheck
    · rename_i grants hgrants
      refine ⟨⟨SCOPE_PROFILE_V1, grants⟩, ?_, require_eq_nil.mp hcheck⟩
      simp only [readScope, hmembers, hprofile, hitems, items?, hgrants, Option.bind_eq_bind, Option.bind_some,
        Option.pure_def]
    · cases hcheck
  · cases hcheck

theorem spend_read (h : spendFailures v = []) : ∃ s, readSpend v = some s := by
  unfold spendFailures at h
  split at h
  · cases h
  rename_i members hmembers
  split at h
  · cases h
  rename_i mode hmode
  split at h
  · rename_i hun
    refine ⟨.unbounded, ?_⟩
    have hne : mode ≠ lit "bounded" := by
      rw [hun]
      decide
    simp only [readSpend, hmembers, hmode, Option.bind_eq_bind, Option.bind_some, if_neg hne, Option.pure_def]
  split at h
  · rename_i hbounded
    unfold boundedSpendFailures at h
    split at h
    · rename_i hfields
      split at h
      · rename_i perAction cumulative hper hcum
        simp only [Bool.and_eq_true] at hfields
        obtain ⟨⟨⟨_, hunit⟩, _⟩, _⟩ := hfields
        unfold isAdmissibleIdentifier at hunit
        split at hunit
        · rename_i unit hunit'
          refine ⟨.bounded unit perAction cumulative, ?_⟩
          simp only [readSpend, hmembers, hmode, hbounded, hunit', hper, hcum, Option.bind_eq_bind,
            Option.bind_some, if_true, Option.pure_def]
        · cases hunit
      · cases h
    · cases h
  · cases h

theorem count_of_integerUpTo {max : Nat} (h : integerUpTo max v = true) : ∃ n, count? v = some n ∧ n ≤ max := by
  unfold integerUpTo at h
  split at h
  · rename_i d
    simp only [Bool.and_eq_true, decide_eq_true_eq] at h
    obtain ⟨⟨hint, hpos⟩, hmax⟩ := h
    refine ⟨d.toInt.toNat, ?_, by omega⟩
    simp [count?, hint, hpos]
  · cases h

theorem depth_read (h : depthFailures v = []) : ∃ n, readDepth v = some n ∧ n ≤ 255 := by
  unfold depthFailures at h
  split at h
  · cases h
  · rename_i members hmembers
    obtain ⟨n, hn, hmax⟩ := count_of_integerUpTo (Bool.and_eq_true _ _ ▸ require_eq_nil.mp h).2
    exact ⟨n, by simp only [readDepth, hmembers, Option.bind_eq_bind, Option.bind_some, hn], hmax⟩

theorem time_read {v p i : JsValue} (h : timeFailures v p i = []) : ∃ t, readTime v = some t := by
  unfold timeFailures at h
  split at h
  · cases h
  rename_i members hmembers
  split at h
  · rename_i notBefore notAfter hbefore hafter
    refine ⟨⟨notBefore, notAfter⟩, ?_⟩
    simp only [readTime, hmembers, hbefore, hafter, Option.bind_eq_bind, Option.bind_some, Option.pure_def]
  · cases h

theorem reputation_read (h : reputationFailures v = []) : ∃ r, readReputation v = some r := by
  obtain ⟨members, hmembers, hprofile, hcheck⟩ := profiled_inv h
  obtain ⟨n, hn, -⟩ := count_of_integerUpTo (Bool.and_eq_true _ _ ▸ require_eq_nil.mp hcheck).2
  refine ⟨⟨REPUTATION_PROFILE_V1, n⟩, ?_⟩
  simp only [readReputation, hmembers, hprofile, hn, Option.bind_eq_bind, Option.bind_some, Option.pure_def]

theorem values_read (h : valuesFailures v = []) : ∃ s, readValues v = some s := by
  obtain ⟨members, hmembers, hprofile, hcheck⟩ := profiled_inv h
  split at hcheck
  · rename_i items _ hitems
    split at hcheck
    · split at hcheck
      · rename_i required hrequired
        refine ⟨⟨VALUES_PROFILE_V1, required⟩, ?_⟩
        simp only [readValues, hmembers, hprofile, hitems, items?, hrequired, Option.bind_eq_bind,
          Option.bind_some, Option.pure_def]
      · cases hcheck
    · cases hcheck
  · cases hcheck

theorem reversibility_read (h : reversibilityFailures v = []) : ∃ r, readReversibility v = some r := by
  obtain ⟨members, hmembers, hprofile, hcheck⟩ := profiled_inv h
  split at hcheck
  · rename_i ceiling _ hceiling
    refine ⟨⟨REVERSIBILITY_PROFILE_V1, ceiling⟩, ?_⟩
    simp only [readReversibility, hmembers, hprofile, hceiling, Option.bind_eq_bind, Option.bind_some,
      Option.pure_def]
  · cases hcheck

theorem authority_read {v p i : JsValue} (h : authorityFailures v p i = []) :
    ∃ a, readAuthority v = some a ∧ WellFormedAuthority a := by
  unfold authorityFailures at h
  split at h
  · cases h
  rename_i members hmembers
  split at h
  · cases h
  · simp only [List.append_eq_nil_iff] at h
    obtain ⟨⟨⟨⟨⟨⟨hscope, hspend⟩, hdepth⟩, htime⟩, hreputation⟩, hvalues⟩, hreversibility⟩ := h
    obtain ⟨scope, hscope, hgrants⟩ := scope_read hscope
    obtain ⟨spend, hspend⟩ := spend_read hspend
    obtain ⟨remaining, hdepth, hmax⟩ := depth_read hdepth
    obtain ⟨time, htime⟩ := time_read htime
    obtain ⟨reputation, hreputation⟩ := reputation_read hreputation
    obtain ⟨values, hvalues⟩ := values_read hvalues
    obtain ⟨reversibility, hreversibility⟩ := reversibility_read hreversibility
    refine ⟨⟨scope, spend, remaining, time, reputation, values, reversibility⟩, ?_, hgrants, hmax⟩
    simp only [readAuthority, hmembers, hscope, hspend, hdepth, htime, hreputation, hvalues, hreversibility,
      Option.bind_eq_bind, Option.bind_some, Option.pure_def]

theorem stringWhere_read {test : Str → Bool} {v : JsValue} (h : stringWhere test v = true) :
    ∃ s, str? v = some s ∧ test s = true := by
  unfold stringWhere at h
  split at h
  · rename_i s hs
    exact ⟨s, hs, h⟩
  · cases h

theorem name_read {key : String} (h : nameFailures key v = []) : ∃ s, str? v = some s := by
  unfold nameFailures at h
  split at h
  · cases h
  · rename_i s hs
    exact ⟨s, hs⟩

theorem shape_inv (h : shapeFailures v = []) :
    ∃ top, record v = some top ∧ str? (field top "record_type") = some AUTHORITY_DELEGATION_RECORD_TYPE ∧
      str? (field top "version") = some AUTHORITY_DELEGATION_VERSION ∧
      exactKeys top delegationKeys = true ∧ bodyFailures top = [] := by
  unfold shapeFailures at h
  split at h
  · cases h
  rename_i top htop
  split at h
  · rename_i recordType version htype hversion
    split at h
    · cases h
    rename_i htype'
    split at h
    · cases h
    rename_i hversion'
    split at h
    · cases h
    · rename_i hkeys
      refine ⟨top, htop, by rw [htype, not_not.mp htype'], by rw [hversion, not_not.mp hversion'], ?_, h⟩
      simpa using hkeys
  · cases h

theorem delegation_read (h : shapeFailures v = []) :
    ∃ d, readDelegation v = some d ∧ WellFormedAuthority d.authority := by
  obtain ⟨top, htop, -, -, -, hbody⟩ := shape_inv h
  simp only [bodyFailures, List.append_eq_nil_iff, require_eq_nil] at hbody
  obtain ⟨⟨⟨⟨⟨⟨⟨⟨⟨-, hid⟩, hparent⟩, hissuer⟩, hsubject⟩, hmethod⟩, hissued⟩, -⟩, hsignature⟩, hauthority⟩ := hbody
  obtain ⟨id, hid, -⟩ := stringWhere_read hid
  obtain ⟨issuer, hissuer⟩ := name_read hissuer
  obtain ⟨subject, hsubject⟩ := name_read hsubject
  obtain ⟨method, hmethod⟩ := name_read hmethod
  obtain ⟨issued, hissued, -⟩ := @stringWhere_read canonicalTimestamp _ hissued
  obtain ⟨signature, hsignature, -⟩ := stringWhere_read hsignature
  obtain ⟨authority, hauthority, hwf⟩ := authority_read hauthority
  have hnullable : ∃ p, nullable? (field top "parent_delegation_id") = some p := by
    split at hparent
    · rename_i heq
      exact ⟨none, by rw [heq]; rfl⟩
    · obtain ⟨s, hs, -⟩ := stringWhere_read hparent
      refine ⟨some s, ?_⟩
      unfold str? at hs
      split at hs
      · rename_i heq
        cases hs
        rw [heq]
        rfl
      · cases hs
  obtain ⟨parent, hparent⟩ := hnullable
  refine ⟨⟨id, parent, issuer, subject, method, issued, authority, signature⟩, ?_, hwf⟩
  simp only [readDelegation, htop, hid, hparent, hissuer, hsubject, hmethod, hissued, hauthority, hsignature,
    Option.bind_eq_bind, Option.bind_some, Option.pure_def]

/-- A snapshot that has passed the schema. -/
structure ShapedRecord where
  value : JsValue
  shape : shapeFailures value = []

theorem ShapedRecord.eq_of_value {r r' : ShapedRecord} (h : r.value = r'.value) : r = r' := by
  obtain ⟨value, shape⟩ := r
  obtain ⟨value', shape'⟩ := r'
  cases h
  rfl

def ShapedRecord.delegation (r : ShapedRecord) : AuthorityDelegation :=
  (readDelegation r.value).get (by
    obtain ⟨d, hd, -⟩ := delegation_read r.shape
    rw [hd]
    rfl)

theorem ShapedRecord.read_eq (r : ShapedRecord) : readDelegation r.value = some r.delegation := by
  rw [ShapedRecord.delegation, Option.some_get]

theorem ShapedRecord.wellFormed (r : ShapedRecord) : WellFormedAuthority r.delegation.authority := by
  obtain ⟨d, hd, hwf⟩ := delegation_read r.shape
  have heq : d = r.delegation := Option.some.inj (hd.symm.trans r.read_eq)
  exact heq ▸ hwf

end AgentPassport.DelegationSchema
