import AgentPassport.JsArithmetic
import AgentPassport.LegacyCanonical
import AgentPassport.LegacyScope
import AgentPassport.Rfc3339

/-! The legacy delegation (`core/delegation.ts`): `createDelegation`, `verifyDelegation` and
`subDelegate`. A clock reading is an integer number of milliseconds; every reading and the
random part of an id are arguments. -/
namespace AgentPassport.LegacyDelegation
open JsText Js SeparatedText LegacyCanonical LegacyScope Rfc3339 CivilDate FixedDigits

inductive SpendUnit where
  | currency | invocations
  deriving DecidableEq

inductive ScopeInterpretation where
  | exact | glob | hierarchical
  deriving DecidableEq

structure DerivationRights where
  retention_permitted : Bool
  retention_ttl : Option JsNumber
  derivation_classes : Option (List Str)
  export_permitted : Bool
  deriving DecidableEq

structure Delegation where
  delegationId : Str
  delegatedTo : Str
  delegatedBy : Str
  scope : List Str
  scopeInterpretation : Option ScopeInterpretation
  expiresAt : Str
  spendLimit : Option JsNumber
  spentAmount : Option JsNumber
  spendLimitUnit : Option SpendUnit
  maxDepth : JsNumber
  currentDepth : JsNumber
  createdAt : Str
  notBefore : Option Str
  derivation_rights : Option DerivationRights
  observation_policy : Option JsValue
  credentialCheckPolicy : Option JsValue
  signature : Str

/-- Ed25519 and `JSON.stringify` on finite numbers; signing fails on a malformed key. -/
structure Primitives where
  sign : Str → Str → Option Str
  verify : Str → Str → Str → Bool
  numText : Double → Str

def Primitives.text (P : Primitives) : JsNumber → Str := JsNumber.text P.numText

def unitText : SpendUnit → Str
  | .currency => lit "currency"
  | .invocations => lit "invocations"

def interpretationText : ScopeInterpretation → Str
  | .exact => lit "exact"
  | .glob => lit "glob"
  | .hierarchical => lit "hierarchical"

def reasonText : Rfc3339FailureReason → Str
  | .notAString => lit "not_a_string"
  | .malformed => lit "malformed"
  | .fieldOutOfRange => lit "field_out_of_range"
  | .leapSecond => lit "leap_second"
  | .notRepresentable => lit "not_representable"

inductive DelegationError where
  | delegatedTo
  | delegatedBy
  | privateKey
  | spendLimit (given : JsNumber)
  | telemetry
  | notRepresentable
  | canonical (error : LegacyError)
  | signing
  | depthLimit (newDepth maxDepth : JsNumber)
  | scopeViolation (invalid parent : List Str)
  | retention
  | retentionTtl (child parent : JsNumber)
  | exporting
  | classes (invalid parent : List Str)
  | introducedRights
  | spendUnit (child parent : SpendUnit)
  | spendExceeds (limit remaining : JsNumber)
  | invalidExpiry (reason : Rfc3339FailureReason)
  | expiredParent
  | invalidParent (errors : List Str)
  deriving DecidableEq

def commaText (strings : List Str) : Str := join 0x2C strings

def DelegationError.message (P : Primitives) : DelegationError → Str
  | .delegatedTo => lit "createDelegation: delegatedTo must be a non-empty string"
  | .delegatedBy => lit "createDelegation: delegatedBy must be a non-empty string"
  | .privateKey => lit "createDelegation: privateKey must be a non-empty string"
  | .spendLimit given =>
    lit "createDelegation: spendLimit must be a non-negative finite number, got " ++ P.text given
  | .telemetry => lit "createDelegation: telemetry scopes require derivation_rights to be defined"
  | .notRepresentable => lit "formatRfc3339: instant is not representable"
  | .canonical .bigint => lit "Do not know how to serialize a BigInt"
  | .canonical (.unsafeInteger path) => path ++ lit ": integer exceeds the interoperable IEEE 754 range"
  | .signing => lit "Invalid hex string"
  | .depthLimit newDepth maxDepth =>
    lit "Depth limit exceeded: would be depth " ++ P.text newDepth ++ lit ", max allowed is " ++ P.text maxDepth
  | .scopeViolation invalid parent =>
    lit "Scope violation: [" ++ commaText invalid ++ lit "] not in parent scope [" ++ commaText parent ++ lit "]"
  | .retention => lit "Derivation rights violation: parent does not permit retention"
  | .retentionTtl child parent =>
    lit "Derivation rights violation: child retention_ttl (" ++ P.text child ++ lit ") exceeds parent ("
      ++ P.text parent ++ lit ")"
  | .exporting => lit "Derivation rights violation: parent does not permit export"
  | .classes invalid parent =>
    lit "Derivation rights violation: classes [" ++ commaText invalid ++ lit "] not in parent ["
      ++ commaText parent ++ lit "]"
  | .introducedRights =>
    lit "Derivation rights violation: parent delegation has no derivation_rights " ++ [0x2014]
      ++ lit " child cannot introduce them"
  | .spendUnit child parent =>
    lit "Spend unit change rejected at the narrowing layer: child spendLimitUnit \"" ++ unitText child
      ++ lit "\" differs from parent \"" ++ unitText parent
      ++ lit "\". subDelegate does not convert spend units; a declared currency conversion belongs at the payment-rails layer (v2 preAuthorize)."
  | .spendExceeds limit remaining =>
    lit "Spend limit " ++ P.text limit ++ lit " exceeds parent remaining " ++ P.text remaining
  | .invalidExpiry reason =>
    lit "cannot sub-delegate: parent delegation has an invalid expiresAt (" ++ reasonText reason ++ lit ")"
  | .expiredParent => lit "cannot sub-delegate from an expired parent delegation"
  | .invalidParent errors => lit "cannot sub-delegate from an invalid parent: " ++ commaText errors

structure CreateDelegationOptions where
  delegatedTo : Str
  delegatedBy : Str
  scope : List Str
  scopeInterpretation : Option ScopeInterpretation
  spendLimit : Option JsNumber
  spendLimitUnit : Option SpendUnit
  maxDepth : Option JsNumber
  currentDepth : Option JsNumber
  expiresInHours : Option JsNumber
  expiresAt : Option Str
  notBefore : Option Str
  derivation_rights : Option DerivationRights
  observation_policy : Option JsValue
  credentialCheckPolicy : Option JsValue
  privateKey : Str

/-- `new Date(ms).toISOString()`: outside the four-digit years the year has a sign and six digits. -/
def toISOString (ms : Int) : Str :=
  match formatRfc3339 ms with
  | .ok s => s
  | .error _ =>
    let date := civilFromDays (ms / 86400000)
    let rest := ms % 86400000
    spell ((if date.year < 0 then 0x2D else 0x2B) :: pad date.year.natAbs 6) (pad date.month.toNat 2)
      (pad date.day.toNat 2) (pad (rest / 3600000).toNat 2) (pad (rest % 3600000 / 60000).toNat 2)
      (pad (rest % 60000 / 1000).toNat 2) (pad (rest % 1000).toNat 3)

def rightsValue (r : DerivationRights) : JsValue :=
  .obj ([(lit "retention_permitted", JsValue.bool r.retention_permitted)]
    ++ (match r.retention_ttl with | some n => [(lit "retention_ttl", JsValue.num n)] | none => [])
    ++ (match r.derivation_classes with
      | some classes => [(lit "derivation_classes", JsValue.arr (classes.map JsValue.str))]
      | none => [])
    ++ [(lit "export_permitted", JsValue.bool r.export_permitted)])

/-- A member that is there only when its value is. -/
def given (name : String) : Option JsValue → List (Str × JsValue)
  | some v => [(lit name, v)]
  | none => []

def spendValue : Option JsNumber → JsValue
  | some n => .num n
  | none => .undefined

/-- The record without its signature, as the object that is signed. -/
def unsignedValue (d : Delegation) : JsValue :=
  .obj ([(lit "delegationId", JsValue.str d.delegationId), (lit "delegatedTo", .str d.delegatedTo),
      (lit "delegatedBy", .str d.delegatedBy), (lit "scope", .arr (d.scope.map JsValue.str))]
    ++ given "scopeInterpretation" (d.scopeInterpretation.map (fun i => JsValue.str (interpretationText i)))
    ++ [(lit "expiresAt", JsValue.str d.expiresAt), (lit "spendLimit", spendValue d.spendLimit),
      (lit "spentAmount", spendValue d.spentAmount)]
    ++ given "spendLimitUnit" (d.spendLimitUnit.map (fun u => JsValue.str (unitText u)))
    ++ [(lit "maxDepth", JsValue.num d.maxDepth), (lit "currentDepth", .num d.currentDepth),
      (lit "createdAt", .str d.createdAt)]
    ++ given "notBefore" (d.notBefore.map JsValue.str)
    ++ given "derivation_rights" (d.derivation_rights.map rightsValue)
    ++ given "observation_policy" d.observation_policy
    ++ given "credentialCheckPolicy" d.credentialCheckPolicy)

/-- The text of a canonicalizer; of an object it is never undefined. -/
def canonicalText (r : Except LegacyError (Option Str)) : Except DelegationError Str :=
  match r with
  | .ok text => return text.getD []
  | .error e => throw (.canonical e)

def checkSpendLimit : Option JsNumber → Except DelegationError Unit
  | none => pure ()
  | some n =>
    match n with
    | .finite d => if n.lt (zeroOf false) then throw (.spendLimit (.finite d)) else pure ()
    | _ => throw (.spendLimit n)

/-- `opts.expiresAt ?? formatRfc3339(Math.trunc(now + (opts.expiresInHours ?? 24) * 3600000))`. -/
def expiryOf (now : Int) (expiresAt : Option Str) (expiresInHours : Option JsNumber) :
    Except DelegationError Str :=
  match expiresAt with
  | some s => return s
  | none =>
    match (JsNumber.ofInt now).add ((expiresInHours.getD (.ofInt 24)).mulNat 3600000) with
    | .finite d =>
      match formatRfc3339 d.trunc with
      | .ok s => return s
      | .error _ => throw .notRepresentable
    | _ => throw .notRepresentable

section
variable (P : Primitives)

def signDelegation (d : Delegation) (privateKey : Str) : Except DelegationError Delegation := do
  let canonical ← canonicalText (canonicalizeForWrite P.numText (lit "$") (unsignedValue d))
  match P.sign canonical privateKey with
  | some signature => return { d with signature := signature }
  | none => throw .signing

def checkCreate (opts : CreateDelegationOptions) : Except DelegationError Unit :=
  if opts.delegatedTo = [] then throw .delegatedTo
  else if opts.delegatedBy = [] then throw .delegatedBy
  else if opts.privateKey = [] then throw .privateKey
  else do
    checkSpendLimit opts.spendLimit
    if opts.scope.any (fun s => startsWith s (lit "telemetry:")) ∧ opts.derivation_rights = none then
      throw .telemetry
    else pure ()

def buildDelegation (now : Int) (uuid expiresAt : Str) (opts : CreateDelegationOptions) : Delegation where
  delegationId := lit "del_" ++ uuid.take 12
  delegatedTo := opts.delegatedTo
  delegatedBy := opts.delegatedBy
  scope := opts.scope
  scopeInterpretation := opts.scopeInterpretation
  expiresAt := expiresAt
  spendLimit := opts.spendLimit
  spentAmount := some (zeroOf false)
  spendLimitUnit := opts.spendLimitUnit
  maxDepth := opts.maxDepth.getD (.ofInt 1)
  currentDepth := opts.currentDepth.getD (zeroOf false)
  createdAt := toISOString now
  notBefore := some (opts.notBefore.getD (toISOString now))
  derivation_rights := opts.derivation_rights
  observation_policy := opts.observation_policy
  credentialCheckPolicy := opts.credentialCheckPolicy
  signature := []

def createDelegation (now : Int) (uuid : Str) (opts : CreateDelegationOptions) :
    Except DelegationError Delegation := do
  checkCreate opts
  let expiresAt ← expiryOf now opts.expiresAt opts.expiresInHours
  signDelegation P (buildDelegation now uuid expiresAt opts) opts.privateKey

inductive RevocationCheckPolicy where
  | failOpen | failClosed | cacheGrace
  deriving DecidableEq

structure CachedRevocationState where
  revoked : Bool
  checkedAt : Str
  deriving DecidableEq

structure RevocationCheckOptions where
  revocationCheckPolicy : Option RevocationCheckPolicy
  cachedRevocationState : Option CachedRevocationState
  cacheGraceMs : Option JsNumber
  deriving DecidableEq

inductive Evidence where
  | absent | stale | fresh
  deriving DecidableEq

structure DelegationStatus where
  valid : Bool
  revoked : Bool
  expired : Bool
  notYetValid : Bool
  depthExceeded : Bool
  revokedAt : Option Str
  errors : List Str
  revocationEvidence : Evidence
  deriving DecidableEq

/-- The readings of one call of `subDelegate`, in the order they are taken. -/
structure Readings where
  guard : Int
  expiry : Int
  notBefore : Int
  cache : Int
  created : Int

def expiryErrors (now : Int) (expiresAt : Str) : List Str :=
  match parseRfc3339 (.str expiresAt) with
  | .error reason => [lit "Invalid expiresAt (" ++ reasonText reason ++ lit ")"]
  | .ok ms => if ms < now then [lit "Delegation expired"] else []

/-- The errors of the lower end of the window, and whether it is seen to lie ahead. -/
def notBeforeErrors (now : Int) : Option Str → List Str × Bool
  | none => ([], false)
  | some notBefore =>
    if notBefore = [] then ([], false)
    else match parseRfc3339 (.str notBefore) with
      | .error reason => ([lit "Invalid notBefore (" ++ reasonText reason ++ lit ")"], false)
      | .ok ms =>
        if now < ms then ([lit "Delegation not yet valid (notBefore: " ++ notBefore ++ lit ")"], true)
        else ([], false)

def DEFAULT_REVOCATION_FRESHNESS_MS : JsNumber := .ofInt 300000

/-- The grade of the cached evidence, and whether its time cannot be read. -/
def gradeEvidence (now : Int) (freshnessMs : JsNumber) : Option CachedRevocationState → Evidence × Bool
  | none => (.absent, false)
  | some cached =>
    match parseRfc3339 (.str cached.checkedAt) with
    | .error _ => (.stale, true)
    | .ok ms =>
      let age := now - ms
      (if 0 ≤ age ∧ (JsNumber.ofInt age).le freshnessMs = true then .fresh else .stale, false)

def revokedErrors (policy : RevocationCheckPolicy) (evidence : Evidence) (unreadable : Bool) :
    Option CachedRevocationState → Bool × List Str
  | none => (false, [])
  | some cached =>
    let converted := policy = .cacheGrace ∧ evidence = .stale
    let first :=
      if converted then
        [if unreadable then lit "Revocation cache timestamp is unreadable, treating as revoked"
          else lit "Revocation cache expired, treating as revoked"]
      else []
    let revoked := decide converted || cached.revoked
    (revoked, first ++ if revoked then [lit "Revoked (cached state checked " ++ cached.checkedAt ++ lit ")"] else [])

def failClosedErrors (policy : RevocationCheckPolicy) (evidence : Evidence) (unreadable : Bool)
    (freshnessMs : JsNumber) : List Str :=
  if policy = .failClosed ∧ evidence ≠ .fresh then
    [if evidence = .absent then lit "fail_closed: no revocation evidence supplied, revocation status unknown"
      else if unreadable then
        lit "fail_closed: revocation evidence timestamp is unreadable, revocation status unknown"
      else lit "fail_closed: revocation evidence is stale (older than " ++ P.text freshnessMs
        ++ lit "ms), revocation status unknown"]
  else []

def verifyDelegation (r : Readings) (delegation : Delegation) (opts : Option RevocationCheckOptions) :
    Except DelegationError DelegationStatus := do
  let policy := (opts.bind (·.revocationCheckPolicy)).getD .failOpen
  let canonical ← canonicalText (canonicalize P.numText (unsignedValue delegation))
  let signatureErrors :=
    if P.verify canonical delegation.signature delegation.delegatedBy then []
    else [lit "Invalid delegation signature"]
  let expiry := expiryErrors r.expiry delegation.expiresAt
  let (early, notYetValid) := notBeforeErrors r.notBefore delegation.notBefore
  let freshnessMs := (opts.bind (·.cacheGraceMs)).getD DEFAULT_REVOCATION_FRESHNESS_MS
  let cached := opts.bind (·.cachedRevocationState)
  let (evidence, unreadable) := gradeEvidence r.cache freshnessMs cached
  let (revoked, revocation) := revokedErrors policy evidence unreadable cached
  let depthExceeded := delegation.maxDepth.lt delegation.currentDepth
  let errors := signatureErrors ++ expiry ++ early ++ revocation
    ++ failClosedErrors P policy evidence unreadable freshnessMs
    ++ if depthExceeded then [lit "Depth limit exceeded"] else []
  return ⟨errors.isEmpty, revoked, !expiry.isEmpty, notYetValid, depthExceeded,
    if revoked then cached.map (·.checkedAt) else none, errors, evidence⟩

structure SubDelegateOptions where
  parentDelegation : Delegation
  delegatedTo : Str
  scope : List Str
  spendLimit : Option JsNumber
  spendLimitUnit : Option SpendUnit
  derivation_rights : Option DerivationRights
  privateKey : Str
  revocation : Option RevocationCheckOptions

def nextDepth (parent : Delegation) : JsNumber := parent.currentDepth.add (.ofInt 1)

def checkDepth (parent : Delegation) : Except DelegationError Unit :=
  if parent.maxDepth.lt (nextDepth parent) then throw (.depthLimit (nextDepth parent) parent.maxDepth)
  else pure ()

def checkScope (parent : Delegation) (scope : List Str) : Except DelegationError Unit :=
  let invalidScopes := scope.filter (fun s => !parent.scope.any (fun ps => scopeCovers ps s))
  if 0 < invalidScopes.length then throw (.scopeViolation invalidScopes parent.scope) else pure ()

/-- A permission the parent does not have is not given. -/
def checkPermitted (parent child : Bool) (e : DelegationError) : Except DelegationError Unit :=
  if !parent && child then throw e else pure ()

def checkTtl : Option JsNumber → Option JsNumber → Except DelegationError Unit
  | some parent, some child => if parent.lt child then throw (.retentionTtl child parent) else pure ()
  | _, _ => pure ()

def checkClasses : Option (List Str) → Option (List Str) → Except DelegationError Unit
  | some parent, some child =>
    let invalid := child.filter (fun c => !parent.contains c)
    if 0 < invalid.length then throw (.classes invalid parent) else pure ()
  | _, _ => pure ()

def checkRights : Option DerivationRights → Option DerivationRights → Except DelegationError Unit
  | some pr, some cr => do
    checkPermitted pr.retention_permitted cr.retention_permitted .retention
    checkTtl pr.retention_ttl cr.retention_ttl
    checkPermitted pr.export_permitted cr.export_permitted .exporting
    checkClasses pr.derivation_classes cr.derivation_classes
  | none, some _ => throw .introducedRights
  | _, none => pure ()

/-- The unit of a delegation's budget: a limit without a unit is in currency. -/
def unitOf (d : Delegation) : Option SpendUnit :=
  d.spendLimitUnit.or (if d.spendLimit.isSome then some .currency else none)

def childUnit (opts : SubDelegateOptions) : Option SpendUnit :=
  opts.spendLimitUnit.or (unitOf opts.parentDelegation)

/-- A unit of its own is refused once the parent has one. -/
def checkUnit (opts : SubDelegateOptions) : Except DelegationError Unit :=
  match unitOf opts.parentDelegation, childUnit opts with
  | some parent, some child => if child = parent then pure () else throw (.spendUnit child parent)
  | _, _ => pure ()

/-- `(parent.spendLimit ?? Infinity) - (parent.spentAmount ?? 0)`. -/
def remaining (d : Delegation) : JsNumber :=
  (d.spendLimit.getD (.infinite false)).sub (d.spentAmount.getD (zeroOf false))

def sharesFiniteParentBudget (opts : SubDelegateOptions) : Bool :=
  (unitOf opts.parentDelegation).isSome && decide (childUnit opts = unitOf opts.parentDelegation)
    && opts.parentDelegation.spendLimit.isSome

def checkSpend (opts : SubDelegateOptions) : Except DelegationError Unit :=
  match opts.spendLimit with
  | some limit =>
    if sharesFiniteParentBudget opts && (remaining opts.parentDelegation).lt limit then
      throw (.spendExceeds limit (remaining opts.parentDelegation))
    else pure ()
  | none => pure ()

def parentExpiry (now : Int) (parent : Delegation) : Except DelegationError Int :=
  match parseRfc3339 (.str parent.expiresAt) with
  | .error reason => throw (.invalidExpiry reason)
  | .ok ms => if ms - now ≤ 0 then throw .expiredParent else return ms

def checkParent (r : Readings) (opts : SubDelegateOptions) : Except DelegationError Unit := do
  let status ← verifyDelegation P r opts.parentDelegation opts.revocation
  if status.valid then pure () else throw (.invalidParent status.errors)

def childExpiresAt (now parentExpiryMs : Int) : Except DelegationError Str :=
  match formatRfc3339 (min (now + 24 * 3600000) parentExpiryMs) with
  | .ok s => return s
  | .error _ => throw .notRepresentable

/-- The options of the record a successful call creates. -/
def childOptions (opts : SubDelegateOptions) (expiresAt : Str) : CreateDelegationOptions where
  delegatedTo := opts.delegatedTo
  delegatedBy := opts.parentDelegation.delegatedTo
  scope := opts.scope
  scopeInterpretation := opts.parentDelegation.scopeInterpretation
  spendLimit := opts.spendLimit.or
    (if sharesFiniteParentBudget opts then some (remaining opts.parentDelegation) else none)
  spendLimitUnit := childUnit opts
  maxDepth := some opts.parentDelegation.maxDepth
  currentDepth := some (nextDepth opts.parentDelegation)
  expiresInHours := none
  expiresAt := some expiresAt
  notBefore := opts.parentDelegation.notBefore
  derivation_rights := opts.derivation_rights.or opts.parentDelegation.derivation_rights
  observation_policy := opts.parentDelegation.observation_policy
  credentialCheckPolicy := none
  privateKey := opts.privateKey

def subDelegate (r : Readings) (uuid : Str) (opts : SubDelegateOptions) : Except DelegationError Delegation := do
  checkDepth opts.parentDelegation
  checkScope opts.parentDelegation opts.scope
  checkRights opts.parentDelegation.derivation_rights opts.derivation_rights
  checkUnit opts
  checkSpend opts
  let parentExpiryMs ← parentExpiry r.guard opts.parentDelegation
  checkParent P r opts
  let expiresAt ← childExpiresAt r.guard parentExpiryMs
  createDelegation P r.created uuid (childOptions opts expiresAt)

end

end AgentPassport.LegacyDelegation
