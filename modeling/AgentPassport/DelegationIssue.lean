import AgentPassport.CanonicalWrite
import AgentPassport.DelegationChain
import AgentPassport.DelegationJson
import Mathlib.Data.List.Chain

/-! Issuing a delegation (`v2/authority-delegation/issue.ts`): the checks before signing read
a probe with a zero id and signature, and hash on the write path. What they let through, the
chain verifier accepts. -/
namespace AgentPassport.DelegationIssue
open JsText Js CanonicalJcs PlainData DelegationSchema DelegationCompare DelegationVerify DelegationChain
open CanonicalWrite DelegationJson Outcome

/-- What an issuer throws. A refusal's text ends in its code, in parentheses. -/
inductive IssueError where
  | refused (message : String) (code : AuthorityFailureCode)
  /-- The resolver named an outcome that every object inherits, and that member is the code. -/
  | inheritedOutcome (name : Str)
  | canonical (e : JcsError)
  | signing

abbrev Issued := Except IssueError

def refuse {α : Type} (message : String) (code : AuthorityFailureCode) : Issued α :=
  throw (.refused message code)

def orCanonical {α : Type} : Except JcsError α → Issued α
  | .ok a => .ok a
  | .error e => .error (.canonical e)

/-- The own members an object literal takes over from a value it spreads. -/
def spread : JsValue → List (Str × JsValue)
  | .obj members => members
  | .arr items => items.mapIdx (fun i v => (decimal i, v))
  | .str s => s.mapIdx (fun i c => (decimal i, .str [c]))
  | _ => []

def DELEGATION_ID : Str := lit "delegation_id"
def SIGNATURE : Str := lit "signature"

def withIdentity (body : JsValue) (delegationId signature : Str) : JsValue :=
  .obj (setMember SIGNATURE (.str signature) (setMember DELEGATION_ID (.str delegationId) (spread body)))

def zeroId : Str := lit "sha256:" ++ List.replicate 64 0x30
def zeroSignature : Str := List.replicate 128 0x30

/-- `assertBody`; the record it returns has the body's members and is read in its place. -/
def assertBody (body : JsValue) : Issued ShapedRecord :=
  let probe := plain (withIdentity body zeroId zeroSignature)
  match h : validateAuthorityDelegationShape probe with
  | [] => .ok ⟨snapshotPlainData probe, h⟩
  | first :: _ => refuse ("authority delegation body invalid: " ++ first.message) first.code

/-- Whether an object carries an own `delegation_id` or `signature`, whatever its value. -/
def carriesOwnIdentityMember : JsValue → Bool
  | .obj members => members.any (fun m => m.1 = DELEGATION_ID) || members.any (fun m => m.1 = SIGNATURE)
  | _ => false

section
variable (P : Primitives)

def signAuthorityDelegation (delegation : JsValue) (privateKey : Str) : Issued Str := do
  let input ← orCanonical (authorityDelegationSignatureInputForWrite P.numText delegation)
  match P.sign input privateKey with
  | some signature => return signature
  | none => throw .signing

def finalizeAuthorityDelegation (body : JsValue) (privateKey : Str) : Issued JsValue := do
  let delegationId ← orCanonical (computeAuthorityDelegationIdForWrite P body)
  let unsigned := setMember DELEGATION_ID (.str delegationId) (spread body)
  let signature ← signAuthorityDelegation P (.obj unsigned) privateKey
  return .obj (setMember SIGNATURE (.str signature) unsigned)

def bareBody (body : CallerValue) : Issued JsValue :=
  let snapshot := snapshotPlainData body
  if carriesOwnIdentityMember snapshot then
    refuse "authority delegation body must carry neither delegation_id nor signature" .SCHEMA_INVALID
  else .ok snapshot

def issueAuthorityDelegation (body : CallerValue) (privateKey : Str) : Issued JsValue := do
  let snapshot ← bareBody body
  let probe ← assertBody snapshot
  if probe.delegation.parentDelegationId ≠ none then
    refuse "authority delegation root body must have a null parent_delegation_id" .PARENT_MISMATCH
  finalizeAuthorityDelegation P snapshot privateKey

/-- The options as read: a member that cannot be read is `undefined`. -/
structure SubAuthorityIssueOptions where
  now : JsValue
  resolveVerificationKey : Str → Str → Str → KeyAnswer
  resolveRevocation : JsValue → RevocationAnswer

def canonicalNow (now : JsValue) : Issued Str :=
  match str? now, isCanonicalTimestamp now with
  | some s, true => .ok s
  | _, _ => refuse "authority delegation now must be a canonical UTC-millisecond timestamp" .NONCANONICAL_VALUE

/-- The names `Object.prototype` answers to. -/
def inheritedNames : List Str :=
  ["constructor", "__defineGetter__", "__defineSetter__", "hasOwnProperty", "__lookupGetter__",
    "__lookupSetter__", "isPrototypeOf", "propertyIsEnumerable", "toString", "valueOf", "__proto__",
    "toLocaleString"].map lit

/-- `KEY_OUTCOME_CODES`. -/
def keyOutcomeCode (outcome : Str) : AuthorityFailureCode :=
  if outcome = lit "unsupported_scheme" then .KEY_SCHEME_UNSUPPORTED
  else if outcome = lit "not_found" then .KEY_NOT_FOUND
  else if outcome = lit "ambiguous" then .KEY_AMBIGUOUS
  else if outcome = lit "unreachable" then .KEY_UNREACHABLE
  else if outcome = lit "malformed" then .KEY_MATERIAL_MALFORMED
  else .KEY_RESOLUTION_FAILED

def parentKey : KeyAnswer → Issued Str
  | .key material =>
    if isKeyMaterial material then .ok material
    else refuse "authority delegation parent issuer key material is structurally malformed"
      .KEY_MATERIAL_MALFORMED
  | .outcome name =>
    if name ∈ inheritedNames then throw (.inheritedOutcome name)
    else refuse "authority delegation parent issuer verification key could not be resolved"
      (keyOutcomeCode name)
  | .other =>
    refuse "authority delegation parent issuer verification key could not be resolved"
      .KEY_RESOLUTION_FAILED

/-- The shape check of the parent's snapshot. -/
def assertParent (parent : CallerValue) : Issued ShapedRecord :=
  let snapshot := plain (snapshotPlainData parent)
  match h : validateAuthorityDelegationShape snapshot with
  | [] => .ok ⟨snapshotPlainData snapshot, h⟩
  | first :: _ => refuse "authority delegation parent invalid" first.code

def verifyParent (options : SubAuthorityIssueOptions) (now : Str) (parent : ShapedRecord) : Issued Unit := do
  let expectedParentId ← orCanonical (computeAuthorityDelegationId P (authorityDelegationBody parent.value))
  if expectedParentId ≠ parent.delegation.delegationId then
    refuse "authority delegation parent content address does not match its body" .ID_MISMATCH
  let key ← parentKey (options.resolveVerificationKey parent.delegation.issuer
    parent.delegation.verificationMethod parent.delegation.issuedAt)
  let verified ← orCanonical (verifyAuthorityDelegationSignature P parent.value parent.delegation.signature key)
  if !verified then
    refuse "authority delegation parent Ed25519 signature is invalid" .SIGNATURE_INVALID
  if now < parent.delegation.authority.time.notBefore then
    refuse "authority delegation parent is not yet valid at now" .NOT_YET_VALID
  if parent.delegation.authority.time.notAfter ≤ now then
    refuse "authority delegation parent has expired at now" .EXPIRED
  match options.resolveRevocation (snapshotPlainData (plain parent.value)) with
  | .revoked => refuse "authority delegation parent is revoked" .REVOKED
  | .other => refuse "authority delegation parent revocation status is unknown" .REVOCATION_UNKNOWN
  | .active => pure ()

def assertChild (parent child : AuthorityDelegation) : Issued Unit := do
  if child.parentDelegationId ≠ some parent.delegationId then
    refuse "authority delegation parent mismatch" .PARENT_MISMATCH
  if child.issuer ≠ parent.subject then
    refuse "authority delegation chain continuity failure" .CHAIN_CONTINUITY
  if child.issuedAt < parent.authority.time.notBefore ∨ parent.authority.time.notAfter ≤ child.issuedAt then
    refuse "authority delegation issued_at is outside parent validity" .ISSUED_AT_OUTSIDE_PARENT
  match compareAuthority parent.authority child.authority with
  | [] => pure ()
  | first :: _ => refuse "authority delegation does not narrow" first.code

def issueSubAuthorityDelegation (parent body : CallerValue) (privateKey : Str)
    (options : SubAuthorityIssueOptions) : Issued JsValue := do
  let now ← canonicalNow options.now
  let parentRecord ← assertParent parent
  verifyParent P options now parentRecord
  let bodySnapshot ← bareBody body
  let probe ← assertBody bodySnapshot
  assertChild parentRecord.delegation probe.delegation
  finalizeAuthorityDelegation P bodySnapshot privateKey

end

theorem orCanonical_eq_ok {α : Type} {x : Except JcsError α} {a : α} :
    orCanonical x = .ok a ↔ x = .ok a := by
  cases x with
  | error e => simp [orCanonical]
  | ok b => simp [orCanonical]

theorem assertParent_ok {parent : CallerValue} {r : ShapedRecord} (h : assertParent parent = .ok r) :
    r.value = snapshotPlainData parent := by
  unfold assertParent at h
  simp only at h
  split at h
  · cases h
    exact snapshot_idem parent
  · cases h

variable {probe : ShapedRecord}

theorem assertBody_ok {body : JsValue} (h : assertBody body = .ok probe) :
    probe.value = snapshotPlainData (plain (withIdentity body zeroId zeroSignature)) := by
  unfold assertBody at h
  simp only at h
  split at h
  · cases h
    rfl
  · cases h

theorem refuse_unless_ok {α : Type} {c : Prop} [Decidable c] {message : String} {code : AuthorityFailureCode}
    {rest : Issued α} {a : α} :
    (if c then (refuse message code : Issued PUnit) >>= fun _ => rest else rest) = .ok a ↔
      ¬ c ∧ rest = .ok a := by
  split
  · rename_i hc
    refine iff_of_false ?_ (fun h => h.1 hc)
    intro h
    cases h
  · rename_i hc
    exact (and_iff_right hc).symm

/-- The parent and child of an issuance pass the pairwise phases of the verifier. -/
structure Follows (parent child : AuthorityDelegation) : Prop where
  linked : child.parentDelegationId = some parent.delegationId
  continuous : child.issuer = parent.subject
  issued : parent.authority.time.notBefore ≤ child.issuedAt ∧ child.issuedAt < parent.authority.time.notAfter
  narrowing : compareAuthority parent.authority child.authority = []

theorem assertChild_ok {parent child : AuthorityDelegation} (h : assertChild parent child = .ok ()) :
    Follows parent child := by
  unfold assertChild at h
  simp only [refuse_unless_ok, not_not, not_or, List.not_lt, List.not_le] at h
  obtain ⟨hlinked, hcontinuous, hissued, hcompare⟩ := h
  refine ⟨hlinked, hcontinuous, hissued, ?_⟩
  split at hcompare
  · rename_i hnil
    exact hnil
  · cases hcompare

def signed (members : List (Str × JsValue)) (delegationId signature : Str) : List (Str × JsValue) :=
  members ++ [(DELEGATION_ID, JsValue.str delegationId), (SIGNATURE, .str signature)]

/-- No member of a bare body is an id or a signature. -/
def Bare (members : List (Str × JsValue)) : Prop :=
  ∀ m ∈ members, m.1 ≠ DELEGATION_ID ∧ m.1 ≠ SIGNATURE

theorem setMember_id {members : List (Str × JsValue)} (h : Bare members) (delegationId : Str) :
    setMember DELEGATION_ID (.str delegationId) members =
      members ++ [(DELEGATION_ID, JsValue.str delegationId)] :=
  setMember_new _ (fun m hm => (h m hm).1) (by decide)

theorem setMember_signature {members : List (Str × JsValue)} (h : Bare members)
    (delegationId signature : Str) :
    setMember SIGNATURE (.str signature) (members ++ [(DELEGATION_ID, JsValue.str delegationId)]) =
      signed members delegationId signature := by
  rw [setMember_new, signed, List.append_assoc]
  · rfl
  · intro m hm
    obtain hm | hm := List.mem_append.mp hm
    · exact (h m hm).2
    · rw [List.mem_singleton.mp hm]
      show DELEGATION_ID ≠ SIGNATURE
      decide
  · decide

variable {body : CallerValue}

theorem bareBody_ok {snapshot : JsValue} (h : bareBody body = .ok snapshot) :
    snapshot = snapshotPlainData body ∧ carriesOwnIdentityMember snapshot = false := by
  unfold bareBody at h
  simp only at h
  split at h
  · cases h
  · rename_i hbare
    cases h
    exact ⟨rfl, by simpa using hbare⟩

theorem bare_of_not_carries {members : List (Str × JsValue)}
    (h : carriesOwnIdentityMember (.obj members) = false) : Bare members := by
  intro m hm
  simp only [carriesOwnIdentityMember, Bool.or_eq_false_iff, List.any_eq_false, decide_eq_true_eq] at h
  exact ⟨h.1 m hm, h.2 m hm⟩

theorem spread_isSnapshot {v : JsValue} (h : IsSnapshot v) : ∀ m ∈ spread v, IsSnapshot m.2 := by
  intro m hm
  cases h with
  | obj _ hmembers => exact hmembers m hm
  | arr hitems =>
    obtain ⟨i, hi, rfl⟩ := List.mem_mapIdx.mp hm
    exact hitems _ (List.getElem_mem _)
  | str s =>
    obtain ⟨i, hi, rfl⟩ := List.mem_mapIdx.mp hm
    exact .str _
  | null => cases hm
  | bool b => cases hm
  | num d => cases hm
  | marker => cases hm

variable {s : Str}

theorem field_mem {members : List (Str × JsValue)} {name : String} (h : str? (field members name) = some s) :
    ∃ m ∈ members, m.1 = lit name := by
  cases hfind : members.find? (fun m => m.1 = lit name) with
  | none =>
    rw [field, member?, hfind] at h
    cases h
  | some m => exact ⟨m, find_name hfind⟩

theorem spread_names {v : JsValue} (hobj : ∀ members, v ≠ .obj members) {m : Str × JsValue}
    (hm : m ∈ spread v) : ∃ i, m.1 = decimal i := by
  unfold spread at hm
  split at hm
  · exact absurd rfl (hobj _)
  · obtain ⟨i, hi, rfl⟩ := List.mem_mapIdx.mp hm
    exact ⟨i, rfl⟩
  · obtain ⟨i, hi, rfl⟩ := List.mem_mapIdx.mp hm
    exact ⟨i, rfl⟩
  · cases hm

theorem probe_value {snapshot : JsValue} (hbare : bareBody body = .ok snapshot)
    (hprobe : assertBody snapshot = .ok probe) :
    ∃ members, snapshot = .obj members ∧ Bare members ∧ (∀ m ∈ members, IsSnapshot m.2) ∧
      probe.value = .obj (signed members zeroId zeroSignature) := by
  obtain ⟨rfl, hcarries⟩ := bareBody_ok hbare
  have hsnapshot := isSnapshot_snapshot body
  have hmembers : ∀ m ∈ setMember SIGNATURE (.str zeroSignature)
      (setMember DELEGATION_ID (.str zeroId) (spread (snapshotPlainData body))), IsSnapshot m.2 := by
    intro m hm
    obtain rfl | hm := mem_setMember hm
    · exact .str _
    obtain rfl | hm := mem_setMember hm
    · exact .str _
    · exact spread_isSnapshot hsnapshot m hm
  obtain ⟨top, htop, htype, -⟩ := shape_inv probe.shape
  have hvalue := assertBody_ok hprobe
  obtain hobj | hmarker := snapshot_plain_obj hmembers
  · rw [withIdentity, hobj] at hvalue
    rw [hvalue] at htop
    cases htop
    by_cases hbody : ∃ members, snapshotPlainData body = .obj members
    · obtain ⟨members, hbody⟩ := hbody
      rw [hbody] at hcarries hsnapshot hvalue
      have hbare' := bare_of_not_carries hcarries
      refine ⟨members, hbody, hbare', spread_isSnapshot hsnapshot, ?_⟩
      rw [hvalue, spread, setMember_id hbare', setMember_signature hbare']
    · -- An array or a text has no member `record_type`.
      exfalso
      obtain ⟨m, hm, hname⟩ := field_mem htype
      obtain rfl | hm := mem_setMember hm
      · revert hname
        decide
      obtain rfl | hm := mem_setMember hm
      · revert hname
        decide
      obtain ⟨i, hi⟩ := spread_names (fun members h => hbody ⟨members, h⟩) hm
      have hr : (0x72 : UInt16) ∈ decimal i := by
        rw [← hi, hname]
        decide
      exact absurd (decimal_digits hr) (by decide)
  · rw [withIdentity, hmarker] at hvalue
    rw [hvalue] at htop
    cases htop

/-! ### From the probe to the record

The schema reads the id and the signature in one check each, and the other members are those
of the body. -/

section Transfer
variable {members : List (Str × JsValue)} {delegationId signature : Str}

def bodyKeys : List String :=
  ["record_type", "version", "parent_delegation_id", "issuer", "subject", "verification_method", "issued_at",
    "nonce", "authority"]

theorem bodyKeys_ne : ∀ name ∈ bodyKeys, lit name ≠ DELEGATION_ID ∧ lit name ≠ SIGNATURE := by
  decide

theorem field_signed : ∀ name ∈ bodyKeys,
    field (signed members delegationId signature) name = field members name := by
  intro name hname
  obtain ⟨hid, hsignature⟩ := bodyKeys_ne name hname
  have hnone : [(DELEGATION_ID, JsValue.str delegationId), (SIGNATURE, .str signature)].find?
      (fun m => m.1 = lit name) = none := by
    simp [Ne.symm hid, Ne.symm hsignature]
  rw [field, field, member?, member?, signed, List.find?_append, hnone, Option.or_none]

theorem find_bare (hbare : Bare members) {name : Str} (hname : name = DELEGATION_ID ∨ name = SIGNATURE) :
    members.find? (fun m => m.1 = name) = none := by
  rw [List.find?_eq_none]
  intro m hm
  obtain rfl | rfl := hname
  · simpa using (hbare m hm).1
  · simpa using (hbare m hm).2

theorem field_signed_id (hbare : Bare members) :
    field (signed members delegationId signature) "delegation_id" = .str delegationId := by
  have hfind := find_bare hbare (.inl rfl)
  rw [DELEGATION_ID] at hfind
  rw [field, member?, signed, List.find?_append, hfind, Option.none_or]
  simp [DELEGATION_ID]

theorem field_signed_signature (hbare : Bare members) :
    field (signed members delegationId signature) "signature" = .str signature := by
  have hfind := find_bare hbare (.inr rfl)
  have hne : ¬ DELEGATION_ID = lit "signature" := by decide
  rw [SIGNATURE] at hfind
  rw [field, member?, signed, List.find?_append, hfind, Option.none_or]
  simp [hne, SIGNATURE]

theorem exactKeys_signed (delegationId' signature' : Str) (names : List String) :
    exactKeys (signed members delegationId' signature') names =
      exactKeys (signed members delegationId signature) names := by
  simp only [exactKeys, signed, List.map_append, List.map_cons, List.map_nil]

theorem ascii_unit {c : UInt16} (h : c < 0x80) :
    isHigh c = false ∧ isLow c = false ∧ isCharacter c.toNat = true := by
  have hc : c.toNat < 0x80 := UInt16.lt_iff_toNat_lt.mp h
  refine ⟨?_, ?_, ?_⟩
  · rw [isHigh, Bool.and_eq_false_iff]
    left
    rw [decide_eq_false_iff_not, UInt16.le_iff_toNat_le]
    exact Nat.not_le.mpr (hc.trans (by decide))
  · rw [isLow, Bool.and_eq_false_iff]
    left
    rw [decide_eq_false_iff_not, UInt16.le_iff_toNat_le]
    exact Nat.not_le.mpr (hc.trans (by decide))
  · have hlow : ¬ (0xFDD0 ≤ c.toNat) := by omega
    have hlast : c.toNat < 0xFFFE := by omega
    simp [isCharacter, hlow, hlast]

theorem ijson_of_ascii (h : ∀ c ∈ s, c < 0x80) : isIJSONString s = true := by
  fun_induction isIJSONString s with
  | case1 => rfl
  | case2 c =>
    obtain ⟨hhigh, hlow, hchar⟩ := ascii_unit (h c List.mem_cons_self)
    simp [hhigh, hlow, hchar]
  | case3 c d rest hhigh ih =>
    rw [(ascii_unit (h c List.mem_cons_self)).1] at hhigh
    cases hhigh
  | case4 c d rest hhigh ih =>
    obtain ⟨-, hlow, hchar⟩ := ascii_unit (h c List.mem_cons_self)
    rw [ih (fun e he => h e (List.mem_cons_of_mem c he)), hlow, hchar]
    rfl

theorem lowerHex_ascii {n : Nat} (h : isLowerHexOf n s = true) : ∀ c ∈ s, c < 0x80 := by
  intro c hc
  rw [isLowerHexOf, Bool.and_eq_true] at h
  have hhex := List.all_eq_true.mp h.2 c hc
  simp only [isLowerHex, isDigit, Bool.or_eq_true, Bool.and_eq_true, decide_eq_true_eq] at hhex
  obtain ⟨-, hle⟩ | ⟨-, hle⟩ := hhex
  · exact UInt16.lt_of_le_of_lt hle (by decide)
  · exact UInt16.lt_of_le_of_lt hle (by decide)

theorem delegationId_ascii (h : isDelegationId s = true) : ∀ c ∈ s, c < 0x80 := by
  intro c hc
  rw [isDelegationId, Bool.and_eq_true, decide_eq_true_eq] at h
  rw [← List.take_append_drop 7 s] at hc
  obtain hc | hc := List.mem_append.mp hc
  · have hscheme : (lit "sha256:").all (fun d => decide (d < 0x80)) = true := by decide
    exact of_decide_eq_true (List.all_eq_true.mp hscheme c (h.1 ▸ hc))
  · exact lowerHex_ascii h.2 c hc

variable {delegationId' signature' : Str}

theorem ijson_signed (h : membersAreIJSON (signed members delegationId' signature') = true)
    (hid : isDelegationId delegationId = true) (hsignature : isLowerHexOf 128 signature = true) :
    membersAreIJSON (signed members delegationId signature) = true := by
  rw [membersAreIJSON_iff, signed, List.forall_mem_append] at h ⊢
  refine ⟨h.1, ?_⟩
  simp only [List.forall_mem_cons]
  refine ⟨⟨by decide, ?_⟩, ⟨by decide, ?_⟩, List.forall_mem_nil _⟩
  · rw [isIJSONValue]
    exact ijson_of_ascii (delegationId_ascii hid)
  · rw [isIJSONValue]
    exact ijson_of_ascii (lowerHex_ascii hsignature)

theorem shape_signed (hbare : Bare members) (h : shapeFailures (.obj (signed members delegationId' signature')) = [])
    (hid : isDelegationId delegationId = true) (hsignature : isLowerHexOf 128 signature = true) :
    shapeFailures (.obj (signed members delegationId signature)) = [] := by
  obtain ⟨top, htop, htype, hversion, hkeys, hbody⟩ := shape_inv h
  cases htop
  simp only [bodyFailures, List.append_eq_nil_iff, require_eq_nil] at hbody
  obtain ⟨⟨⟨⟨⟨⟨⟨⟨⟨hij, -⟩, hparent⟩, hissuer⟩, hsubject⟩, hmethod⟩, hissued⟩, hnonce⟩, -⟩, hauthority⟩ := hbody
  have hsame : ∀ name ∈ bodyKeys, field (signed members delegationId' signature') name =
      field (signed members delegationId signature) name :=
    fun name hname => (field_signed name hname).trans (field_signed name hname).symm
  simp only [bodyKeys, List.forall_mem_cons] at hsame
  obtain ⟨htype', hversion', hparent', hissuer', hsubject', hmethod', hissued', hnonce', hauthority', -⟩ := hsame
  rw [htype'] at htype
  rw [hversion'] at hversion
  rw [hauthority', hparent', hissued'] at hauthority
  rw [hparent'] at hparent
  rw [hissuer'] at hissuer
  rw [hsubject'] at hsubject
  rw [hmethod'] at hmethod
  rw [hissued'] at hissued
  rw [hnonce'] at hnonce
  have hkeys' : exactKeys (signed members delegationId signature) delegationKeys = true :=
    (exactKeys_signed delegationId signature delegationKeys).trans hkeys
  simp only [shapeFailures, record, htype, hversion, hkeys', ne_eq, not_true_eq_false, if_false, Bool.not_true,
    Bool.false_eq_true, bodyFailures, List.append_eq_nil_iff, require_eq_nil]
  rw [field_signed_id hbare, field_signed_signature hbare]
  exact ⟨⟨⟨⟨⟨⟨⟨⟨⟨ijson_signed hij hid hsignature, hid⟩, hparent⟩, hissuer⟩, hsubject⟩, hmethod⟩, hissued⟩, hnonce⟩,
    hsignature⟩, hauthority⟩

theorem read_signed (hbare : Bare members) {d : AuthorityDelegation}
    (h : readDelegation (.obj (signed members delegationId' signature')) = some d) :
    readDelegation (.obj (signed members delegationId signature)) =
      some { d with delegationId := delegationId, signature := signature } := by
  have hsame : ∀ name ∈ bodyKeys, field (signed members delegationId' signature') name =
      field (signed members delegationId signature) name :=
    fun name hname => (field_signed name hname).trans (field_signed name hname).symm
  simp only [bodyKeys, List.forall_mem_cons] at hsame
  obtain ⟨-, -, hparent', hissuer', hsubject', hmethod', hissued', -, hauthority', -⟩ := hsame
  simp only [readDelegation, record, hparent', hissuer', hsubject', hmethod', hissued', hauthority',
    field_signed_id hbare, field_signed_signature hbare, str?, Option.bind_eq_bind, Option.bind_some,
    Option.bind_eq_some_iff, Option.pure_def, Option.some.injEq] at h ⊢
  obtain ⟨parent, hparent, issuer, hissuer, subject, hsubject, method, hmethod, issued, hissued, authority,
    hauthority, rfl⟩ := h
  exact ⟨parent, hparent, issuer, hissuer, subject, hsubject, method, hmethod, issued, hissued, authority,
    hauthority, rfl⟩

theorem body_signed (hbare : Bare members) :
    authorityDelegationBody (.obj (signed members delegationId signature)) = .obj members := by
  have hkeep : members.filter (fun m => m.1 ≠ lit "delegation_id") = members :=
    List.filter_eq_self.mpr (fun m hm => decide_eq_true (hbare m hm).1)
  have hkeep' : members.filter (fun m => m.1 ≠ lit "signature") = members :=
    List.filter_eq_self.mpr (fun m hm => decide_eq_true (hbare m hm).2)
  have hne : SIGNATURE ≠ lit "delegation_id" := by decide
  rw [authorityDelegationBody, omitMember, omitMember, signed, List.filter_append, hkeep, List.filter_append,
    hkeep']
  simp [DELEGATION_ID, SIGNATURE]

theorem unsigned_signed (hbare : Bare members) :
    unsignedDelegation (.obj (signed members delegationId signature)) =
      .obj (members ++ [(DELEGATION_ID, JsValue.str delegationId)]) := by
  have hkeep : members.filter (fun m => m.1 ≠ lit "signature") = members :=
    List.filter_eq_self.mpr (fun m hm => decide_eq_true (hbare m hm).2)
  have hne : DELEGATION_ID ≠ lit "signature" := by decide
  have hlast : [(DELEGATION_ID, JsValue.str delegationId), (SIGNATURE, .str signature)].filter
      (fun m => m.1 ≠ lit "signature") = [(DELEGATION_ID, .str delegationId)] := by
    refine (List.filter_cons_of_pos ?_).trans (congrArg _ (List.filter_cons_of_neg ?_))
    · exact decide_eq_true hne
    · exact fun h => of_decide_eq_true h rfl
  rw [unsignedDelegation, omitMember, signed, List.filter_append, hkeep, hlast]

end Transfer

/-- What is relied on of a key pair: a signature is 64 bytes in lowercase hexadecimal, and the
public key verifies what the private key signs. -/
structure KeyPair (P : Primitives) (privateKey publicKey : Str) : Prop where
  material : isKeyMaterial publicKey = true
  hex : ∀ m s, P.sign m privateKey = some s → isLowerHexOf 128 s = true
  verifies : ∀ m s, P.sign m privateKey = some s → P.verify m s publicKey = true

section Finalize
variable {P : Primitives} {privateKey publicKey : Str}

theorem computeId_of_write {body : JsValue} {id : Str}
    (h : computeAuthorityDelegationIdForWrite P body = .ok id) :
    computeAuthorityDelegationId P body = .ok id ∧ ∃ m, id = lit "sha256:" ++ P.sha256Hex m := by
  obtain ⟨input, hinput, heq⟩ := bind_eq_ok.mp h
  obtain ⟨text, htext, hinput⟩ := bind_eq_ok.mp hinput
  cases hinput
  cases heq
  refine ⟨?_, _, rfl⟩
  rw [computeAuthorityDelegationId, authorityDelegationIdInput, canonicalizeJCS_of_write htext]
  rfl

theorem isDelegationId_digest {hex : Str} (h : isLowerHexOf 64 hex = true) :
    isDelegationId (lit "sha256:" ++ hex) = true := by
  have hscheme : (lit "sha256:").length = 7 := by decide
  rw [isDelegationId, ← hscheme, List.take_left, List.drop_left, h]
  simp

theorem signature_of_sign {delegation : JsValue} (h : signAuthorityDelegation P delegation privateKey = .ok s) :
    ∃ m, authorityDelegationSignatureInput P.numText delegation = .ok m ∧ P.sign m privateKey = some s := by
  obtain ⟨input, hinput, hsign⟩ := bind_eq_ok.mp h
  obtain ⟨text, htext, hinput⟩ := bind_eq_ok.mp (orCanonical_eq_ok.mp hinput)
  cases hinput
  refine ⟨AUTHORITY_DELEGATION_SIGNATURE_DOMAIN ++ text, ?_, ?_⟩
  · rw [authorityDelegationSignatureInput, canonicalizeJCS_of_write htext]
    rfl
  · split at hsign
    · rename_i s' hs
      cases hsign
      exact hs
    · cases hsign

theorem finalize_ok {members : List (Str × JsValue)} (hbare : Bare members) (hpair : KeyPair P privateKey publicKey)
    {D : JsValue} (h : finalizeAuthorityDelegation P (.obj members) privateKey = .ok D) :
    ∃ delegationId signature m, D = .obj (signed members delegationId signature) ∧
      computeAuthorityDelegationId P (.obj members) = .ok delegationId ∧
      delegationId = lit "sha256:" ++ P.sha256Hex m ∧ isLowerHexOf 128 signature = true ∧
      verifyAuthorityDelegationSignature P D signature publicKey = .ok true := by
  obtain ⟨id, hid, h⟩ := bind_eq_ok.mp h
  obtain ⟨hread, m, hm⟩ := computeId_of_write (orCanonical_eq_ok.mp hid)
  obtain ⟨s, hs, h⟩ := bind_eq_ok.mp h
  obtain ⟨input, hinput, hsign⟩ := signature_of_sign hs
  cases h
  rw [spread, setMember_id hbare] at hinput ⊢
  rw [setMember_signature hbare]
  refine ⟨id, s, m, rfl, hread, hm, hpair.hex _ _ hsign, ?_⟩
  rw [verifyAuthorityDelegationSignature, unsigned_signed hbare, hinput]
  exact congrArg Except.ok (hpair.verifies _ _ hsign)

end Finalize

section Agreement
variable {P : Primitives} {privateKey publicKey : Str}

theorem finalized_record (hdigest : ∀ m, isLowerHexOf 64 (P.sha256Hex m) = true)
    (hpair : KeyPair P privateKey publicKey) {snapshot D : JsValue} (hsnapshot : bareBody body = .ok snapshot)
    (hprobe : assertBody snapshot = .ok probe) (hfinal : finalizeAuthorityDelegation P snapshot privateKey = .ok D) :
    ∃ (r : ShapedRecord) (delegationId signature : Str), r.value = D ∧ snapshotPlainData (plain D) = D ∧
      r.delegation = { probe.delegation with delegationId := delegationId, signature := signature } ∧
      authorityDelegationBody D = snapshotPlainData body ∧
      computeAuthorityDelegationId P (authorityDelegationBody D) = .ok r.delegation.delegationId ∧
      verifyAuthorityDelegationSignature P D r.delegation.signature publicKey = .ok true := by
  obtain ⟨members, rfl, hbare, hmembers, hvalue⟩ := probe_value hsnapshot hprobe
  obtain ⟨id, s, m, rfl, hid, hdigest', hhex, hverified⟩ := finalize_ok hbare hpair hfinal
  have hprobeShape : shapeFailures (.obj (signed members zeroId zeroSignature)) = [] := hvalue ▸ probe.shape
  have hshape := shape_signed hbare hprobeShape
    (hdigest' ▸ isDelegationId_digest (hdigest m) : isDelegationId id = true) hhex
  have hprobeRead : readDelegation (.obj (signed members zeroId zeroSignature)) = some probe.delegation :=
    hvalue ▸ probe.read_eq
  have hdelegation : (ShapedRecord.mk _ hshape).delegation =
      { probe.delegation with delegationId := id, signature := s } :=
    Option.some.inj ((ShapedRecord.mk _ hshape).read_eq.symm.trans (read_signed hbare hprobeRead))
  have hlength : (signed members id s).length ≤ 2 ^ 23 := by
    obtain ⟨top, htop, -, -, hkeys, -⟩ := shape_inv hshape
    cases htop
    have hperm := (names_perm hkeys).length_eq
    rw [List.length_map, List.length_map] at hperm
    rw [hperm]
    decide
  have hsnapshots : ∀ n ∈ signed members id s, IsSnapshot n.2 := by
    rw [signed, List.forall_mem_append]
    refine ⟨hmembers, ?_⟩
    simp only [List.forall_mem_cons]
    exact ⟨.str _, .str _, List.forall_mem_nil _⟩
  refine ⟨⟨_, hshape⟩, id, s, rfl, snapshot_plain (.obj hlength hsnapshots), hdelegation, ?_, ?_, ?_⟩
  · rw [body_signed hbare, (bareBody_ok hsnapshot).1]
  · rw [body_signed hbare, hdelegation]
    exact hid
  · rw [hdelegation]
    exact hverified

theorem issued_record (hdigest : ∀ m, isLowerHexOf 64 (P.sha256Hex m) = true)
    (hpair : KeyPair P privateKey publicKey) {parent body : CallerValue} {options : SubAuthorityIssueOptions}
    {D : JsValue} (h : issueSubAuthorityDelegation P parent body privateKey options = .ok D) :
    ∃ parentRecord child : ShapedRecord, parentRecord.value = snapshotPlainData parent ∧ child.value = D ∧
      snapshotPlainData (plain D) = D ∧ Follows parentRecord.delegation child.delegation ∧
      authorityDelegationBody D = snapshotPlainData body ∧
      computeAuthorityDelegationId P (authorityDelegationBody D) = .ok child.delegation.delegationId ∧
      verifyAuthorityDelegationSignature P D child.delegation.signature publicKey = .ok true := by
  obtain ⟨now, -, h⟩ := bind_eq_ok.mp h
  obtain ⟨parentRecord, hparent, h⟩ := bind_eq_ok.mp h
  obtain ⟨-, h⟩ := bind_unit_eq_ok.mp h
  obtain ⟨snapshot, hsnapshot, h⟩ := bind_eq_ok.mp h
  obtain ⟨probe, hprobe, h⟩ := bind_eq_ok.mp h
  obtain ⟨hchild, hfinal⟩ := bind_unit_eq_ok.mp h
  obtain ⟨child, id, s, hvalue, hplain, hdelegation, hbody, hid, hverified⟩ :=
    finalized_record hdigest hpair hsnapshot hprobe hfinal
  obtain ⟨hlinked, hcontinuous, hissued, hnarrowing⟩ := assertChild_ok hchild
  refine ⟨parentRecord, child, assertParent_ok hparent, hvalue, hplain, ?_, hbody, hid, hverified⟩
  rw [hdelegation]
  exact ⟨hlinked, hcontinuous, hissued, hnarrowing⟩

variable {options : AuthorityChainVerificationOptions} {now : Str}

/-- A record that names the last member as its parent has an id the chain has not: the member
with that id would name the same parent, and only a record after the last could. -/
theorem fresh_id {chain : List ShapedRecord} {last child : ShapedRecord}
    (h : Accepted P options now (chain ++ [last]))
    (hlinked : child.delegation.parentDelegationId = some last.delegation.delegationId)
    (hparents : ∀ r ∈ chain ++ [last], r.delegation.delegationId = child.delegation.delegationId →
      r.delegation.parentDelegationId = child.delegation.parentDelegationId) :
    ∀ r ∈ chain ++ [last], r.delegation.delegationId ≠ child.delegation.delegationId := by
  intro r hr hid
  have hparent := (hparents r hr hid).trans hlinked
  obtain ⟨i, hi, rfl⟩ := List.getElem_of_mem hr
  cases i with
  | zero =>
    have hroot : (chain ++ [last])[0] ∈ (chain ++ [last]).head? := by
      rw [List.head?_eq_getElem?, List.getElem?_eq_getElem hi]
      rfl
    rw [h.rootParent _ hroot] at hparent
    cases hparent
  | succ k =>
    have hlink := List.isChain_iff_getElem.mp h.linked k hi
    rw [hlink] at hparent
    rw [List.length_append, List.length_singleton] at hi
    have hlast : chain.length < (chain ++ [last]).length := by simp
    have hget : (chain ++ [last])[chain.length].delegation.delegationId = last.delegation.delegationId := by
      rw [List.getElem_concat_length rfl]
    have hindex : k = chain.length := by
      refine (@List.Nodup.getElem_inj_iff _ _ h.distinct k ?_ chain.length ?_).mp ?_
      · rw [List.length_map, List.length_append, List.length_singleton]
        omega
      · rwa [List.length_map]
      · rw [List.getElem_map, List.getElem_map, hget]
        exact Option.some.inj hparent
    omega

theorem accepted_extend {chain : List ShapedRecord} {last child : ShapedRecord}
    (h : Accepted P options now (chain ++ [last]))
    (hid : computeAuthorityDelegationId P (authorityDelegationBody child.value) =
      .ok child.delegation.delegationId)
    (hsignature : ∃ key, options.resolveVerificationKey child.delegation.issuer
      child.delegation.verificationMethod child.delegation.issuedAt = .key key ∧ isKeyMaterial key = true ∧
      verifyAuthorityDelegationSignature P child.value child.delegation.signature key = .ok true)
    (hfollows : Follows last.delegation child.delegation)
    (hfresh : ∀ r ∈ chain ++ [last], r.delegation.delegationId ≠ child.delegation.delegationId)
    (hcurrent : child.delegation.authority.time.notBefore ≤ now ∧ now < child.delegation.authority.time.notAfter)
    (hactive : options.resolveRevocation (snapshotPlainData (plain child.value)) = .active) :
    Accepted P options now (chain ++ [last] ++ [child]) := by
  have hpairs : ∀ {R : ShapedRecord → ShapedRecord → Prop}, (chain ++ [last]).IsChain R → R last child →
      (chain ++ [last] ++ [child]).IsChain R := by
    intro R hchain hlast
    rw [List.isChain_append]
    refine ⟨hchain, List.isChain_singleton child, ?_⟩
    intro x hx y hy
    simp only [List.getLast?_concat, Option.mem_def, Option.some.injEq, List.head?_cons] at hx hy
    rw [← hx, ← hy]
    exact hlast
  have hhead : (chain ++ [last] ++ [child]).head? = (chain ++ [last]).head? := by
    rw [List.head?_append_of_ne_nil _ (by simp)]
  exact {
    ids := List.forall_mem_append.mpr ⟨h.ids, List.forall_mem_singleton.mpr hid⟩
    signatures := List.forall_mem_append.mpr ⟨h.signatures, List.forall_mem_singleton.mpr hsignature⟩
    distinct := by
      rw [List.map_append, List.nodup_append]
      refine ⟨h.distinct, by simp, ?_⟩
      intro x hx y hy
      obtain ⟨r, hr, rfl⟩ := List.mem_map.mp hx
      rw [List.map_singleton, List.mem_singleton] at hy
      rw [hy]
      exact hfresh r hr
    trusted := hhead ▸ h.trusted
    rootParent := hhead ▸ h.rootParent
    linked := hpairs h.linked hfollows.linked
    continuous := hpairs h.continuous hfollows.continuous
    issued := hpairs h.issued hfollows.issued
    narrowing := hpairs h.narrowing hfollows.narrowing
    current := List.forall_mem_append.mpr ⟨h.current, List.forall_mem_singleton.mpr hcurrent⟩
    active := List.forall_mem_append.mpr ⟨h.active, List.forall_mem_singleton.mpr hactive⟩ }

end Agreement

/-- The verifier returns `valid`. -/
def Valid (P : Primitives) (options : AuthorityChainVerificationOptions) (rawChain : CallerValue) : Prop :=
  ∃ r, verifyAuthorityDelegationChain P options rawChain = .ok r ∧ r.state = .valid

/-- An issued root verifies on its own wherever it is trusted, current, resolved and active. -/
theorem issued_root_verifies (P : Primitives) {privateKey publicKey : Str}
    (hdigest : ∀ m, isLowerHexOf 64 (P.sha256Hex m) = true) (hpair : KeyPair P privateKey publicKey)
    (body : CallerValue) {D : JsValue} (hissue : issueAuthorityDelegation P body privateKey = .ok D) :
    ∃ root, readDelegation D = some root ∧
      ∀ (options : AuthorityChainVerificationOptions) (now : Str) (trustRoot : JsValue → TrustAnswer),
        options.now = .str now → canonicalTimestamp now = true →
        options.trustRoot = some trustRoot → trustRoot D = .decided true →
        root.authority.time.notBefore ≤ now → now < root.authority.time.notAfter →
        options.resolveVerificationKey root.issuer root.verificationMethod root.issuedAt = .key publicKey →
        options.resolveRevocation D = .active → Valid P options (.arr ⟨true, false, false⟩ [some (plain D)]) := by
  obtain ⟨snapshot, hsnapshot, h⟩ := bind_eq_ok.mp hissue
  obtain ⟨probe, hprobe, h⟩ := bind_eq_ok.mp h
  obtain ⟨hparent, hfinal⟩ := refuse_unless_ok.mp h
  obtain ⟨root, id, s, hvalue, hplain, hdelegation, -, hid, hverified⟩ :=
    finalized_record hdigest hpair hsnapshot hprobe hfinal
  refine ⟨root.delegation, hvalue ▸ root.read_eq, ?_⟩
  intro options now trustRoot hnow hcanonical htrust htrusted hbefore hafter hkey hactive
  rw [← hvalue] at hid hverified hplain htrusted hactive
  refine (verify_valid_iff _).mpr ⟨[plain D], now, [root], rfl, by rw [hnow]; rfl, hcanonical, ?_, ?_⟩
  · rw [List.map_singleton, List.map_singleton, ← hvalue, hplain]
  exact {
    ids := List.forall_mem_singleton.mpr hid
    signatures := List.forall_mem_singleton.mpr ⟨publicKey, hkey, hpair.material, hverified⟩
    distinct := List.nodup_singleton _
    trusted := by
      rintro _ ⟨⟩
      exact ⟨trustRoot, htrust, by rw [hplain]; exact htrusted⟩
    rootParent := by
      rintro _ ⟨⟩
      rw [hdelegation]
      exact not_not.mp hparent
    linked := List.isChain_singleton root
    continuous := List.isChain_singleton root
    issued := List.isChain_singleton root
    narrowing := List.isChain_singleton root
    current := List.forall_mem_singleton.mpr ⟨hbefore, hafter⟩
    active := List.forall_mem_singleton.mpr (by rw [hplain]; exact hactive) }

/-- Issuer and verifier agree: a child issued under the last member of a chain extends it
wherever the chain is valid and the child is current, resolved and active. Neither an id that
repeats nor the ceiling on the length stands in the way. -/
theorem issued_child_extends (P : Primitives) {privateKey publicKey : Str}
    (hdigest : ∀ m, isLowerHexOf 64 (P.sha256Hex m) = true) (hpair : KeyPair P privateKey publicKey)
    (header : ArrayHeader) (slots : List (Option CallerValue)) (parent body : CallerValue)
    (options : SubAuthorityIssueOptions) {D : JsValue}
    (hissue : issueSubAuthorityDelegation P parent body privateKey options = .ok D)
    (haddress : AddressInjectiveOn P (memberBodies (slots ++ [some parent] ++ [some (plain D)]))) :
    ∃ child, readDelegation D = some child ∧
      ∀ (later : AuthorityChainVerificationOptions) (now : Str), later.now = .str now →
        Valid P later (.arr header (slots ++ [some parent])) →
        child.authority.time.notBefore ≤ now → now < child.authority.time.notAfter →
        later.resolveVerificationKey child.issuer child.verificationMethod child.issuedAt = .key publicKey →
        later.resolveRevocation D = .active →
        Valid P later (.arr header (slots ++ [some parent] ++ [some (plain D)])) := by
  obtain ⟨parentRecord, child, hparent, hchild, hplain, hfollows, -, hid, hverified⟩ :=
    issued_record hdigest hpair hissue
  refine ⟨child.delegation, hchild ▸ child.read_eq, ?_⟩
  intro later now hnow hvalid hbefore hafter hkey hactive
  obtain ⟨members, now', chain', hcontainer, hnow', hcanonical, hchain, haccepted⟩ :=
    (verify_valid_iff _).mp hvalid
  rw [hnow] at hnow'
  cases hnow'
  obtain ⟨slots', hslots, hmin, hmax, hmembers⟩ := readContainer_ok.mp hcontainer
  cases hslots
  rw [dataMembers_append] at hmembers
  obtain ⟨before, hbefore', rfl⟩ := Option.map_eq_some_iff.mp hmembers
  -- The last record of the chain is the snapshot the issuer has checked.
  obtain ⟨chain, rfl⟩ : ∃ chain, chain' = chain ++ [parentRecord] := by
    rw [List.map_append, List.map_singleton] at hchain
    obtain ⟨chain, tail, rfl, -, htail⟩ := List.map_eq_append_iff.mp hchain
    obtain ⟨last, rfl, hlast⟩ := List.map_eq_singleton_iff.mp htail
    exact ⟨chain, by rw [ShapedRecord.eq_of_value (hlast.trans hparent.symm)]⟩
  have hbodies : ∀ r ∈ chain ++ [parentRecord], authorityDelegationBody r.value ∈
      memberBodies (slots ++ [some parent] ++ [some (plain D)]) := by
    intro r hr
    have hr' : r.value ∈ (before ++ [parent]).map snapshotPlainData := hchain ▸ List.mem_map_of_mem hr
    obtain ⟨v, hv, hsnapshot⟩ := List.mem_map.mp hr'
    have hslot := mem_of_dataMembers (dataMembers_append slots parent ▸ hmembers) v hv
    exact ⟨v, List.mem_append_left _ hslot, by rw [hsnapshot]⟩
  have hbody : authorityDelegationBody child.value ∈
      memberBodies (slots ++ [some parent] ++ [some (plain D)]) :=
    ⟨plain D, by simp, by rw [hplain, hchild]⟩
  rw [← hchild] at hid hverified
  have hfresh := fresh_id haccepted hfollows.linked (fun r hr heq => parent_of_same
    (haddress _ (hbodies r hr) _ hbody _ (haccepted.ids r hr) (heq ▸ hid)))
  have hextended := accepted_extend haccepted hid ⟨publicKey, hkey, hpair.material, hverified⟩ hfollows hfresh
    ⟨hbefore, hafter⟩ (by rw [hchild, hplain]; exact hactive)
  refine (verify_valid_iff _).mpr ⟨before ++ [parent] ++ [plain D], now, _, readContainer_ok.mpr ?_, by rw [hnow]; rfl,
    hcanonical, ?_, hextended⟩
  · have hlength : before.length = slots.length := dataMembers_length hbefore'
    have hceiling := hextended.length_le_256
    have hvalues := congrArg List.length hchain
    simp only [List.length_map, List.length_append, List.length_singleton] at hceiling hvalues
    refine ⟨_, rfl, ?_, ?_, ?_⟩
    · simp
    · simp only [List.length_append, List.length_singleton]
      omega
    · rw [dataMembers_append, dataMembers_append, hbefore']
      rfl
  · rw [List.map_append, hchain]
    simp only [List.map_append, List.map_cons, List.map_nil, hchild, hplain]

def sampleIssue : SubAuthorityIssueOptions :=
  ⟨sampleOptions.now, sampleOptions.resolveVerificationKey, sampleOptions.resolveRevocation⟩

theorem sample_keyPair : KeyPair samplePrimitives childPrivateKey childKey := by
  have hsigned : ∀ m s, samplePrimitives.sign m childPrivateKey = some s → m.length = 893 ∧ s = childSignature := by
    intro m s h
    simp only [samplePrimitives] at h
    split at h
    · rename_i hm
      exact ⟨hm.1, (Option.some.inj h).symm⟩
    · cases h
  refine ⟨by decide, ?_, ?_⟩
  · intro m s h
    rw [(hsigned m s h).2]
    decide +kernel
  · intro m s h
    simp only [samplePrimitives, (hsigned m s h).1, (hsigned m s h).2, decide_true, Bool.and_self, Bool.or_true]

theorem sample_digest (m : Str) : isLowerHexOf 64 (samplePrimitives.sha256Hex m) = true := by
  simp only [samplePrimitives]
  split
  · decide
  · decide

def rootSigner : Primitives :=
  { samplePrimitives with sign := fun m _ => if m.length = 822 then some rootSignature else none }

theorem rootSigner_keyPair (privateKey : Str) : KeyPair rootSigner privateKey rootKey := by
  have hsigned : ∀ m s, rootSigner.sign m privateKey = some s → m.length = 822 ∧ s = rootSignature := by
    intro m s h
    obtain ⟨hm, hs⟩ := Option.ite_none_right_eq_some.mp h
    exact ⟨hm, (Option.some.inj hs).symm⟩
  refine ⟨by decide, ?_, ?_⟩
  · intro m s h
    rw [(hsigned m s h).2]
    decide +kernel
  · intro m s h
    simp [rootSigner, samplePrimitives, hsigned m s h]

theorem issued_root_verifies_sample : ∃ D,
    issueAuthorityDelegation rootSigner (plain (.obj rootBody)) (List.replicate 32 (lit "01")).flatten = .ok D ∧
      Valid rootSigner sampleOptions (.arr ⟨true, false, false⟩ [some (plain D)]) := by
  have hcurrent : ((issueAuthorityDelegation rootSigner (plain (.obj rootBody))
      (List.replicate 32 (lit "01")).flatten).toOption.bind readDelegation).map (fun root =>
        (root.issuer, decide (root.authority.time.notBefore ≤ lit "2026-01-15T12:00:00.000Z" ∧
          lit "2026-01-15T12:00:00.000Z" < root.authority.time.notAfter))) =
      some (lit "did:root", true) := by decide +kernel
  cases hD : issueAuthorityDelegation rootSigner (plain (.obj rootBody)) (List.replicate 32 (lit "01")).flatten with
  | error e =>
    rw [hD] at hcurrent
    cases hcurrent
  | ok D =>
    obtain ⟨root, hread, hverifies⟩ := issued_root_verifies rootSigner sample_digest (rootSigner_keyPair _) _ hD
    rw [hD, Except.toOption, Option.bind_some, hread, Option.map_some, Option.some.injEq, Prod.mk.injEq,
      decide_eq_true_eq] at hcurrent
    refine ⟨D, rfl, hverifies sampleOptions _ _ rfl (by decide) rfl rfl hcurrent.2.1 hcurrent.2.2 ?_ rfl⟩
    rw [hcurrent.1]
    rfl

theorem sample_addresses : AddressInjectiveOn samplePrimitives {.obj rootBody, .obj childBody} := by
  have hroot : computeAuthorityDelegationId samplePrimitives (.obj rootBody) =
      .ok (lit "sha256:" ++ rootDigest) := by decide +kernel
  have hchild : computeAuthorityDelegationId samplePrimitives (.obj childBody) =
      .ok (lit "sha256:" ++ childDigest) := by decide +kernel
  have hne : lit "sha256:" ++ rootDigest ≠ lit "sha256:" ++ childDigest := by decide
  rintro a (rfl | rfl) b (rfl | rfl) id ha hb
  · exact Same.of_isJson (body_isJson ⟨rootRecord, by decide +kernel⟩)
  · rw [hroot] at ha
    rw [hchild] at hb
    exact absurd (Except.ok.inj (ha.trans hb.symm)) hne
  · rw [hchild] at ha
    rw [hroot] at hb
    exact absurd (Except.ok.inj (hb.trans ha.symm)) hne
  · exact Same.of_isJson (body_isJson ⟨childRecord, by decide +kernel⟩)

theorem issued_child_extends_root : ∃ D,
    issueSubAuthorityDelegation samplePrimitives (plain rootRecord) (plain (.obj childBody)) childPrivateKey
      sampleIssue = .ok D ∧
    Valid samplePrimitives sampleOptions
      (.arr ⟨true, false, false⟩ ([] ++ [some (plain rootRecord)] ++ [some (plain D)])) := by
  have hroot : verifyAuthorityDelegationChain samplePrimitives sampleOptions
      (.arr ⟨true, false, false⟩ [some (plain rootRecord)]) = .ok ⟨.valid, []⟩ := by decide +kernel
  have hcurrent : ((issueSubAuthorityDelegation samplePrimitives (plain rootRecord) (plain (.obj childBody))
      childPrivateKey sampleIssue).toOption.bind readDelegation).map (fun child =>
        (child.issuer, decide (child.authority.time.notBefore ≤ lit "2026-01-15T12:00:00.000Z" ∧
          lit "2026-01-15T12:00:00.000Z" < child.authority.time.notAfter))) =
      some (lit "did:mid", true) := by decide +kernel
  obtain ⟨D, hD⟩ : ∃ D, issueSubAuthorityDelegation samplePrimitives (plain rootRecord) (plain (.obj childBody))
      childPrivateKey sampleIssue = .ok D := by
    refine exists_of_isOk ?_
    cases hissued : issueSubAuthorityDelegation samplePrimitives (plain rootRecord) (plain (.obj childBody))
        childPrivateKey sampleIssue with
    | error e =>
      rw [hissued] at hcurrent
      cases hcurrent
    | ok D => rfl
  have haddress : AddressInjectiveOn samplePrimitives
      (memberBodies ([] ++ [some (plain rootRecord)] ++ [some (plain D)])) := by
    obtain ⟨-, -, -, -, hplain, -, hbody, -⟩ := issued_record sample_digest sample_keyPair hD
    refine sample_addresses.mono ?_
    rintro _ ⟨v, hv, rfl⟩
    obtain hv | hv := List.mem_append.mp hv
    · rw [Option.some.inj (List.mem_singleton.mp hv)]
      exact .inl rfl
    · rw [Option.some.inj (List.mem_singleton.mp hv), hplain, hbody]
      exact .inr rfl
  obtain ⟨child, hread, hextends⟩ := issued_child_extends samplePrimitives sample_digest sample_keyPair
    ⟨true, false, false⟩ [] (plain rootRecord) (plain (.obj childBody)) sampleIssue hD haddress
  rw [hD, Except.toOption, Option.bind_some, hread, Option.map_some, Option.some.injEq, Prod.mk.injEq,
    decide_eq_true_eq] at hcurrent
  refine ⟨D, hD, hextends sampleOptions _ rfl ⟨_, hroot, rfl⟩ hcurrent.2.1 hcurrent.2.2 ?_ rfl⟩
  have hmid : lit "did:mid" ≠ lit "did:root" := by decide
  simp only [sampleOptions, hcurrent.1, if_neg hmid]

end AgentPassport.DelegationIssue
