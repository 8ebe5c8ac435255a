import AgentPassport.DelegationVersions
import AgentPassport.NanoRail

/-! Owner confirmations (`v2/human-escalation.ts`) and the payment gate that checks them against a
view of the delegation (`v2/payment-rails/hooks.ts`). The clock reading is an argument. -/
namespace AgentPassport.HumanEscalation
open JsText Js LegacyCanonical Outcome
open SeparatedText (join)
open CanonicalInjective (intText integerText)
open DelegationVersions (Runtime hashObject)
open NanoRail (bigInt)

/-- `owner_confirmation` as the interface has it; `further` are members it does not name, which are
signed with the others. -/
structure OwnerConfirmation where
  id : Str
  request_id : Str
  delegation_id : Str
  action_class : Str
  action_details_hash : Str
  confirmation_scope : Str
  session_id : Option Str
  confirmed_by : Str
  confirmed_at : Str
  expires_at : Str
  further : List (Str × JsValue)
  signature : Str

structure EscalationRequirement where
  action_class : Str
  requires_owner_confirmation : Bool
  confirmation_ttl_ms : JsNumber
  confirmation_scope : Str

structure V2Delegation where
  id : Str
  delegator : Str
  escalation_requirements : Option (List EscalationRequirement)

/-- The details are undefined where the payment gate was given none. -/
structure EscalationAction where
  action_class : Str
  action_details : JsValue
  session_id : Option Str

inductive ConfirmationVerdict where
  | valid
  | invalid (reason : Str)
  deriving DecidableEq

/-- What a verifier throws: a bigint in the text to hash, or no text at all. -/
inductive ConfirmationError where
  | canonical (e : LegacyError)
  | noText
  deriving DecidableEq

def orThrow {α : Type} : Except LegacyError α → Except ConfirmationError α
  | .ok a => return a
  | .error e => throw (.canonical e)

section
variable (numText : Double → Str)

mutual
/-- `JSON.stringify`; none is undefined. -/
def jsonStringify : JsValue → Except LegacyError (Option Str)
  | .undefined => return none
  | .arr items => do
    let parts ← stringifyItems items
    return some (lit "[" ++ join 0x2C parts ++ lit "]")
  | .obj members => do
    let pairs ← stringifyMembers members
    return some (lit "\x7b" ++ join 0x2C pairs ++ lit "\x7d")
  | v => stringifyPrimitive numText v

def stringifyItems : List JsValue → Except LegacyError (List Str)
  | [] => return []
  | v :: rest => do
    let part ← jsonStringify v
    let parts ← stringifyItems rest
    return part.getD (lit "null") :: parts

def stringifyMembers : List (Str × JsValue) → Except LegacyError (List Str)
  | [] => return []
  | (name, v) :: rest => do
    let text ← jsonStringify v
    let pairs ← stringifyMembers rest
    return (text.map (fun text => stringify name ++ lit ":" ++ text)).toList ++ pairs
end

end

section
variable (R : Runtime)

/-- Written the same in both files; `update` throws on undefined. -/
def hashActionDetails (details : JsValue) : Except ConfirmationError Str := do
  match ← orThrow (jsonStringify R.numText details) with
  | some text => return R.sha256 text
  | none => throw .noText

def OwnerConfirmation.signable (c : OwnerConfirmation) : JsValue :=
  .obj ([(lit "id", JsValue.str c.id), (lit "request_id", .str c.request_id),
    (lit "delegation_id", .str c.delegation_id), (lit "action_class", .str c.action_class),
    (lit "action_details_hash", .str c.action_details_hash),
    (lit "confirmation_scope", .str c.confirmation_scope),
    (lit "session_id", (c.session_id.map JsValue.str).getD .null), (lit "confirmed_by", .str c.confirmed_by),
    (lit "confirmed_at", .str c.confirmed_at), (lit "expires_at", .str c.expires_at)] ++ c.further)

/-- `reqs?.find(...)`, in both files. -/
def findRequirement (reqs : Option (List EscalationRequirement)) (action_class : Str) :
    Option EscalationRequirement :=
  (reqs.getD []).find? (fun r => r.action_class = action_class && r.requires_owner_confirmation)

def isConfirmationValid (confirmation : OwnerConfirmation) (now : JsNumber) : Bool :=
  now.le (R.getTime confirmation.expires_at)

/-- `!session_id || confirmation.session_id !== session_id`. -/
def sessionDiffers (confirmation : OwnerConfirmation) : Option Str → Bool
  | none => true
  | some session => session = [] || confirmation.session_id ≠ some session

def matchesAction (confirmation : OwnerConfirmation) (action : EscalationAction) (scope : Str) :
    Except ConfirmationError ConfirmationVerdict := do
  if confirmation.action_class ≠ action.action_class then return .invalid (lit "action_class mismatch")
  if scope = lit "per_action" then
    let expected ← hashActionDetails R action.action_details
    if confirmation.action_details_hash ≠ expected then
      return .invalid (lit "per_action details hash mismatch")
  else if scope = lit "per_session" then
    if sessionDiffers confirmation action.session_id then
      return .invalid (lit "per_session session_id mismatch")
  return .valid

def verifyObject (obj : JsValue) (signature publicKey : Str) : Except ConfirmationError Bool := do
  let hash ← orThrow (hashObject R obj)
  return R.verify hash signature publicKey

def verifyOwnerConfirmation (confirmation : OwnerConfirmation) (action : EscalationAction)
    (delegation : V2Delegation) (now : JsNumber) : Except ConfirmationError ConfirmationVerdict := do
  if confirmation.delegation_id ≠ delegation.id then return .invalid (lit "delegation_id mismatch")
  if confirmation.confirmed_by ≠ delegation.delegator then
    return .invalid (lit "confirmed_by is not the delegator")
  if !isConfirmationValid R confirmation now then return .invalid (lit "confirmation expired")
  match findRequirement delegation.escalation_requirements action.action_class with
  | none => return .invalid (lit "no matching escalation requirement on delegation")
  | some requirement =>
    if confirmation.confirmation_scope ≠ requirement.confirmation_scope then
      return .invalid (lit "confirmation_scope mismatch")
    match ← matchesAction R confirmation action requirement.confirmation_scope with
    | .invalid reason => return .invalid reason
    | .valid =>
      if !(← verifyObject R confirmation.signable confirmation.signature delegation.delegator) then
        return .invalid (lit "signature verification failed")
      return .valid

structure DelegationView where
  receipt_id : Str
  scope : List Str
  spend_limit_base_units : Str
  not_before : Option Str
  not_after : Option Str
  wallet_id : Str
  currency : Str
  escalation_requirements : Option (List EscalationRequirement)
  delegator : Option Str

def isUndefined : JsValue → Bool
  | .undefined => true
  | _ => false

/-- The binding of the scope the confirmation itself names. -/
def bindsAction (confirmation : OwnerConfirmation) (action_details : JsValue) (session_id : Option Str) :
    Except ConfirmationError ConfirmationVerdict := do
  if confirmation.confirmation_scope = lit "per_action" then
    if isUndefined action_details then
      return .invalid (lit "per_action confirmation requires action_details on input")
    let expected ← hashActionDetails R action_details
    if confirmation.action_details_hash ≠ expected then
      return .invalid (lit "per_action details hash mismatch")
  else if confirmation.confirmation_scope = lit "per_session" then
    if sessionDiffers confirmation session_id then
      return .invalid (lit "per_session session_id mismatch")
  return .valid

/-- `_verifyOwnerConfirmationAgainstView`. -/
def verifyOwnerConfirmationAgainstView (confirmation : OwnerConfirmation) (view : DelegationView)
    (action_class : Str) (action_details : JsValue) (session_id : Option Str) (now : JsNumber) :
    Except ConfirmationError ConfirmationVerdict := do
  let delegator := view.delegator.getD []
  if delegator = [] then
    return .invalid (lit "DelegationView.delegator missing " ++ 0x2014 :: lit " cannot verify signature")
  if confirmation.delegation_id ≠ view.receipt_id then return .invalid (lit "delegation_id mismatch")
  if confirmation.confirmed_by ≠ delegator then return .invalid (lit "confirmed_by is not the delegator")
  if (R.getTime confirmation.expires_at).lt now then return .invalid (lit "confirmation expired")
  if confirmation.action_class ≠ action_class then return .invalid (lit "action_class mismatch")
  match ← bindsAction R confirmation action_details session_id with
  | .invalid reason => return .invalid reason
  | .valid =>
    let hash ← orThrow (hashObject R confirmation.signable)
    if !R.verify hash confirmation.signature delegator then
      return .invalid (lit "signature verification failed")
    return .valid

structure PreAuthorizeInput where
  delegation : DelegationView
  required_scope : Str
  amount_base_units : Str
  currency : Str
  owner_confirmation : Option OwnerConfirmation
  action_class : Option Str
  action_details : JsValue
  session_id : Option Str

inductive DenialReason where
  | no_commerce_scope | spend_limit_exceeded | wallet_revoked | time_window_violation | rail_error
  | requires_owner_confirmation
  deriving DecidableEq

inductive PreAuthorizeResult where
  | ok
  | denied (denial_reason : DenialReason) (reason_detail : Option Str)
  deriving DecidableEq

/-- The gate for a flagged action class; none lets the action through. -/
def confirmationGate (input : PreAuthorizeInput) (now : JsNumber) :
    Except ConfirmationError (Option PreAuthorizeResult) :=
  let action_class := input.action_class.getD input.required_scope
  match findRequirement input.delegation.escalation_requirements action_class with
  | none => return none
  | some _ =>
    match input.owner_confirmation with
    | none =>
      return some (.denied .requires_owner_confirmation
        (some (lit "action_class '" ++ action_class ++ lit "' requires owner confirmation")))
    | some confirmation => do
      match ← verifyOwnerConfirmationAgainstView R confirmation input.delegation action_class
          input.action_details input.session_id now with
      | .valid => return none
      | .invalid reason =>
        return some (.denied .requires_owner_confirmation (some (lit "invalid owner_confirmation: " ++ reason)))

/-- `before` and `after` compare the clock with a bound; a bound that cannot be read is skipped. -/
def windowViolation (name : String) (outside : JsNumber → Bool) (bound : Option Str) : Option PreAuthorizeResult :=
  bound.bind fun text =>
    if R.getTime text ≠ .nan ∧ outside (R.getTime text) then
      some (.denied .time_window_violation (some (lit name ++ lit "=" ++ text)))
    else none

def spendCheck (input : PreAuthorizeInput) : PreAuthorizeResult :=
  if input.delegation.currency ≠ input.currency then
    .denied .spend_limit_exceeded (some (lit "currency mismatch: delegation=" ++ input.delegation.currency ++
      lit " request=" ++ input.currency))
  else
    match bigInt input.delegation.spend_limit_base_units, bigInt input.amount_base_units with
    | some limit, some amount =>
      if limit < amount then
        .denied .spend_limit_exceeded (some (lit "amount=" ++ intText amount ++ lit " limit=" ++ intText limit))
      else .ok
    | _, _ =>
      .denied .rail_error (some (lit "amount_base_units or spend_limit_base_units not a valid integer string"))

/-- The rail is what it answers about the wallet. -/
def preAuthorize (isWalletRevoked : Str → Bool) (input : PreAuthorizeInput) (now : JsNumber) :
    Except ConfirmationError PreAuthorizeResult := do
  if isWalletRevoked input.delegation.wallet_id then return .denied .wallet_revoked none
  if !input.delegation.scope.contains input.required_scope then
    return .denied .no_commerce_scope (some (lit "scope '" ++ input.required_scope ++ lit "' not in delegation"))
  match ← confirmationGate R input now with
  | some denial => return denial
  | none =>
    return ((windowViolation R "not_before" (fun bound => now.lt bound) input.delegation.not_before).or
      (windowViolation R "not_after" (fun bound => bound.lt now) input.delegation.not_after)).getD
        (spendCheck input)

end

section
variable {R : Runtime} {c : OwnerConfirmation}

variable {reason : Str}

theorem refuse_else {p : Prop} [Decidable p] {x : Except ConfirmationError ConfirmationVerdict} :
    (if p then pure (.invalid reason) else x) = .ok .valid ↔ ¬ p ∧ x = .ok .valid := by
  by_cases hp : p
  · simp [hp, pure, Except.pure]
  · simp [hp]

theorem accept_iff : (pure .valid : Except ConfirmationError ConfirmationVerdict) = .ok .valid ↔ True :=
  iff_true_intro rfl

variable {details : JsValue}

theorem hash_binds : (do
      let expected ← hashActionDetails R details
      if c.action_details_hash ≠ expected then return ConfirmationVerdict.invalid reason
      return ConfirmationVerdict.valid) = .ok .valid ↔
      hashActionDetails R details = .ok c.action_details_hash := by
  simp only [bind_eq_ok, refuse_else, accept_iff, and_true, not_not]
  constructor
  · intro h
    obtain ⟨expected, hhash, heq⟩ := h
    rw [hhash, heq]
  · intro h
    exact ⟨_, h, rfl⟩

/-- What a scope asks of a confirmation. -/
def Bound (R : Runtime) (c : OwnerConfirmation) (scope : Str) (details : JsValue) (session : Option Str) : Prop :=
  (scope = lit "per_action" → hashActionDetails R details = .ok c.action_details_hash) ∧
    (scope = lit "per_session" → sessionDiffers c session = false)

variable {session : Option Str}

theorem bound_iff {scope : Str} {x y : Except ConfirmationError ConfirmationVerdict}
    (hx : x = .ok .valid ↔ hashActionDetails R details = .ok c.action_details_hash)
    (hy : y = .ok .valid ↔ sessionDiffers c session = false) :
    (if scope = lit "per_action" then x else if scope = lit "per_session" then y else pure .valid) = .ok .valid ↔
      Bound R c scope details session := by
  by_cases haction : scope = lit "per_action"
  · have hsession : scope ≠ lit "per_session" := by
      rw [haction]
      decide
    rw [if_pos haction, hx]
    exact ⟨fun h => ⟨fun _ => h, fun hs => absurd hs hsession⟩, fun h => h.1 haction⟩
  · rw [if_neg haction]
    by_cases hsession : scope = lit "per_session"
    · rw [if_pos hsession, hy]
      exact ⟨fun h => ⟨fun ha => absurd ha haction, fun _ => h⟩, fun h => h.2 hsession⟩
    · rw [if_neg hsession, accept_iff]
      exact ⟨fun _ => ⟨fun ha => absurd ha haction, fun hs => absurd hs hsession⟩, fun _ => trivial⟩

theorem session_binds : (if sessionDiffers c session then pure (ConfirmationVerdict.invalid reason)
      else pure ConfirmationVerdict.valid : Except ConfirmationError ConfirmationVerdict) = .ok .valid ↔
      sessionDiffers c session = false := by
  rw [refuse_else, accept_iff, and_true, Bool.not_eq_true]

theorem matches_valid {action : EscalationAction} {scope : Str} :
    matchesAction R c action scope = .ok .valid ↔
      c.action_class = action.action_class ∧ Bound R c scope action.action_details action.session_id := by
  rw [matchesAction, refuse_else, not_not]
  exact and_congr_right fun _ => bound_iff hash_binds session_binds

theorem hash_undefined : hashActionDetails R .undefined = .error .noText := rfl

theorem binds_valid :
    bindsAction R c details session = .ok .valid ↔ Bound R c c.confirmation_scope details session := by
  rw [bindsAction]
  refine bound_iff ?_ session_binds
  rw [refuse_else, hash_binds]
  refine ⟨fun h => h.2, fun h => ⟨?_, h⟩⟩
  intro hundefined
  cases details with
  | undefined => cases hash_undefined.symm.trans h
  | _ => cases hundefined

def Signed (R : Runtime) (c : OwnerConfirmation) (publicKey : Str) : Prop :=
  ∃ hash, orThrow (hashObject R c.signable) = .ok hash ∧ R.verify hash c.signature publicKey = true

theorem view_valid {view : DelegationView} {action_class : Str} {now : JsNumber} :
    verifyOwnerConfirmationAgainstView R c view action_class details session now = .ok .valid ↔
      view.delegator.getD [] ≠ [] ∧ c.delegation_id = view.receipt_id ∧ c.confirmed_by = view.delegator.getD [] ∧
      (R.getTime c.expires_at).lt now = false ∧ c.action_class = action_class ∧
      Bound R c c.confirmation_scope details session ∧ Signed R c (view.delegator.getD []) := by
  rw [verifyOwnerConfirmationAgainstView]
  simp only [refuse_else, not_not, Bool.not_eq_true]
  refine and_congr_right fun _ => and_congr_right fun _ => and_congr_right fun _ => and_congr_right fun _ =>
    and_congr_right fun _ => ?_
  rw [bind_eq_ok, ← binds_valid]
  constructor
  · intro h
    obtain ⟨verdict, hbinds, h⟩ := h
    cases verdict with
    | invalid reason => simp [pure, Except.pure] at h
    | valid =>
      obtain ⟨hash, hhash, h⟩ := bind_eq_ok.mp h
      simp only [refuse_else, Bool.not_eq_true', Bool.not_eq_false] at h
      exact ⟨hbinds, hash, hhash, h.1⟩
  · intro h
    obtain ⟨hbinds, hash, hhash, hverify⟩ := h
    exact ⟨_, hbinds, bind_eq_ok.mpr ⟨hash, hhash, by simp [hverify, pure, Except.pure]⟩⟩

theorem full_valid {action : EscalationAction} {d : V2Delegation} {now : JsNumber} {requirement : EscalationRequirement}
    (hreq : findRequirement d.escalation_requirements action.action_class = some requirement) :
    verifyOwnerConfirmation R c action d now = .ok .valid ↔
      c.delegation_id = d.id ∧ c.confirmed_by = d.delegator ∧ isConfirmationValid R c now = true ∧
      c.confirmation_scope = requirement.confirmation_scope ∧ c.action_class = action.action_class ∧
      Bound R c requirement.confirmation_scope action.action_details action.session_id ∧ Signed R c d.delegator := by
  rw [verifyOwnerConfirmation]
  simp only [refuse_else, not_not, hreq, Bool.not_eq_true', Bool.not_eq_false]
  refine and_congr_right fun _ => and_congr_right fun _ => and_congr_right fun _ => and_congr_right fun _ => ?_
  rw [bind_eq_ok, ← and_assoc, ← matches_valid]
  constructor
  · intro h
    obtain ⟨verdict, hmatches, h⟩ := h
    cases verdict with
    | invalid reason => simp [pure, Except.pure] at h
    | valid =>
      obtain ⟨verified, hverified, h⟩ := bind_eq_ok.mp h
      simp only [refuse_else, Bool.not_eq_false] at h
      obtain ⟨hash, hhash, hverify⟩ := bind_eq_ok.mp hverified
      exact ⟨hmatches, hash, hhash, (Except.ok.inj hverify).trans h.1⟩
  · intro h
    obtain ⟨hmatches, hash, hhash, hverify⟩ := h
    have hverified : verifyObject R c.signable c.signature d.delegator = .ok true :=
      bind_eq_ok.mpr ⟨hash, hhash, by rw [hverify]; rfl⟩
    exact ⟨_, hmatches, bind_eq_ok.mpr ⟨true, hverified, by simp [pure, Except.pure]⟩⟩

end

/-- The view made from a delegation; what it says of spending, times and the wallet is its own. -/
structure DelegationView.MadeFrom (view : DelegationView) (d : V2Delegation) : Prop where
  receipt_id : view.receipt_id = d.id
  delegator : view.delegator = some d.delegator
  requirements : view.escalation_requirements = d.escalation_requirements

theorem le_iff {a b : JsNumber} : a.le b = true ↔ b.lt a = false ∧ b ≠ .nan ∧ a ≠ .nan := by
  cases a with
  | nan => simp [JsNumber.le, JsNumber.lt, JsNumber.eq]
  | infinite s =>
    cases b with
    | nan => simp [JsNumber.le, JsNumber.lt, JsNumber.eq]
    | infinite t =>
      revert s t
      decide
    | finite y => cases s <;> simp [JsNumber.le, JsNumber.lt, JsNumber.eq]
  | finite x =>
    cases b with
    | nan => simp [JsNumber.le, JsNumber.lt, JsNumber.eq]
    | infinite t => cases t <;> simp [JsNumber.le, JsNumber.lt, JsNumber.eq]
    | finite y =>
      rw [le_iff_scaled]
      simp [JsNumber.lt]

theorem confirmation_verifiers_agree (R : Runtime) {d : V2Delegation} {requirement : EscalationRequirement}
    {view : DelegationView} {c : OwnerConfirmation} {action_class : Str} {details : JsValue} {session : Option Str}
    {now : JsNumber} (hreq : findRequirement d.escalation_requirements action_class = some requirement)
    (hview : view.MadeFrom d)
    (haccepted : verifyOwnerConfirmationAgainstView R c view action_class details session now = .ok .valid) :
    verifyOwnerConfirmation R c ⟨action_class, details, session⟩ d now = .ok .valid ↔
      c.confirmation_scope = requirement.confirmation_scope ∧ R.getTime c.expires_at ≠ .nan ∧ now ≠ .nan := by
  have hdelegator : view.delegator.getD [] = d.delegator := by rw [hview.delegator, Option.getD_some]
  rw [view_valid, hdelegator, hview.receipt_id] at haccepted
  obtain ⟨-, hid, hby, hunexpired, hclass, hbound, hsigned⟩ := haccepted
  rw [full_valid hreq, isConfirmationValid, le_iff]
  constructor
  · intro h
    obtain ⟨-, -, ⟨-, hreadable, hnow⟩, hscope, -⟩ := h
    exact ⟨hscope, hreadable, hnow⟩
  · intro h
    obtain ⟨hscope, hreadable, hnow⟩ := h
    exact ⟨hid, hby, ⟨hunexpired, hreadable, hnow⟩, hscope, hclass, hscope ▸ hbound, hsigned⟩

theorem gate_cases {R : Runtime} {input : PreAuthorizeInput} {now : JsNumber} {requirement : EscalationRequirement}
    {outcome : Option PreAuthorizeResult}
    (hreq : findRequirement input.delegation.escalation_requirements
      (input.action_class.getD input.required_scope) = some requirement)
    (h : confirmationGate R input now = .ok outcome) :
    (∃ detail, outcome = some (.denied .requires_owner_confirmation detail)) ∨
      ∃ c, input.owner_confirmation = some c ∧
        verifyOwnerConfirmationAgainstView R c input.delegation (input.action_class.getD input.required_scope)
          input.action_details input.session_id now = .ok .valid := by
  simp only [confirmationGate, hreq] at h
  cases hc : input.owner_confirmation with
  | none =>
    simp only [hc] at h
    exact .inl ⟨_, (Except.ok.inj h).symm⟩
  | some c =>
    simp only [hc] at h
    obtain ⟨verdict, hverdict, h⟩ := bind_eq_ok.mp h
    cases verdict with
    | valid => exact .inr ⟨c, rfl, hverdict⟩
    | invalid reason => exact .inl ⟨_, (Except.ok.inj h).symm⟩

theorem deny_else {p : Prop} [Decidable p] {reason : DenialReason} {detail : Option Str}
    {x : Except ConfirmationError PreAuthorizeResult} :
    (if p then pure (.denied reason detail) else x) = .ok .ok ↔ ¬ p ∧ x = .ok .ok := by
  by_cases hp : p
  · simp [hp, pure, Except.pure]
  · simp [hp]

section Sample

def ownerKey : Str := lit "8a88e3dd7409f195fd52db2d3cba5d72ca6709bf1d94121bf3748801b40f6f5c"

def confirmationOf (action_class expires_at : String) (signature : Str) : OwnerConfirmation where
  id := lit "c1"
  request_id := lit "r1"
  delegation_id := lit "d1"
  action_class := lit action_class
  action_details_hash := []
  confirmation_scope := lit "time_window"
  session_id := none
  confirmed_by := ownerKey
  confirmed_at := lit "2026-01-01T00:00:00.000Z"
  expires_at := lit expires_at
  further := []
  signature := signature

def confirmationText (action_class expires_at : String) : Str :=
  lit "\x7b\"action_class\":\"" ++ lit action_class ++
    lit "\",\"action_details_hash\":\"\",\"confirmation_scope\":\"time_window\",\"confirmed_at\":" ++
    lit "\"2026-01-01T00:00:00.000Z\",\"confirmed_by\":\"" ++ ownerKey ++
    lit "\",\"delegation_id\":\"d1\",\"expires_at\":\"" ++ lit expires_at ++
    lit "\",\"id\":\"c1\",\"request_id\":\"r1\"\x7d"

def looseDigest : Str := lit "d1d64f8f701319268ee0f1f1103b61017cfdbd200161e77599328fb7c34bc9ed"

def looseSignature : Str :=
  lit "7d89f937f9fef1f8b196093e04635a5420b477c9a679bb743a7b5bd1ffb3b900" ++
    lit "79e5876a972c3f07a6e51b8354e747565e1917b48e3d641bad057ed749fc3804"

def undatedDigest : Str := lit "0795c169a10cab7edc9d9db1e053a9414b19021bb136318a7fcb47c5a39c8621"

def undatedSignature : Str :=
  lit "4cdeb766de2667d5c181f985827bc9a771a288f383fe555a6d4cc3f1b2872a48" ++
    lit "e4f04b677134d661dff0a7cd314a550b5377fe37783e72de81e1a571a70bf002"

def datedDigest : Str := lit "619e10c6498aa529028a4b2c9a0ef2dfadf7952c3f60f25231bc6c684926d47a"

def datedSignature : Str :=
  lit "99b0c06794c2e74affb250e0121a537bc355b6821205269c18f0dea2f161a74e" ++
    lit "300f659a66d42655abbada5c166597b75b37c8348f946a397a92660041a47e05"

/-- For the class `pay` a confirmation of a looser kind than the delegation asks for. -/
def loose : OwnerConfirmation := confirmationOf "pay" "2026-01-01T01:00:00.000Z" looseSignature

def undated : OwnerConfirmation := confirmationOf "report" "never" undatedSignature

def dated : OwnerConfirmation := confirmationOf "report" "2026-01-01T01:00:00.000Z" datedSignature

def ownerRuntime : Runtime where
  numText := integerText
  sha256 text :=
    if text = confirmationText "pay" "2026-01-01T01:00:00.000Z" then looseDigest
    else if text = confirmationText "report" "never" then undatedDigest
    else datedDigest
  sign _ _ := none
  verify message signature key :=
    key = ownerKey ∧ (message, signature) ∈
      [(looseDigest, looseSignature), (undatedDigest, undatedSignature), (datedDigest, datedSignature)]
  getTime text := if text = lit "2026-01-01T01:00:00.000Z" then .ofInt 1767229200000 else .nan

/-- Payments are confirmed one by one, reports for a while. -/
def ownedDelegation : V2Delegation where
  id := lit "d1"
  delegator := ownerKey
  escalation_requirements := some [⟨lit "pay", true, .ofInt 3600000, lit "per_action"⟩,
    ⟨lit "report", true, .ofInt 3600000, lit "time_window"⟩]

def ownedView : DelegationView where
  receipt_id := lit "d1"
  scope := [lit "pay", lit "report"]
  spend_limit_base_units := lit "10"
  not_before := none
  not_after := none
  wallet_id := lit "w1"
  currency := lit "XNO"
  escalation_requirements := ownedDelegation.escalation_requirements
  delegator := some ownerKey

theorem ownedView_made : ownedView.MadeFrom ownedDelegation := ⟨rfl, rfl, rfl⟩

def halfPast : JsNumber := .ofInt 1767227400000

theorem confirmation_verifiers_agree_dated :
    verifyOwnerConfirmation ownerRuntime dated ⟨lit "report", .undefined, none⟩ ownedDelegation halfPast =
      .ok .valid := by
  have hview : verifyOwnerConfirmationAgainstView ownerRuntime dated ownedView (lit "report") .undefined none
      halfPast = .ok .valid := by
    unfold ownerRuntime confirmationText ownedView ownedDelegation dated confirmationOf ownerKey looseDigest looseSignature
      undatedDigest undatedSignature datedDigest datedSignature
    repeat rw [lit_ofList]
    decide +kernel
  have htime : ownerRuntime.getTime dated.expires_at ≠ .nan := by decide +kernel
  have hnow : halfPast ≠ .nan := by decide +kernel
  exact (confirmation_verifiers_agree ownerRuntime rfl ownedView_made hview).mpr ⟨rfl, htime, hnow⟩

/-- The payment gate takes a confirmation of a looser kind and one whose expiry is no time; the full
verifier refuses both. -/
theorem gate_looser_than_verifier :
    verifyOwnerConfirmationAgainstView ownerRuntime loose ownedView (lit "pay") .undefined none halfPast =
      .ok .valid ∧
    verifyOwnerConfirmation ownerRuntime loose ⟨lit "pay", .undefined, none⟩ ownedDelegation halfPast =
      .ok (.invalid (lit "confirmation_scope mismatch")) ∧
    verifyOwnerConfirmationAgainstView ownerRuntime undated ownedView (lit "report") .undefined none halfPast =
      .ok .valid ∧
    verifyOwnerConfirmation ownerRuntime undated ⟨lit "report", .undefined, none⟩ ownedDelegation halfPast =
      .ok (.invalid (lit "confirmation expired")) := by
  unfold ownerRuntime confirmationText ownedView ownedDelegation loose undated confirmationOf ownerKey looseDigest
    looseSignature undatedDigest undatedSignature datedDigest datedSignature
  repeat rw [lit_ofList]
  decide +kernel

end Sample

end AgentPassport.HumanEscalation
