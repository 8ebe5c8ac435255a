import AgentPassport.JsText
import AgentPassport.Outcome

/-! The lifecycle state vocabulary and its validating constructor (`v2/lifecycle-state/types.ts`,
`v2/lifecycle-state/state.ts`). -/
namespace AgentPassport.LifecycleState
open JsText Outcome

inductive LifecycleVerdict where
  | valid | invalid | not_established | not_yet_effective | suspended | restricted
  deriving DecidableEq

inductive BoundaryOutcome where
  | authorized | denied | not_established
  deriving DecidableEq

inductive EstablishmentGap where
  | source | freshness | coverage
  deriving DecidableEq

structure OutstandingCause where
  id : Str
  kind : Str
  reason_code : Str
  deriving DecidableEq

/-- What the constructor takes. -/
structure LifecycleStateInput where
  verdict : LifecycleVerdict
  reason_code : Str
  missing : Option (List EstablishmentGap) := none
  applied_default : Option Str := none
  outstanding : Option (List OutstandingCause) := none
  deriving DecidableEq

/-- What it returns: the same members, checked. -/
structure LifecycleStateResult where
  verdict : LifecycleVerdict
  reason_code : Str
  missing : Option (List EstablishmentGap)
  applied_default : Option Str
  outstanding : Option (List OutstandingCause)
  deriving DecidableEq

inductive LifecycleStateCode where
  | REASON_CODE_INVALID | MISSING_REQUIRED | MISSING_NOT_ALLOWED | OUTSTANDING_MALFORMED
  | OUTSTANDING_REQUIRED | OUTSTANDING_NOT_ALLOWED | APPLIED_DEFAULT_INVALID | APPLIED_DEFAULT_NOT_ALLOWED
  deriving DecidableEq

structure LifecycleStateError where
  code : LifecycleStateCode
  message : Str
  deriving DecidableEq

def verdictName : LifecycleVerdict → Str
  | .valid => lit "valid"
  | .invalid => lit "invalid"
  | .not_established => lit "not_established"
  | .not_yet_effective => lit "not_yet_effective"
  | .suspended => lit "suspended"
  | .restricted => lit "restricted"

def isUpper (c : UInt16) : Bool := 0x41 ≤ c && c ≤ 0x5A

/-- `REASON_CODE_PATTERN`. -/
def isReasonCode : Str → Bool
  | [] => false
  | c :: rest => isUpper c && rest.all (fun d => isUpper d || isDigit d || d = 0x5F)

def causeField (index : Nat) (field : String) (value : Str) : Except LifecycleStateError Unit :=
  if value = [] then
    throw ⟨.OUTSTANDING_MALFORMED,
      lit "outstanding[" ++ decimal index ++ lit "]." ++ lit field ++ lit " must be a non-empty string"⟩
  else pure ()

def assertCause (cause : OutstandingCause) (index : Nat) : Except LifecycleStateError Unit := do
  causeField index "id" cause.id
  causeField index "kind" cause.kind
  causeField index "reason_code" cause.reason_code

def assertCauses (index : Nat) : List OutstandingCause → Except LifecycleStateError Unit
  | [] => pure ()
  | cause :: rest => do
    assertCause cause index
    assertCauses (index + 1) rest

def checkReasonCode (input : LifecycleStateInput) : Except LifecycleStateError Unit :=
  if isReasonCode input.reason_code then pure ()
  else throw ⟨.REASON_CODE_INVALID, lit "reason_code must be a non-empty SCREAMING_SNAKE_CASE string"⟩

/-- `missing` belongs to `not_established` and to no other verdict. -/
def checkMissing (input : LifecycleStateInput) : Except LifecycleStateError Unit :=
  if input.verdict = .not_established then
    if input.missing.getD [] = [] then
      throw ⟨.MISSING_REQUIRED, lit "a not_established verdict must name at least one missing establishment limb"⟩
    else pure ()
  else if input.missing ≠ none then
    throw ⟨.MISSING_NOT_ALLOWED,
      lit "missing is only meaningful on not_established, not on " ++ verdictName input.verdict⟩
  else pure ()

/-- `outstanding` belongs to the two pause verdicts and to no other. -/
def checkOutstanding (input : LifecycleStateInput) : Except LifecycleStateError Unit :=
  if input.verdict = .suspended ∨ input.verdict = .restricted then
    if input.outstanding.getD [] = [] then
      throw ⟨.OUTSTANDING_REQUIRED,
        lit "a " ++ verdictName input.verdict ++ lit " verdict must name at least one outstanding cause"⟩
    else assertCauses 0 (input.outstanding.getD [])
  else if input.outstanding ≠ none then
    throw ⟨.OUTSTANDING_NOT_ALLOWED,
      lit "outstanding is only meaningful on suspended or restricted, not on " ++ verdictName input.verdict⟩
  else pure ()

def checkDefault (input : LifecycleStateInput) : Except LifecycleStateError Unit :=
  match input.applied_default with
  | none => pure ()
  | some text =>
    if text = [] then
      throw ⟨.APPLIED_DEFAULT_INVALID, lit "applied_default must be a non-empty string when present"⟩
    else if input.verdict = .not_established then
      throw ⟨.APPLIED_DEFAULT_NOT_ALLOWED,
        lit "applied_default cannot appear on not_established: a default that applied is a conclusion"⟩
    else pure ()

def lifecycleState (input : LifecycleStateInput) : Except LifecycleStateError LifecycleStateResult := do
  checkReasonCode input
  checkMissing input
  checkOutstanding input
  checkDefault input
  return ⟨input.verdict, input.reason_code, input.missing, input.applied_default, input.outstanding⟩

def notEstablished (missing : List EstablishmentGap) (reasonCode : Str) :
    Except LifecycleStateError LifecycleStateResult :=
  lifecycleState { verdict := .not_established, reason_code := reasonCode, missing := some missing }

theorem lifecycleState_ok {input : LifecycleStateInput} {result : LifecycleStateResult}
    (h : lifecycleState input = .ok result) :
    result = ⟨input.verdict, input.reason_code, input.missing, input.applied_default, input.outstanding⟩ := by
  unfold lifecycleState at h
  obtain ⟨_, -, h⟩ := bind_eq_ok.mp h
  obtain ⟨_, -, h⟩ := bind_eq_ok.mp h
  obtain ⟨_, -, h⟩ := bind_eq_ok.mp h
  obtain ⟨_, -, h⟩ := bind_eq_ok.mp h
  cases h
  rfl

end AgentPassport.LifecycleState
