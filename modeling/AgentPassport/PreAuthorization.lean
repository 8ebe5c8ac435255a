import AgentPassport.HumanEscalation

/-! What `preAuthorize` has shown when it lets a payment through (`v2/payment-rails/hooks.ts`). A bound of
the time window that cannot be read as a time is skipped. -/
namespace AgentPassport.PreAuthorization
open JsText Js Outcome HumanEscalation
open DelegationVersions (Runtime)
open NanoRail (bigInt)

/-- `input.action_class ?? required_scope`. -/
def actionClass (input : PreAuthorizeInput) : Str := input.action_class.getD input.required_scope

/-- Some requirement of the delegation asks for a confirmation of the action class. -/
def Demanded (input : PreAuthorizeInput) : Prop :=
  ∃ r ∈ input.delegation.escalation_requirements.getD [], r.action_class = actionClass input ∧
    r.requires_owner_confirmation = true

section
variable (R : Runtime) (isWalletRevoked : Str → Bool) (input : PreAuthorizeInput) (now : JsNumber)

/-- The confirmation that came with the request is the delegator's, for this delegation and class, bound
to the action as its scope says. -/
structure Confirms (c : OwnerConfirmation) (delegator : Str) : Prop where
  supplied : input.owner_confirmation = some c
  named : input.delegation.delegator = some delegator
  readable : delegator ≠ []
  delegation_id : c.delegation_id = input.delegation.receipt_id
  action_class : c.action_class = actionClass input
  confirmed_by : c.confirmed_by = delegator
  bound : Bound R c c.confirmation_scope input.action_details input.session_id
  signed : Signed R c delegator

/-- What the gates ask of a request. -/
structure Admitted : Prop where
  wallet : isWalletRevoked input.delegation.wallet_id = false
  scope : input.required_scope ∈ input.delegation.scope
  confirmed : Demanded input → ∃ c delegator, Confirms R input c delegator ∧ (R.getTime c.expires_at).lt now = false
  not_before : ∀ text, input.delegation.not_before = some text → R.getTime text ≠ .nan →
    now.lt (R.getTime text) = false
  not_after : ∀ text, input.delegation.not_after = some text → R.getTime text ≠ .nan →
    (R.getTime text).lt now = false
  currency : input.delegation.currency = input.currency
  amount : ∃ limit amount, bigInt input.delegation.spend_limit_base_units = some limit ∧
    bigInt input.amount_base_units = some amount ∧ amount ≤ limit

/-- The same where every value that is no time, and every amount below zero, denies. -/
structure FailsClosed : Prop where
  wallet : isWalletRevoked input.delegation.wallet_id = false
  scope : input.required_scope ∈ input.delegation.scope
  confirmed : Demanded input → ∃ c delegator, Confirms R input c delegator ∧ now.le (R.getTime c.expires_at) = true
  not_before : ∀ text, input.delegation.not_before = some text → (R.getTime text).le now = true
  not_after : ∀ text, input.delegation.not_after = some text → now.le (R.getTime text) = true
  currency : input.delegation.currency = input.currency
  amount : ∃ limit amount, bigInt input.delegation.spend_limit_base_units = some limit ∧
    bigInt input.amount_base_units = some amount ∧ 0 ≤ amount ∧ amount ≤ limit

end

section
variable {R : Runtime} {isWalletRevoked : Str → Bool} {input : PreAuthorizeInput} {now : JsNumber}

theorem demanded_iff : Demanded input ↔
    ∃ r, findRequirement input.delegation.escalation_requirements (actionClass input) = some r := by
  rw [← Option.isSome_iff_exists, findRequirement, List.find?_isSome]
  constructor
  · intro h
    obtain ⟨r, hr, hclass, hdemands⟩ := h
    exact ⟨r, hr, Bool.and_eq_true_iff.mpr ⟨decide_eq_true hclass, hdemands⟩⟩
  · intro h
    obtain ⟨r, hr, hboth⟩ := h
    obtain ⟨hclass, hdemands⟩ := Bool.and_eq_true_iff.mp hboth
    exact ⟨r, hr, of_decide_eq_true hclass, hdemands⟩

theorem confirms_iff {c : OwnerConfirmation} (hc : input.owner_confirmation = some c) :
    verifyOwnerConfirmationAgainstView R c input.delegation (actionClass input) input.action_details input.session_id
        now = .ok .valid ↔ ∃ delegator, Confirms R input c delegator ∧ (R.getTime c.expires_at).lt now = false := by
  rw [view_valid]
  constructor
  · intro h
    obtain ⟨hnamed, hid, hby, hunexpired, hclass, hbound, hsigned⟩ := h
    obtain ⟨delegator, hdelegator⟩ : ∃ delegator, input.delegation.delegator = some delegator := by
      cases hview : input.delegation.delegator with
      | none =>
        rw [hview] at hnamed
        exact absurd rfl hnamed
      | some delegator => exact ⟨delegator, rfl⟩
    rw [hdelegator, Option.getD_some] at hnamed hby hsigned
    exact ⟨delegator, ⟨hc, hdelegator, hnamed, hid, hclass, hby, hbound, hsigned⟩, hunexpired⟩
  · intro h
    obtain ⟨delegator, hconfirms, hunexpired⟩ := h
    rw [hconfirms.named, Option.getD_some]
    exact ⟨hconfirms.readable, hconfirms.delegation_id, hconfirms.confirmed_by, hunexpired, hconfirms.action_class,
      hconfirms.bound, hconfirms.signed⟩

theorem gate_passes_iff : confirmationGate R input now = .ok none ↔
    (Demanded input → ∃ c delegator, Confirms R input c delegator ∧ (R.getTime c.expires_at).lt now = false) := by
  rw [demanded_iff, confirmationGate, ← actionClass]
  cases hreq : findRequirement input.delegation.escalation_requirements (actionClass input) with
  | none => exact ⟨fun _ h => (by obtain ⟨r, hr⟩ := h; cases hr), fun _ => rfl⟩
  | some requirement =>
    dsimp only
    cases hc : input.owner_confirmation with
    | none =>
      constructor
      · intro h
        cases h
      · intro h
        obtain ⟨c, delegator, hconfirms, -⟩ := h ⟨requirement, rfl⟩
        have hnone := hconfirms.supplied
        rw [hc] at hnone
        cases hnone
    | some c =>
      dsimp only
      rw [bind_eq_ok]
      constructor
      · intro h _
        obtain ⟨verdict, hverdict, h⟩ := h
        cases verdict with
        | invalid reason => cases h
        | valid => exact ⟨c, (confirms_iff hc).mp hverdict⟩
      · intro h
        obtain ⟨c', delegator, hconfirms, hunexpired⟩ := h ⟨requirement, rfl⟩
        have hsame := hconfirms.supplied
        rw [hc] at hsame
        cases hsame
        exact ⟨.valid, (confirms_iff hc).mpr ⟨delegator, hconfirms, hunexpired⟩, rfl⟩

theorem gate_denies {outcome : PreAuthorizeResult} (h : confirmationGate R input now = .ok (some outcome)) :
    outcome ≠ .ok := by
  cases hreq : findRequirement input.delegation.escalation_requirements
      (input.action_class.getD input.required_scope) with
  | none =>
    simp only [confirmationGate, hreq] at h
    cases h
  | some requirement =>
    obtain ⟨detail, hdenied⟩ | ⟨c, hc, hvalid⟩ := gate_cases hreq h
    · cases hdenied
      exact fun heq => PreAuthorizeResult.noConfusion heq
    · have hpasses := gate_passes_iff.mpr (fun _ => ⟨c, (confirms_iff hc).mp hvalid⟩)
      rw [h] at hpasses
      cases hpasses

theorem window_none_iff {name : String} {outside : JsNumber → Bool} {bound : Option Str} :
    windowViolation R name outside bound = none ↔
      ∀ text, bound = some text → R.getTime text ≠ .nan → outside (R.getTime text) = false := by
  cases bound with
  | none => exact ⟨fun _ text h => (by cases h), fun _ => rfl⟩
  | some text =>
    rw [windowViolation, Option.bind_some]
    by_cases hout : R.getTime text ≠ .nan ∧ outside (R.getTime text) = true
    · rw [if_pos hout]
      refine ⟨fun h => (by cases h), fun h => ?_⟩
      rw [h text rfl hout.1] at hout
      cases hout.2
    · rw [if_neg hout]
      refine ⟨fun _ text' heq hreadable => ?_, fun _ => rfl⟩
      cases heq
      exact Bool.eq_false_iff.mpr (fun h => hout ⟨hreadable, h⟩)

theorem window_denies {name : String} {outside : JsNumber → Bool} {bound : Option Str} {outcome : PreAuthorizeResult}
    (h : windowViolation R name outside bound = some outcome) : outcome ≠ .ok := by
  rw [windowViolation, Option.bind_eq_some_iff] at h
  obtain ⟨text, -, h⟩ := h
  split at h
  · cases h
    exact fun heq => PreAuthorizeResult.noConfusion heq
  · cases h

theorem spend_ok_iff : spendCheck input = .ok ↔ input.delegation.currency = input.currency ∧
    ∃ limit amount, bigInt input.delegation.spend_limit_base_units = some limit ∧
      bigInt input.amount_base_units = some amount ∧ amount ≤ limit := by
  rw [spendCheck]
  by_cases hcurrency : input.delegation.currency = input.currency
  · rw [if_neg (not_not.mpr hcurrency)]
    cases hlimit : bigInt input.delegation.spend_limit_base_units with
    | none => exact ⟨fun h => (by cases h), fun h => (by obtain ⟨-, _, _, h, -⟩ := h; cases h)⟩
    | some limit =>
      cases hamount : bigInt input.amount_base_units with
      | none => exact ⟨fun h => (by cases h), fun h => (by obtain ⟨-, _, _, -, h, -⟩ := h; cases h)⟩
      | some amount =>
        dsimp only
        by_cases hover : limit < amount
        · rw [if_pos hover]
          refine ⟨fun h => (by cases h), fun h => ?_⟩
          obtain ⟨-, _, _, hl, ha, hle⟩ := h
          cases hl
          cases ha
          omega
        · rw [if_neg hover]
          exact ⟨fun _ => ⟨hcurrency, limit, amount, rfl, rfl, by omega⟩, fun _ => rfl⟩
  · rw [if_pos hcurrency]
    exact ⟨fun h => (by cases h), fun h => absurd h.1 hcurrency⟩

theorem bounds_ok_iff : ((windowViolation R "not_before" (fun bound => now.lt bound) input.delegation.not_before).or
      (windowViolation R "not_after" (fun bound => bound.lt now) input.delegation.not_after)).getD (spendCheck input) =
        .ok ↔
    windowViolation R "not_before" (fun bound => now.lt bound) input.delegation.not_before = none ∧
      windowViolation R "not_after" (fun bound => bound.lt now) input.delegation.not_after = none ∧
      spendCheck input = .ok := by
  cases hbefore : windowViolation R "not_before" (fun bound => now.lt bound) input.delegation.not_before with
  | some outcome => exact ⟨fun h => absurd h (window_denies hbefore), fun h => (by cases h.1)⟩
  | none =>
    rw [Option.none_or]
    cases hafter : windowViolation R "not_after" (fun bound => bound.lt now) input.delegation.not_after with
    | some outcome => exact ⟨fun h => absurd h (window_denies hafter), fun h => (by cases h.2.1)⟩
    | none => exact ⟨fun h => ⟨rfl, rfl, h⟩, fun h => h.2.2⟩

end

theorem preAuthorize_ok_iff (R : Runtime) (isWalletRevoked : Str → Bool) (input : PreAuthorizeInput) (now : JsNumber) :
    preAuthorize R isWalletRevoked input now = .ok .ok ↔ Admitted R isWalletRevoked input now := by
  rw [preAuthorize, deny_else, deny_else, Bool.not_eq_true, Bool.not_eq_true', Bool.not_eq_false, List.contains_iff_mem,
    bind_eq_ok]
  constructor
  · intro h
    obtain ⟨hwallet, hscope, outcome, hgate, h⟩ := h
    cases outcome with
    | some denial => exact absurd (Except.ok.inj h) (gate_denies hgate)
    | none =>
      obtain ⟨hbefore, hafter, hspend⟩ := bounds_ok_iff.mp (Except.ok.inj h)
      obtain ⟨hcurrency, hamount⟩ := spend_ok_iff.mp hspend
      exact ⟨hwallet, hscope, gate_passes_iff.mp hgate, window_none_iff.mp hbefore, window_none_iff.mp hafter,
        hcurrency, hamount⟩
  · intro h
    refine ⟨h.wallet, h.scope, none, gate_passes_iff.mpr h.confirmed, ?_⟩
    have hbounds := bounds_ok_iff.mpr ⟨window_none_iff.mpr h.not_before, window_none_iff.mpr h.not_after,
      spend_ok_iff.mpr ⟨h.currency, h.amount⟩⟩
    exact congrArg Except.ok hbounds

/-- What is let through has passed every gate. -/
theorem preAuthorize_fails_closed (R : Runtime) (isWalletRevoked : Str → Bool) (input : PreAuthorizeInput)
    (now : JsNumber) (h : preAuthorize R isWalletRevoked input now = .ok .ok) : Admitted R isWalletRevoked input now :=
  (preAuthorize_ok_iff R isWalletRevoked input now).mp h

section Sample

def vagueInput : PreAuthorizeInput where
  delegation := { ownedView with scope := [lit "read"], not_before := some (lit "soon") }
  required_scope := lit "read"
  amount_base_units := lit "5"
  currency := lit "XNO"
  owner_confirmation := none
  action_class := none
  action_details := .undefined
  session_id := none

theorem vague_ok : preAuthorize ownerRuntime (fun _ => false) vagueInput halfPast = .ok .ok := by decide

theorem preAuthorize_fails_closed_vague : preAuthorize ownerRuntime (fun _ => false) vagueInput halfPast = .ok .ok ∧
    Admitted ownerRuntime (fun _ => false) vagueInput halfPast :=
  ⟨vague_ok, preAuthorize_fails_closed ownerRuntime (fun _ => false) vagueInput halfPast vague_ok⟩

theorem unreadable_window_admitted :
    ¬ ∀ (R : Runtime) (isWalletRevoked : Str → Bool) (input : PreAuthorizeInput) (now : JsNumber),
      preAuthorize R isWalletRevoked input now = .ok .ok → FailsClosed R isWalletRevoked input now := by
  intro h
  have hnan : ownerRuntime.getTime (lit "soon") = .nan := by decide
  have hbefore := (h ownerRuntime _ vagueInput halfPast vague_ok).not_before (lit "soon") rfl
  rw [hnan] at hbefore
  cases hbefore

end Sample

end AgentPassport.PreAuthorization
