import AgentPassport.JsArithmetic
import AgentPassport.JsValue

/-! The spend cap a delegation imposes on a payment rail (`v2/payment-rails/scope-resolution`): three
sources tried in an order that depends on the rail's key, and when two rails read the same cap. -/
namespace AgentPassport.SpendLimits
open JsText Js

/-- The two records of a scope that are read; their values are whatever the delegation carries. -/
structure V2ScopeDefinition where
  resource_limits : Option (List (Str × JsValue))
  constraints : Option (List (Str × JsValue))

structure V2Delegation where
  scope : Option V2ScopeDefinition

def SPEND_LIMIT_CENTS : Str := lit "spend_limit_cents"
def COMMERCE_SPEND_LIMIT : Str := lit "commerce.spend_limit"

def isUsableNumber : JsValue → Bool
  | .num (.finite d) => 0 ≤ d.scaled
  | _ => false

def usable (v : JsValue) : Option JsNumber :=
  match v with
  | .num n => if isUsableNumber (.num n) then some n else none
  | _ => none

def limitsOf (delegation : V2Delegation) : JsValue :=
  .obj ((delegation.scope.bind (·.resource_limits)).getD [])

def constraintsOf (delegation : V2Delegation) : JsValue :=
  .obj ((delegation.scope.bind (·.constraints)).getD [])

section
variable (toNumber : Str → JsNumber)

/-- The third source: `Number(text)` of a text that is not empty. -/
def constraintCap (delegation : V2Delegation) : Option JsNumber :=
  match (constraintsOf delegation).get SPEND_LIMIT_CENTS with
  | .str text => if 0 < text.length then usable (.num (toNumber text)) else none
  | _ => none

def limitAt (delegation : V2Delegation) (key : Str) : Option JsNumber := usable ((limitsOf delegation).get key)

def resolveSpendLimitCents (delegation : V2Delegation) (key : Option Str) : Option JsNumber :=
  let canonicalKey := key.getD SPEND_LIMIT_CENTS
  match limitAt delegation canonicalKey with
  | some v1 => some v1
  | none =>
    match if canonicalKey ≠ COMMERCE_SPEND_LIMIT then limitAt delegation COMMERCE_SPEND_LIMIT else none with
    | some v2 => some v2
    | none => constraintCap toNumber delegation

def railKeys : List (Option Str) := [none, some SPEND_LIMIT_CENTS, some COMMERCE_SPEND_LIMIT]

inductive SameCap : Option JsNumber → Option JsNumber → Prop
  | null : SameCap none none
  | cap {a b : JsNumber} (h : a.eq b = true) : SameCap (some a) (some b)

theorem resolve_default (delegation : V2Delegation) :
    resolveSpendLimitCents toNumber delegation none =
      resolveSpendLimitCents toNumber delegation (some SPEND_LIMIT_CENTS) := rfl

theorem resolve_cents (delegation : V2Delegation) :
    resolveSpendLimitCents toNumber delegation (some SPEND_LIMIT_CENTS) =
      (limitAt delegation SPEND_LIMIT_CENTS <|> limitAt delegation COMMERCE_SPEND_LIMIT <|>
        constraintCap toNumber delegation) := by
  have hne : SPEND_LIMIT_CENTS ≠ COMMERCE_SPEND_LIMIT := by decide
  rw [resolveSpendLimitCents, Option.getD_some, if_pos hne]
  cases limitAt delegation SPEND_LIMIT_CENTS with
  | some v1 => rfl
  | none => cases limitAt delegation COMMERCE_SPEND_LIMIT <;> rfl

theorem resolve_commerce (delegation : V2Delegation) :
    resolveSpendLimitCents toNumber delegation (some COMMERCE_SPEND_LIMIT) =
      (limitAt delegation COMMERCE_SPEND_LIMIT <|> constraintCap toNumber delegation) := by
  rw [resolveSpendLimitCents, Option.getD_some, if_neg (not_not.mpr rfl)]
  cases limitAt delegation COMMERCE_SPEND_LIMIT <;> rfl

/-- The numeric key, if it holds a usable number, repeats what the other two sources say: the alias,
or, where the alias is not usable, the constraint. -/
def Agreeing (delegation : V2Delegation) : Prop :=
  ∀ v1, limitAt delegation SPEND_LIMIT_CENTS = some v1 →
    (∃ v2, limitAt delegation COMMERCE_SPEND_LIMIT = some v2 ∧ v1.eq v2 = true) ∨
    (limitAt delegation COMMERCE_SPEND_LIMIT = none ∧
      ∃ v3, constraintCap toNumber delegation = some v3 ∧ v1.eq v3 = true)

theorem usable_eq_self {v : JsValue} {n : JsNumber} (h : usable v = some n) : n.eq n = true := by
  cases v with
  | num m =>
    rw [usable] at h
    split at h
    · rename_i husable
      cases h
      cases n with
      | finite d => exact decide_eq_true rfl
      | nan => cases husable
      | infinite neg => cases husable
    · cases h
  | _ => cases h

theorem constraintCap_eq_self {delegation : V2Delegation} {n : JsNumber}
    (h : constraintCap toNumber delegation = some n) : n.eq n = true := by
  rw [constraintCap] at h
  split at h
  · split at h
    · exact usable_eq_self h
    · cases h
  · cases h

theorem sameCap_symm {a b : Option JsNumber} (h : SameCap a b) : SameCap b a := by
  cases h with
  | null => exact .null
  | cap h =>
    rw [JsNumber.eq_comm] at h
    exact .cap h

theorem resolve_sameCap_self (delegation : V2Delegation) (key : Option Str) :
    SameCap (resolveSpendLimitCents toNumber delegation key) (resolveSpendLimitCents toNumber delegation key) := by
  cases h : resolveSpendLimitCents toNumber delegation key with
  | none => exact .null
  | some n =>
    apply SameCap.cap
    rw [resolveSpendLimitCents] at h
    split at h
    · rename_i v1 hv1
      cases h
      exact usable_eq_self hv1
    · split at h
      · rename_i v2 hv2
        cases h
        split at hv2
        · exact usable_eq_self hv2
        · cases hv2
      · exact constraintCap_eq_self toNumber h

theorem sameCap_iff (delegation : V2Delegation) :
    SameCap (resolveSpendLimitCents toNumber delegation (some SPEND_LIMIT_CENTS))
      (resolveSpendLimitCents toNumber delegation (some COMMERCE_SPEND_LIMIT)) ↔ Agreeing toNumber delegation := by
  have hself := resolve_sameCap_self toNumber delegation (some COMMERCE_SPEND_LIMIT)
  rw [resolve_cents]
  rw [resolve_commerce] at hself ⊢
  unfold Agreeing
  cases hv1 : limitAt delegation SPEND_LIMIT_CENTS with
  | none =>
    -- both fall to the alias
    refine ⟨?_, fun _ => hself⟩
    intro _ v hv
    cases hv
  | some v1 =>
    cases hv2 : limitAt delegation COMMERCE_SPEND_LIMIT with
    | some v2 =>
      constructor
      · intro h v hv
        cases hv
        cases h with
        | cap h => exact .inl ⟨v2, rfl, h⟩
      · intro h
        obtain ⟨v, hv, heq⟩ | ⟨hnone, -⟩ := h v1 rfl
        · cases hv
          exact .cap heq
        · cases hnone
    | none =>
      constructor
      · intro h v hv
        cases hv
        cases hv3 : constraintCap toNumber delegation with
        | none =>
          rw [hv3] at h
          cases h
        | some v3 =>
          rw [hv3] at h
          cases h with
          | cap h => exact .inr ⟨rfl, v3, rfl, h⟩
      · intro h
        obtain ⟨v, hv, -⟩ | ⟨-, v3, hv3, heq⟩ := h v1 rfl
        · cases hv
        · rw [hv3]
          exact .cap heq

end

/-- Every two rails read one cap from a delegation exactly when its numeric key agrees with the
other sources. -/
theorem one_cap_iff (toNumber : Str → JsNumber) (delegation : V2Delegation) :
    (∀ key ∈ railKeys, ∀ key' ∈ railKeys,
      SameCap (resolveSpendLimitCents toNumber delegation key) (resolveSpendLimitCents toNumber delegation key')) ↔
    Agreeing toNumber delegation := by
  rw [← sameCap_iff]
  constructor
  · intro h
    exact h _ (by simp [railKeys]) _ (by simp [railKeys])
  · intro h
    have hself := resolve_sameCap_self toNumber delegation
    simp only [railKeys, List.forall_mem_cons, resolve_default]
    exact ⟨⟨hself _, hself _, h, by simp⟩, ⟨hself _, hself _, h, by simp⟩,
      ⟨sameCap_symm h, sameCap_symm h, hself _, by simp⟩, by simp⟩

def twoCaps : V2Delegation where
  scope := some {
    resource_limits := some [(COMMERCE_SPEND_LIMIT, .num (JsNumber.ofInt 4200)),
      (SPEND_LIMIT_CENTS, .num (JsNumber.ofInt 9999))]
    constraints := none }

/-- No text is parsed here: the delegation has no constraints. -/
theorem two_caps : ¬ ∀ (toNumber : Str → JsNumber) (delegation : V2Delegation), ∀ key ∈ railKeys, ∀ key' ∈ railKeys,
    SameCap (resolveSpendLimitCents toNumber delegation key)
      (resolveSpendLimitCents toNumber delegation key') := by
  intro h
  have hsame := h (fun _ => .nan) twoCaps none (by simp [railKeys]) (some COMMERCE_SPEND_LIMIT) (by simp [railKeys])
  have hcents : resolveSpendLimitCents (fun _ => .nan) twoCaps none = some (JsNumber.ofInt 9999) := by decide +kernel
  have hcommerce : resolveSpendLimitCents (fun _ => .nan) twoCaps (some COMMERCE_SPEND_LIMIT) =
      some (JsNumber.ofInt 4200) := by decide +kernel
  rw [hcents, hcommerce] at hsame
  have hdifferent : (JsNumber.ofInt 9999).eq (JsNumber.ofInt 4200) = false := by decide +kernel
  generalize JsNumber.ofInt 9999 = a at hsame hdifferent
  generalize JsNumber.ofInt 4200 = b at hsame hdifferent
  cases hsame with
  | cap hsame => exact Bool.false_ne_true (hdifferent.symm.trans hsame)

end AgentPassport.SpendLimits
