import AgentPassport.JsArithmetic
import AgentPassport.Rfc3339

/-! The age of revocation evidence (`core/freshness.ts`), the record of a check (`v2/verifier-hardening`) and
what a relying party decides on it (`v2/revocation-enforcement`). -/
namespace AgentPassport.EvidenceFreshness
open JsText Js Rfc3339

inductive FreshnessType where
  | snapshot
  | rotating
  | static

structure AttestationFreshness where
  type : FreshnessType
  validAt : Str
  ttl : Option JsNumber
  maxAge : Option JsNumber

/-- A `Date` that is valid: a time value of at most 10^8 days. -/
structure JsDate where
  ms : Int
  valid : ms.natAbs ≤ 8640000000000000

def MAX_SAFE_INTEGER : Int := 2 ^ 53 - 1

/-- Whole seconds. -/
def computeEvidenceAge (freshness : AttestationFreshness) (current : JsDate) : Int :=
  match parseRfc3339 (.str freshness.validAt) with
  | .error _ => MAX_SAFE_INTEGER
  | .ok validAt =>
    let ageMs := current.ms - validAt
    if ageMs < 0 then 0 else ageMs / 1000

def isEvidenceFresh (freshness : AttestationFreshness) (current : JsDate) : Bool :=
  let age := JsNumber.ofInt (computeEvidenceAge freshness current)
  match freshness.type with
  | .rotating =>
    match freshness.ttl with
    | none => false
    | some ttl => age.lt ttl
  | .snapshot =>
    match freshness.maxAge with
    | none => true
    | some maxAge => age.lt maxAge
  | .static => true

/-- An age in milliseconds, as it is compared with a bound. -/
def ageMs (freshness : AttestationFreshness) (current : JsDate) : JsNumber :=
  .ofInt (computeEvidenceAge freshness current * 1000)

inductive RevocationFreshnessResult where
  | fresh
  | stale
  | unavailable
  | skipped
  deriving DecidableEq

/-- The instant of the check stands for its ISO text, which `new Date` reads back. -/
structure RevocationFreshnessRecord where
  checkedAt : JsDate
  source : Str
  freshness : Option AttestationFreshness
  maxStalenessMs : JsNumber
  result : RevocationFreshnessResult
  allowedDespiteStale : Bool

structure RecordOptions where
  source : Str
  maxStalenessMs : JsNumber
  checkedAt : Option JsDate
  freshness : Option AttestationFreshness
  unavailable : Option Bool
  allowDespiteStale : Option Bool

/-- The clock readings of a call without `checkedAt`: for the record, for the age and for the typed lifetime. -/
structure Readings where
  recorded : JsDate
  age : JsDate
  typed : JsDate

def recordRevocationFreshness (r : Readings) (opts : RecordOptions) : RevocationFreshnessRecord :=
  let result :=
    if opts.unavailable = some true then .unavailable
    else
      match opts.freshness with
      | none => .skipped
      | some freshness =>
        let ageMs := ageMs freshness (opts.checkedAt.getD r.age)
        let withinTyped := isEvidenceFresh freshness (opts.checkedAt.getD r.typed)
        let withinWindow := ageMs.le opts.maxStalenessMs
        if withinTyped && withinWindow then .fresh else .stale
  { checkedAt := opts.checkedAt.getD r.recorded
    source := opts.source
    freshness := opts.freshness
    maxStalenessMs := opts.maxStalenessMs
    result := result
    allowedDespiteStale := decide (result ≠ RevocationFreshnessResult.fresh) && opts.allowDespiteStale.getD false }

inductive FreshnessPolicyMode where
  | failOpen
  | failClosed
  | boundedStaleness

inductive StaleAction where
  | allow
  | deny
  | downgrade

structure FreshnessPolicy where
  mode : FreshnessPolicyMode
  action_on_stale : Option StaleAction
  boundedStalenessMs : Option JsNumber

inductive Effect where
  | allow
  | deny
  deriving DecidableEq

structure FreshnessDecision where
  effect : Effect
  downgraded : Bool
  mode : FreshnessPolicyMode
  result : RevocationFreshnessResult
  reason : Str
  record : RevocationFreshnessRecord

def resultText : RevocationFreshnessResult → Str
  | .fresh => lit "fresh"
  | .stale => lit "stale"
  | .unavailable => lit "unavailable"
  | .skipped => lit "skipped"

def resolveStaleAction (action : StaleAction) (result : RevocationFreshnessResult) (mode : FreshnessPolicyMode)
    (record : RevocationFreshnessRecord) (context : Str) : FreshnessDecision :=
  match action with
  | .allow => ⟨.allow, false, mode, result, context ++ lit " " ++ [0x2192] ++ lit " allow", record⟩
  | .downgrade => ⟨.allow, true, mode, result, context ++ lit " " ++ [0x2192] ++ lit " allow (downgraded)", record⟩
  | .deny => ⟨.deny, false, mode, result, context ++ lit " " ++ [0x2192] ++ lit " deny", record⟩

section
variable (numText : Double → Str)

def decideFreshness (record : RevocationFreshnessRecord) (policy : FreshnessPolicy) (now : Option JsDate) :
    FreshnessDecision :=
  let base := fun (effect : Effect) (downgraded : Bool) (reason : Str) =>
    FreshnessDecision.mk effect downgraded policy.mode record.result reason record
  if record.result = .fresh then base .allow false (lit "revocation source fresh within tolerance")
  else
    match policy.mode with
    | .failClosed =>
      base .deny false (lit "fail_closed: revocation result '" ++ resultText record.result ++ lit "' is not fresh")
    | .failOpen =>
      resolveStaleAction (policy.action_on_stale.getD .allow) record.result policy.mode record
        (lit "fail_open: revocation result '" ++ resultText record.result ++ lit "'")
    | .boundedStaleness =>
      match policy.boundedStalenessMs with
      | none => base .deny false (lit "bounded_staleness: boundedStalenessMs not configured")
      | some bound =>
        match record.freshness with
        | none =>
          resolveStaleAction (policy.action_on_stale.getD .deny) record.result policy.mode record
            (lit "bounded_staleness: no measurable age for result '" ++ resultText record.result ++ lit "'")
        | some freshness =>
          let age := ageMs freshness (now.getD record.checkedAt)
          let compared := fun (relation : String) => lit "bounded_staleness: age " ++ JsNumber.text numText age ++
            lit "ms " ++ lit relation ++ lit " bound " ++ JsNumber.text numText bound ++ lit "ms"
          if age.le bound then base .allow false (compared "within")
          else
            resolveStaleAction (policy.action_on_stale.getD .deny) record.result policy.mode record (compared "exceeds")

def enforceFreshnessPolicy (r : Readings) (opts : RecordOptions) (policy : FreshnessPolicy) : FreshnessDecision :=
  decideFreshness numText (recordRevocationFreshness r opts) policy opts.checkedAt

end

def AtMost (ms : Int) : JsNumber → Prop
  | .finite d => ms * scaleOne ≤ d.scaled
  | .infinite neg => neg = false
  | .nan => False

theorem ofInt_le_iff {ms : Int} (h : ms.natAbs < 2 ^ 53) (bound : JsNumber) :
    (JsNumber.ofInt ms).le bound = true ↔ AtMost ms bound := by
  obtain ⟨d, hd, hscaled⟩ := ofInt_exact_int h
  rw [hd]
  cases bound with
  | finite b =>
    rw [le_iff_scaled, hscaled]
    rfl
  | infinite neg =>
    cases neg with
    | false => exact iff_of_true rfl rfl
    | true => exact iff_of_false Bool.false_ne_true Bool.noConfusion
  | nan => exact iff_of_false Bool.false_ne_true id

theorem atMost_ofInt {ms bound : Int} (h : bound.natAbs < 2 ^ 53) : AtMost ms (.ofInt bound) ↔ ms ≤ bound := by
  obtain ⟨d, hd, hscaled⟩ := ofInt_exact_int h
  rw [hd, AtMost, hscaled]
  exact Int.mul_le_mul_iff_of_pos_right scaleOne_pos

/-- Milliseconds without those of the second that has only started. -/
def wholeSeconds (ms : Int) : Int := max ms 0 / 1000 * 1000

/-- At most the longer of the two bounds that are there. -/
def WithinBounds (opts : RecordOptions) (policy : FreshnessPolicy) (ms : Int) : Prop :=
  AtMost ms opts.maxStalenessMs ∨ ∃ bound, policy.boundedStalenessMs = some bound ∧ AtMost ms bound

theorem withinBounds_ofInt {opts : RecordOptions} {policy : FreshnessPolicy} {window bound : Int}
    (hwindow : opts.maxStalenessMs = .ofInt window) (hbound : policy.boundedStalenessMs = some (.ofInt bound))
    (hwindow' : window.natAbs < 2 ^ 53) (hbound' : bound.natAbs < 2 ^ 53) (ms : Int) :
    WithinBounds opts policy ms ↔ ms ≤ max window bound := by
  rw [WithinBounds, hwindow, atMost_ofInt hwindow', le_max_iff]
  refine or_congr_right ?_
  constructor
  · rintro ⟨bound', heq, hle⟩
    cases hbound.symm.trans heq
    exact (atMost_ofInt hbound').mp hle
  · exact fun hle => ⟨_, hbound, (atMost_ofInt hbound').mpr hle⟩

def RecordOptions.checked (opts : RecordOptions) (r : Readings) : Int := (opts.checkedAt.getD r.recorded).ms

/-- What an allowed action was allowed on: a source that was reached, and evidence no older than the bounds. -/
def AllowedWithin (numText : Double → Str) (r : Readings) (opts : RecordOptions) (policy : FreshnessPolicy)
    (validAt : Int) : Prop :=
  (enforceFreshnessPolicy numText r opts policy).effect = .allow →
    opts.unavailable ≠ some true ∧ WithinBounds opts policy (opts.checked r - validAt)

/-- Some bound that is looked at covers the whole seconds: the record's for evidence that is fresh for its type, or the
policy's. -/
def SecondsCovered (r : Readings) (opts : RecordOptions) (policy : FreshnessPolicy) (freshness : AttestationFreshness)
    (validAt : Int) : Prop :=
  (isEvidenceFresh freshness (opts.checkedAt.getD r.typed) = true ∧
    AtMost (wholeSeconds ((opts.checkedAt.getD r.age).ms - validAt)) opts.maxStalenessMs) ∨
  ∃ bound, policy.boundedStalenessMs = some bound ∧ AtMost (wholeSeconds (opts.checked r - validAt)) bound

/-- No bound ends in a second that has only started, and a source that was not reached is over the policy's. -/
structure NoPartialSecond (r : Readings) (opts : RecordOptions) (policy : FreshnessPolicy)
    (freshness : AttestationFreshness) (validAt : Int) : Prop where
  reached : opts.unavailable ≠ some true → SecondsCovered r opts policy freshness validAt →
    WithinBounds opts policy (opts.checked r - validAt)
  unavailable : opts.unavailable = some true → ∀ bound, policy.boundedStalenessMs = some bound →
    ¬ AtMost (wholeSeconds (opts.checked r - validAt)) bound

theorem parse_range {s : Str} {ms : Int} (h : parseRfc3339 (.str s) = .ok ms) :
    -62167305600000 ≤ ms ∧ ms ≤ 253402387200000 := by
  rw [parseRfc3339] at h
  cases hexec : exec s with
  | none =>
    rw [hexec] at h
    cases h
  | some m =>
    rw [hexec] at h
    obtain ⟨hyear, hfrac⟩ := exec_digits hexec
    have hmillis := millisOf_lt hfrac
    have hlt : digitsValue m.year < 10 ^ 4 := by
      rw [← hyear.1]
      exact FixedDigits.digitsValue_lt hyear.2
    obtain ⟨offset, hoffset, hnames⟩ := instant_ok h
    have hdays := days_range hnames.date (by simp only; omega)
    have hrange := offset_range hoffset
    have htime := hnames.time
    have hms := hnames.instant
    simp only at hdays
    omega

theorem computeEvidenceAge_ok {freshness : AttestationFreshness} {validAt : Int}
    (h : parseRfc3339 (.str freshness.validAt) = .ok validAt) (current : JsDate) :
    computeEvidenceAge freshness current * 1000 = wholeSeconds (current.ms - validAt) := by
  rw [computeEvidenceAge, h, wholeSeconds]
  dsimp only
  split
  · rename_i hneg
    rw [max_eq_right (by omega)]
    rfl
  · rename_i hneg
    rw [max_eq_left (by omega)]

theorem ageMs_le_iff {freshness : AttestationFreshness} {validAt : Int}
    (h : parseRfc3339 (.str freshness.validAt) = .ok validAt) (current : JsDate) (bound : JsNumber) :
    (ageMs freshness current).le bound = true ↔ AtMost (wholeSeconds (current.ms - validAt)) bound := by
  rw [ageMs, computeEvidenceAge_ok h]
  refine ofInt_le_iff ?_ bound
  have hrange := parse_range h
  have hdate := current.valid
  rw [wholeSeconds]
  omega

section
variable {numText : Double → Str} {r : Readings} {opts : RecordOptions} {freshness : AttestationFreshness}
  {policy : FreshnessPolicy}

theorem result_fresh_iff (hfreshness : opts.freshness = some freshness) :
    (recordRevocationFreshness r opts).result = .fresh ↔ opts.unavailable ≠ some true ∧
      isEvidenceFresh freshness (opts.checkedAt.getD r.typed) = true ∧
      (ageMs freshness (opts.checkedAt.getD r.age)).le opts.maxStalenessMs = true := by
  rw [recordRevocationFreshness]
  by_cases hdown : opts.unavailable = some true
  · rw [if_pos hdown]
    exact iff_of_false (fun h => by cases h) (fun h => h.1 hdown)
  · rw [if_neg hdown, hfreshness]
    dsimp only
    rw [← Bool.and_eq_true_iff]
    split
    · rename_i hboth
      exact iff_of_true rfl ⟨hdown, hboth⟩
    · rename_i hboth
      exact iff_of_false (fun h => by cases h) (fun h => hboth h.2)

theorem enforceFreshnessPolicy_allow_iff (hmode : policy.mode = .boundedStaleness)
    (haction : policy.action_on_stale = none) (hfreshness : opts.freshness = some freshness) :
    (enforceFreshnessPolicy numText r opts policy).effect = .allow ↔
      (recordRevocationFreshness r opts).result = .fresh ∨
      ∃ bound, policy.boundedStalenessMs = some bound ∧
        (ageMs freshness (opts.checkedAt.getD r.recorded)).le bound = true := by
  rw [enforceFreshnessPolicy, decideFreshness]
  by_cases hfresh : (recordRevocationFreshness r opts).result = .fresh
  · rw [if_pos hfresh]
    exact iff_of_true rfl (.inl hfresh)
  · have hrecord : (recordRevocationFreshness r opts).freshness = some freshness := hfreshness
    have hchecked :
        opts.checkedAt.getD (recordRevocationFreshness r opts).checkedAt = opts.checkedAt.getD r.recorded := by
      cases hat : opts.checkedAt with
      | none =>
        rw [recordRevocationFreshness, hat]
        rfl
      | some date => rfl
    rw [if_neg hfresh, hmode, haction, hrecord]
    cases hbound : policy.boundedStalenessMs with
    | none =>
      refine iff_of_false (fun h => by cases h) ?_
      rintro (h | ⟨bound, h, -⟩)
      · exact hfresh h
      · cases h
    | some bound =>
      dsimp only
      rw [hchecked]
      split
      · rename_i hle
        exact iff_of_true rfl (.inr ⟨bound, rfl, hle⟩)
      · rename_i hle
        refine iff_of_false (fun h => by cases h) ?_
        rintro (h | ⟨bound', h, hle'⟩)
        · exact hfresh h
        · cases h
          exact hle hle'

end

/-- Under a bounded policy without an action, what is allowed had a reached source and was within the longer bound
exactly when no bound ends in the second that has started and an unreached source is over the policy's bound. -/
theorem allowed_within_bounds_iff (numText : Double → Str) (r : Readings) (opts : RecordOptions)
    (policy : FreshnessPolicy) (freshness : AttestationFreshness) (validAt : Int)
    (hmode : policy.mode = .boundedStaleness) (haction : policy.action_on_stale = none)
    (hfreshness : opts.freshness = some freshness)
    (hvalid : parseRfc3339 (.str freshness.validAt) = .ok validAt) :
    AllowedWithin numText r opts policy validAt ↔ NoPartialSecond r opts policy freshness validAt := by
  have hallow : (enforceFreshnessPolicy numText r opts policy).effect = .allow ↔
      (opts.unavailable ≠ some true ∧ SecondsCovered r opts policy freshness validAt) ∨
      ∃ bound, policy.boundedStalenessMs = some bound ∧ AtMost (wholeSeconds (opts.checked r - validAt)) bound := by
    rw [enforceFreshnessPolicy_allow_iff hmode haction hfreshness, result_fresh_iff hfreshness]
    simp only [ageMs_le_iff hvalid]
    rw [SecondsCovered, RecordOptions.checked]
    tauto
  rw [AllowedWithin, hallow]
  constructor
  · intro h
    constructor
    · exact fun hreached hcovered => (h (.inl ⟨hreached, hcovered⟩)).2
    · exact fun hdown bound hbound hcovered => (h (.inr ⟨bound, hbound, hcovered⟩)).1 hdown
  · rintro h (⟨hreached, hcovered⟩ | ⟨bound, hbound, hcovered⟩)
    · exact ⟨hreached, h.reached hreached hcovered⟩
    · have hreached : opts.unavailable ≠ some true := fun hdown => h.unavailable hdown bound hbound hcovered
      exact ⟨hreached, h.reached hreached (.inr ⟨bound, hbound, hcovered⟩)⟩

def noonEvidence : AttestationFreshness := ⟨.snapshot, lit "2026-01-01T12:00:00.000Z", none, none⟩

def afterNoon (ms : Fin 86400000) : JsDate := ⟨1767268800000 + ms, by omega⟩

def checkedAfter (ms : Fin 86400000) : RecordOptions :=
  ⟨lit "registry", .ofInt 60000, some (afterNoon ms), some noonEvidence, none, none⟩

def ninetySeconds : FreshnessPolicy := ⟨.boundedStaleness, none, some (.ofInt 90000)⟩

def atNoon : Readings := ⟨afterNoon 0, afterNoon 0, afterNoon 0⟩

theorem noonEvidence_valid : parseRfc3339 (.str noonEvidence.validAt) = .ok 1767268800000 := by decide

theorem ninetySeconds_bounds (ms : Fin 86400000) (elapsed : Int) :
    WithinBounds (checkedAfter ms) ninetySeconds elapsed ↔ elapsed ≤ 90000 := by
  have hmax := @withinBounds_ofInt (checkedAfter ms) ninetySeconds 60000 90000 (by simp only [checkedAfter])
    (by simp only [ninetySeconds]) (by decide) (by decide) elapsed
  rwa [max_eq_right (by decide)] at hmax

theorem allowed_within_bounds_exact :
    (enforceFreshnessPolicy (fun _ => []) atNoon (checkedAfter 90000) ninetySeconds).effect = .allow ∧
    AllowedWithin (fun _ => []) atNoon (checkedAfter 90000) ninetySeconds 1767268800000 := by
  refine ⟨by decide +kernel, ?_⟩
  refine (allowed_within_bounds_iff _ _ _ _ noonEvidence _ rfl rfl rfl noonEvidence_valid).mpr ⟨?_, ?_⟩
  · intro _ _
    rw [ninetySeconds_bounds]
    decide
  · intro hdown
    cases hdown

/-- Evidence of 90 999 ms is allowed under a bound of 90 000. -/
theorem partial_second_allowed :
    ¬ AllowedWithin (fun _ => []) atNoon (checkedAfter 90999) ninetySeconds 1767268800000 := by
  intro h
  obtain ⟨-, hwithin⟩ := h (by decide +kernel)
  have helapsed : (checkedAfter 90999).checked atNoon - 1767268800000 = 90999 := by decide
  rw [ninetySeconds_bounds, helapsed] at hwithin
  exact absurd hwithin (by decide)

end AgentPassport.EvidenceFreshness
