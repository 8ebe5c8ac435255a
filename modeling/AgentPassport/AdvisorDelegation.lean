import AgentPassport.LegacyNarrowing
import AgentPassport.OrderedMap

/-! Advisor delegations (`v2/sub-delegate-advisor.ts`, with the decision lineage receipt of
`core/data-lifecycle.ts`). The options are there and are objects; clock readings and random parts of ids are
arguments, and a count of uses is exact. -/
namespace AgentPassport.AdvisorDelegation
open JsText Js Rfc3339 LegacyDelegation Outcome

structure ValidityWindow where
  notBefore : Option Str
  notAfter : Option Str

structure SubDelegateAdvisorOptions where
  parentDelegation : Delegation
  advisorDid : Str
  maxUses : JsNumber
  validityWindow : Option ValidityWindow
  privateKey : Str

inductive AdvisorError where
  | advisorDid
  | maxUses (given : JsNumber)
  | privateKey
  | notAdvisor
  | invalid (label : Str) (errors : List Str)
  | exhausted (used : Nat) (max : JsNumber)
  | delegation (e : DelegationError)

def AdvisorError.message (P : Primitives) : AdvisorError → Str
  | .advisorDid => lit "subDelegateAdvisor: advisorDid must be a non-empty string"
  | .maxUses given => lit "subDelegateAdvisor: maxUses must be a positive integer, got " ++ P.text given
  | .privateKey => lit "subDelegateAdvisor: privateKey required"
  | .notAdvisor =>
    lit "consultAdvisor: delegation is not an advisor delegation (spendLimitUnit !== invocations)"
  | .invalid label errors =>
    lit "consultAdvisor: delegation invalid " ++ [0x2014] ++ lit " " ++ label ++
      (if errors.length > 0 then lit ": " ++ List.intercalate (lit ", ") errors else [])
  | .exhausted used max =>
    lit "consultAdvisor: max_uses exhausted (" ++ decimal used ++ lit "/" ++ P.text max ++ lit ")"
  | .delegation e => e.message P

/-- The narrowing a call asks for: no scope, and a budget of invocations. -/
def SubDelegateAdvisorOptions.narrowing (opts : SubDelegateAdvisorOptions) : SubDelegateOptions where
  parentDelegation := opts.parentDelegation
  delegatedTo := opts.advisorDid
  scope := []
  spendLimit := some opts.maxUses
  spendLimitUnit := some .invocations
  derivation_rights := none
  privateKey := opts.privateKey
  revocation := none

def fromLegacy {α : Type} : Except DelegationError α → Except AdvisorError α
  | .ok a => .ok a
  | .error e => .error (.delegation e)

theorem fromLegacy_eq_ok {α : Type} {r : Except DelegationError α} {a : α} : fromLegacy r = .ok a ↔ r = .ok a := by
  cases r with
  | ok b =>
    constructor
    · intro h
      cases h
      rfl
    · intro h
      cases h
      rfl
  | error e =>
    constructor
    · intro h
      cases h
    · intro h
      cases h

section
variable (P : Primitives)

/-- The window of the options is not read. -/
def subDelegateAdvisor (r : Readings) (uuid : Str) (opts : SubDelegateAdvisorOptions) : Except AdvisorError Delegation :=
  if opts.advisorDid = [] then throw .advisorDid
  else if !opts.maxUses.isInteger || opts.maxUses.lt (.ofInt 1) then throw (.maxUses opts.maxUses)
  else if opts.privateKey = [] then throw .privateKey
  else fromLegacy (subDelegate P r uuid opts.narrowing)

end

/-- What the window asks of the delegation: it ends by the window's end and by the parent's, and the not-before
check of `verifyDelegation` refuses it at every reading before the window's start. -/
structure WithinWindow (opts : SubDelegateAdvisorOptions) (advisor : Delegation) : Prop where
  parent : ∃ ends parentEnds, parseRfc3339 (.str advisor.expiresAt) = .ok ends ∧
    parseRfc3339 (.str opts.parentDelegation.expiresAt) = .ok parentEnds ∧ ends ≤ parentEnds
  notAfter : ∀ w notAfter last, opts.validityWindow = some w → w.notAfter = some notAfter →
    parseRfc3339 (.str notAfter) = .ok last →
    ∃ ends, parseRfc3339 (.str advisor.expiresAt) = .ok ends ∧ ends ≤ last
  notBefore : ∀ w notBefore first, opts.validityWindow = some w → w.notBefore = some notBefore →
    parseRfc3339 (.str notBefore) = .ok first →
    ∀ now, now < first → (notBeforeErrors now advisor.notBefore).1 ≠ []

def inheritedStart (r : Readings) (parent : Delegation) : Str := parent.notBefore.getD (toISOString r.created)

/-- A start that refuses every reading before an instant: it is given, and if it is an instant it is no earlier. -/
def StartsFrom (start : Str) (first : Int) : Prop := start ≠ [] ∧ ∀ ms, parseRfc3339 (.str start) = .ok ms → first ≤ ms

/-- The window leaves to the child what it takes from its parent and the clock anyway. -/
structure WindowIdle (r : Readings) (opts : SubDelegateAdvisorOptions) : Prop where
  notAfter : ∀ w notAfter last parentEnds, opts.validityWindow = some w → w.notAfter = some notAfter →
    parseRfc3339 (.str notAfter) = .ok last → parseRfc3339 (.str opts.parentDelegation.expiresAt) = .ok parentEnds →
    min (r.guard + 24 * 3600000) parentEnds ≤ last
  notBefore : ∀ w notBefore first, opts.validityWindow = some w → w.notBefore = some notBefore →
    parseRfc3339 (.str notBefore) = .ok first → StartsFrom (inheritedStart r opts.parentDelegation) first

theorem notBeforeErrors_eq_nil (now : Int) (start : Str) :
    (notBeforeErrors now (some start)).1 = [] ↔ start = [] ∨ ∃ ms, parseRfc3339 (.str start) = .ok ms ∧ ms ≤ now := by
  rw [notBeforeErrors]
  by_cases hnil : start = []
  · rw [if_pos hnil]
    exact iff_of_true rfl (.inl hnil)
  · rw [if_neg hnil]
    cases hparse : parseRfc3339 (.str start) with
    | error reason =>
      refine iff_of_false (List.cons_ne_nil _ _) ?_
      rintro (h | ⟨ms, h, -⟩)
      · exact hnil h
      · cases h
    | ok ms =>
      dsimp only
      by_cases hlt : now < ms
      · rw [if_pos hlt]
        refine iff_of_false (List.cons_ne_nil _ _) ?_
        rintro (h | ⟨ms', h, hle⟩)
        · exact hnil h
        · cases h
          omega
      · rw [if_neg hlt]
        exact iff_of_true rfl (.inr ⟨ms, rfl, by omega⟩)

theorem notBeforeErrors_iff (start : Str) (first : Int) :
    (∀ now, now < first → (notBeforeErrors now (some start)).1 ≠ []) ↔ StartsFrom start first := by
  constructor
  · intro h
    refine ⟨fun hnil => h (first - 1) (by omega) ((notBeforeErrors_eq_nil _ _).mpr (.inl hnil)), ?_⟩
    intro ms hparse
    by_contra hlt
    exact h ms (by omega) ((notBeforeErrors_eq_nil _ _).mpr (.inr ⟨ms, hparse, le_refl ms⟩))
  · rintro ⟨hne, hstart⟩ now hnow hnone
    obtain hnil | ⟨ms, hparse, hle⟩ := (notBeforeErrors_eq_nil _ _).mp hnone
    · exact hne hnil
    · have hms := hstart ms hparse
      omega

variable {P : Primitives} {r : Readings} {uuid : Str}

theorem subDelegateAdvisor_ok {opts : SubDelegateAdvisorOptions} {advisor : Delegation}
    (h : subDelegateAdvisor P r uuid opts = .ok advisor) : subDelegate P r uuid opts.narrowing = .ok advisor := by
  unfold subDelegateAdvisor at h
  split at h
  · cases h
  split at h
  · cases h
  split at h
  · cases h
  · exact fromLegacy_eq_ok.mp h

theorem subDelegate_record {opts : SubDelegateOptions} {child : Delegation} (h : subDelegate P r uuid opts = .ok child) :
    ∃ parentEnds expiresAt signature, parentExpiry r.guard opts.parentDelegation = .ok parentEnds ∧
      childExpiresAt r.guard parentEnds = .ok expiresAt ∧
      child =
        { buildDelegation r.created uuid expiresAt (childOptions opts expiresAt) with signature := signature } := by
  rw [subDelegate] at h
  obtain ⟨-, h⟩ := bind_unit_eq_ok.mp h
  obtain ⟨-, h⟩ := bind_unit_eq_ok.mp h
  obtain ⟨-, h⟩ := bind_unit_eq_ok.mp h
  obtain ⟨-, h⟩ := bind_unit_eq_ok.mp h
  obtain ⟨-, h⟩ := bind_unit_eq_ok.mp h
  obtain ⟨parentEnds, hparent, h⟩ := bind_eq_ok.mp h
  obtain ⟨-, h⟩ := bind_unit_eq_ok.mp h
  obtain ⟨expiresAt, hexpires, h⟩ := bind_eq_ok.mp h
  obtain ⟨-, expiresAt', signature, hexpiry, rfl⟩ := LegacyNarrowing.createDelegation_ok P h
  cases hexpiry
  exact ⟨parentEnds, _, signature, hparent, hexpires, rfl⟩

theorem subDelegateAdvisor_window {opts : SubDelegateAdvisorOptions} {advisor : Delegation}
    (h : subDelegateAdvisor P r uuid opts = .ok advisor) :
    advisor.notBefore = some (inheritedStart r opts.parentDelegation) ∧
    ∃ parentEnds, parseRfc3339 (.str opts.parentDelegation.expiresAt) = .ok parentEnds ∧
      parseRfc3339 (.str advisor.expiresAt) = .ok (min (r.guard + 24 * 3600000) parentEnds) := by
  obtain ⟨parentEnds, expiresAt, signature, hparent, hexpires, rfl⟩ := subDelegate_record (subDelegateAdvisor_ok h)
  exact ⟨rfl, parentEnds, LegacyNarrowing.parentExpiry_ok hparent,
    LegacyNarrowing.childExpiresAt_ok hexpires⟩

/-- An advisor delegation keeps to its window, for every parent, window and clock reading for which the call
succeeds, exactly when the window is one the parent and the clock give it anyway. -/
theorem advisor_within_window_iff (P : Primitives) (r : Readings) (uuid : Str) (opts : SubDelegateAdvisorOptions)
    (advisor : Delegation) (h : subDelegateAdvisor P r uuid opts = .ok advisor) :
    WithinWindow opts advisor ↔ WindowIdle r opts := by
  obtain ⟨hstart, parentEnds, hparent, hends⟩ := subDelegateAdvisor_window h
  constructor
  · intro hwithin
    constructor
    · intro w notAfter last parentEnds' hw hnotAfter hlast hparent'
      cases hparent.symm.trans hparent'
      obtain ⟨ends, hends', hle⟩ := hwithin.notAfter w notAfter last hw hnotAfter hlast
      cases hends.symm.trans hends'
      exact hle
    · intro w notBefore first hw hnotBefore hfirst
      rw [← notBeforeErrors_iff, ← hstart]
      exact hwithin.notBefore w notBefore first hw hnotBefore hfirst
  · intro hidle
    refine ⟨⟨_, parentEnds, hends, hparent, min_le_right _ _⟩, ?_, ?_⟩
    · intro w notAfter last hw hnotAfter hlast
      exact ⟨_, hends, hidle.notAfter w notAfter last parentEnds hw hnotAfter hlast hparent⟩
    · intro w notBefore first hw hnotBefore hfirst
      rw [hstart, notBeforeErrors_iff]
      exact hidle.notBefore w notBefore first hw hnotBefore hfirst

def rootOptions : CreateDelegationOptions := { LegacyNarrowing.rootOptions [lit "x"] none with spendLimit := none }

def advisorOptions (parent : Delegation) (window : ValidityWindow) : SubDelegateAdvisorOptions :=
  ⟨parent, LegacyNarrowing.otherPublicKey, .ofInt 2, some window, LegacyNarrowing.childPrivateKey⟩

def rootSignature : Str :=
  lit "d19f69de9a6b110ccf4deb2b700d72542b593ba6345a0c2d3b76260dc29ebcaa" ++
    lit "e1f60514aee0ae30a6fdfc615f4c44861e195485377840fce8ab49a226698906"

def advisorRecords : List LegacyNarrowing.SignedText := [
  LegacyNarrowing.rootRecord [] (lit "\"x\"]") rootSignature,
  LegacyNarrowing.childRecord [] (lit "],\"spendLimit\":2,\"spendLimitUnit\":\"invocations\"")
    (lit "64e3267d7fd0049582926246189592e412d8da24d2e5da31d66ffbfd3f9fc586" ++
      lit "a5b1d9ebe950a72951a5dfe05b8a52402b9deec42285df4cb33079b263aa560c")]

def sample : Primitives := LegacyNarrowing.signing advisorRecords

def mintAdvisor (P : Primitives) (window : ValidityWindow) : Except AdvisorError (Delegation × Delegation) := do
  let root ← fromLegacy (createDelegation P LegacyNarrowing.noon (lit "0") rootOptions)
  let advisor ← subDelegateAdvisor P LegacyNarrowing.atNoon (lit "1") (advisorOptions root window)
  return (root, advisor)

theorem mintAdvisor_ok {α : Type} (window : ValidityWindow) (f : Delegation × Delegation → α) {v : α}
    (h : (mintAdvisor P window).toOption.map f = some v) :
    ∃ root advisor, createDelegation P LegacyNarrowing.noon (lit "0") rootOptions = .ok root ∧
      subDelegateAdvisor P LegacyNarrowing.atNoon (lit "1") (advisorOptions root window) = .ok advisor ∧
      f (root, advisor) = v := by
  obtain ⟨pair, hmint, hv⟩ := exists_ok_of_map h
  obtain ⟨root, hroot, hmint⟩ := bind_eq_ok.mp hmint
  obtain ⟨advisor, hadvisor, hmint⟩ := bind_eq_ok.mp hmint
  cases hmint
  exact ⟨root, advisor, fromLegacy_eq_ok.mp hroot, hadvisor, hv⟩

def wideWindow : ValidityWindow := ⟨some (lit "2026-01-01T12:00:00.000Z"), some (lit "2026-01-03T12:00:00.000Z")⟩

theorem advisor_within_window_wide : ∃ root advisor,
    createDelegation sample LegacyNarrowing.noon (lit "0") rootOptions = .ok root ∧
    subDelegateAdvisor sample LegacyNarrowing.atNoon (lit "1") (advisorOptions root wideWindow) = .ok advisor ∧
    WithinWindow (advisorOptions root wideWindow) advisor := by
  obtain ⟨root, advisor, hroot, hadvisor, hstart⟩ := mintAdvisor_ok wideWindow (fun p => p.1.notBefore)
    (show (mintAdvisor sample wideWindow).toOption.map _ =
      some (some (lit "2026-01-01T12:00:00.000Z")) by decide +kernel)
  refine ⟨root, advisor, hroot, hadvisor, (advisor_within_window_iff _ _ _ _ _ hadvisor).mpr ⟨?_, ?_⟩⟩
  · intro w notAfter last parentEnds hw hnotAfter hlast hparent
    cases hw
    cases hnotAfter
    have hdays : parseRfc3339 (.str (lit "2026-01-03T12:00:00.000Z")) = .ok 1767441600000 := by decide
    cases hdays.symm.trans hlast
    exact (min_le_left _ _).trans (by decide)
  · intro w notBefore first hw hnotBefore hfirst
    cases hw
    cases hnotBefore
    have hparent : (advisorOptions root wideWindow).parentDelegation.notBefore = some (lit "2026-01-01T12:00:00.000Z") :=
      hstart
    rw [inheritedStart, hparent]
    refine ⟨by decide, fun ms hms => ?_⟩
    cases hfirst.symm.trans hms
    exact le_refl _

def hourWindow : ValidityWindow := ⟨none, some (lit "2026-01-01T13:00:00.000Z")⟩

/-- An advisor asked for until one o'clock lasts until the next noon. -/
theorem advisor_outlives_window : ∃ root advisor,
    createDelegation sample LegacyNarrowing.noon (lit "0") rootOptions = .ok root ∧
    subDelegateAdvisor sample LegacyNarrowing.atNoon (lit "1") (advisorOptions root hourWindow) = .ok advisor ∧
    advisor.expiresAt = lit "2026-01-02T12:00:00.000Z" ∧ ¬ WithinWindow (advisorOptions root hourWindow) advisor := by
  obtain ⟨root, advisor, hroot, hadvisor, hends⟩ := mintAdvisor_ok hourWindow (fun p => p.2.expiresAt)
    (show (mintAdvisor sample hourWindow).toOption.map _ =
      some (lit "2026-01-02T12:00:00.000Z") by decide +kernel)
  have hends : advisor.expiresAt = lit "2026-01-02T12:00:00.000Z" := hends
  refine ⟨root, advisor, hroot, hadvisor, hends, ?_⟩
  intro hwithin
  obtain ⟨ends, hparse, hle⟩ := hwithin.notAfter hourWindow _ 1767272400000 rfl rfl (by decide)
  have hnext : parseRfc3339 (.str (lit "2026-01-02T12:00:00.000Z")) = .ok 1767355200000 := by decide
  rw [hends, hnext] at hparse
  cases hparse
  omega

end AgentPassport.AdvisorDelegation
