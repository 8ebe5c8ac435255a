import AgentPassport.AuthorityBounds

/-! What a set of fulfilment records does to a purpose bound: the state is a fold over the records that
asks for no order, wherever every record that reaches the signature check has a signing text. -/
namespace AgentPassport.BoundRecords
open JsText Js CanonicalJcs LifecycleState AuthorityBounds Outcome
open CanonicalInjective (forall₂_mem)

variable {a : FulfilmentAssessment}

theorem mem_pushGaps {missing : List EstablishmentGap} {gap : EstablishmentGap} :
    gap ∈ pushGaps missing a ↔ gap ∈ missing ∨ gap ∈ a.missing.getD [] := by
  rw [pushGaps]
  generalize a.missing.getD [] = gaps
  induction gaps generalizing missing with
  | nil => simp
  | cons first rest ih =>
    rw [List.foldl_cons, ih, pushGap, List.mem_cons]
    split
    · rename_i hmem
      constructor
      · intro h
        exact h.imp_right .inr
      · intro h
        obtain h | rfl | h := h
        · exact .inl h
        · exact .inl hmem
        · exact .inr h
    · rw [List.mem_append, List.mem_singleton, or_assoc]

theorem mem_foldl_pushGaps {assessments : List FulfilmentAssessment} {gap : EstablishmentGap} :
    ∀ {missing : List EstablishmentGap}, gap ∈ assessments.foldl pushGaps missing ↔
      gap ∈ missing ∨ ∃ a ∈ assessments, gap ∈ a.missing.getD [] := by
  induction assessments with
  | nil => simp
  | cons a rest ih =>
    intro missing
    rw [List.foldl_cons, ih, mem_pushGaps, or_assoc, List.exists_mem_cons_iff]

/-- An assessment that leaves a limb missing. -/
def Unestablished (a : FulfilmentAssessment) : Prop := a.accepted = false ∧ a.missing.isSome = true

theorem mem_unestablished {assessments : List FulfilmentAssessment} :
    a ∈ assessments.filter (fun a => !a.accepted && a.missing.isSome) ↔ a ∈ assessments ∧ Unestablished a := by
  rw [List.mem_filter, Bool.and_eq_true, Bool.not_eq_true', Unestablished]

theorem resolvePurpose_cases (assessments : List FulfilmentAssessment) :
    ((∃ a ∈ assessments, a.accepted = true) ∧ resolvePurpose assessments = (.exhausted, .PURPOSE_EXHAUSTED, [])) ∨
    ((∀ a ∈ assessments, a.accepted = false) ∧ (∃ a ∈ assessments, Unestablished a) ∧
      ∃ missing, resolvePurpose assessments = (.not_established, .BOUND_STATE_NOT_ESTABLISHED, missing) ∧
        ∀ gap, gap ∈ missing ↔ ∃ a ∈ assessments, Unestablished a ∧ gap ∈ a.missing.getD []) ∨
    ((∀ a ∈ assessments, a.accepted = false) ∧ (∀ a ∈ assessments, ¬ Unestablished a) ∧
      resolvePurpose assessments = (.not_reached, .BOUND_NOT_REACHED, [])) := by
  unfold resolvePurpose
  by_cases haccepted : assessments.any (·.accepted) = true
  · refine .inl ⟨List.any_eq_true.mp haccepted, ?_⟩
    simp only [haccepted, if_true]
  · have hnone : ∀ a ∈ assessments, a.accepted = false := by
      intro a ha
      exact Bool.eq_false_iff.mpr (List.any_eq_false.mp (Bool.eq_false_iff.mpr haccepted) a ha)
    simp only [haccepted, if_false, Bool.false_eq_true]
    by_cases hopen : ∃ a ∈ assessments, Unestablished a
    · obtain ⟨a, ha, hopenA⟩ := hopen
      have hpos : 0 < (assessments.filter (fun a => !a.accepted && a.missing.isSome)).length :=
        List.length_pos_of_mem (mem_unestablished.mpr ⟨ha, hopenA⟩)
      refine .inr (.inl ⟨hnone, ⟨a, ha, hopenA⟩, _, if_pos hpos, ?_⟩)
      intro gap
      rw [mem_foldl_pushGaps]
      simp only [List.not_mem_nil, false_or, mem_unestablished, and_assoc]
    · have hall : ∀ a ∈ assessments, ¬ Unestablished a := fun a ha h => hopen ⟨a, ha, h⟩
      have hempty : assessments.filter (fun a => !a.accepted && a.missing.isSome) = [] := by
        rw [List.eq_nil_iff_forall_not_mem]
        intro a ha
        obtain ⟨hmem, h⟩ := mem_unestablished.mp ha
        exact hall a hmem h
      refine .inr (.inr ⟨hnone, hall, ?_⟩)
      rw [hempty]
      rfl

/-- What a question about a purpose bound fixes: the bound, the instant, the resolvers and the runtime. -/
structure Question where
  runtime : Runtime
  resolveAttestorRole : AttestorRoleResolver
  resolveVerificationKey : BoundVerificationKeyResolver
  bound : AuthorityBound
  atInstant : Str

variable {Q : Question} {record : JsValue}

def Question.assess (Q : Question) (record : JsValue) : Except JcsError FulfilmentAssessment :=
  assessFulfilment Q.runtime Q.resolveAttestorRole Q.resolveVerificationKey Q.bound Q.atInstant record

/-- The record names this bound and delegation and is attested not after the instant, by a holder of an allowed
role whose key is resolved. -/
structure Reaches (Q : Question) (record : JsValue) (r : AuthorityBoundFulfilment) (key : Str) : Prop where
  readable : readableFulfilment record = some r
  bound : r.bound_id = Q.bound.bound_id
  delegation : r.delegation_id = Q.bound.delegation_id
  attested : ¬ Q.atInstant < r.attested_at
  role : attestorRoleAnswer? (Q.resolveAttestorRole r.attestor Q.bound.fulfilment_attestor_roles Q.atInstant) =
    some .holds_role
  key : nonEmpty? (Q.resolveVerificationKey r.attestor r.verification_method r.attested_at) = some key

def signingText (Q : Question) (record : JsValue) : Except JcsError Str :=
  authorityBoundFulfilmentSignatureInput Q.runtime (omitMember (lit "signature") record)

/-- The record reaches the signature check and its signature verifies. -/
def Established (Q : Question) (record : JsValue) (r : AuthorityBoundFulfilment) : Prop :=
  ∃ key, Reaches Q record r key ∧ ∃ message, signingText Q record = .ok message ∧
    Q.runtime.verify message r.signature key = true

def Attests (Q : Question) (record : JsValue) : Prop := ∃ r, Established Q record r ∧ r.fulfilled = true

/-- A party with standing says that it was not. -/
def Denies (Q : Question) (record : JsValue) : Prop := ∃ r, Established Q record r ∧ r.fulfilled = false

/-- The record reaches the signature check, but what was signed has no canonical text. -/
def Unsignable (Q : Question) (record : JsValue) : Prop :=
  ∃ r key, Reaches Q record r key ∧ ∃ e, signingText Q record = .error e

theorem Reaches.unique {r r' : AuthorityBoundFulfilment} {key key' : Str} (h : Reaches Q record r key)
    (h' : Reaches Q record r' key') : r = r' ∧ key = key' := by
  have hr := h.readable
  rw [h'.readable, Option.some.injEq] at hr
  subst hr
  have hkey := h.key
  rw [h'.key, Option.some.injEq] at hkey
  exact ⟨rfl, hkey.symm⟩

theorem Established.unique {r r' : AuthorityBoundFulfilment} (h : Established Q record r)
    (h' : Established Q record r') : r = r' := by
  obtain ⟨key, hreach, -⟩ := h
  obtain ⟨key', hreach', -⟩ := h'
  exact (hreach.unique hreach').1

theorem Attests.not_denies (h : Attests Q record) : ¬ Denies Q record := by
  intro hdenies
  obtain ⟨r, hr, hfulfilled⟩ := h
  obtain ⟨r', hr', hnot⟩ := hdenies
  rw [hr.unique hr', hnot] at hfulfilled
  cases hfulfilled

def TurnedAway (Q : Question) (record : JsValue) : Prop := ¬ ∃ r key, Reaches Q record r key

theorem assess_turnedAway (hkind : Q.bound.kind = .purpose) (h : TurnedAway Q record) :
    ∃ a gap, Q.assess record = .ok a ∧ a.accepted = false ∧ a.missing = some [gap] := by
  rw [Question.assess, assessFulfilment, if_neg (not_not_intro hkind)]
  split
  · exact ⟨_, _, rfl, rfl, rfl⟩
  · rename_i r hr
    split
    · exact ⟨_, _, rfl, rfl, rfl⟩
    · rename_i hnames
      split
      · exact ⟨_, _, rfl, rfl, rfl⟩
      · rename_i hattested
        split
        · exact ⟨_, _, rfl, rfl, rfl⟩
        · exact ⟨_, _, rfl, rfl, rfl⟩
        · exact ⟨_, _, rfl, rfl, rfl⟩
        · rename_i hrole
          split
          · exact ⟨_, _, rfl, rfl, rfl⟩
          · rename_i key hkey
            simp only [ne_eq, decide_not, Bool.or_eq_true, Bool.not_eq_true', decide_eq_false_iff_not, not_or,
              not_not] at hnames
            exact absurd ⟨r, key, hr, hnames.1, hnames.2, hattested, hrole, hkey⟩ h

theorem assess_reaches (hkind : Q.bound.kind = .purpose) {r : AuthorityBoundFulfilment} {key : Str}
    (h : Reaches Q record r key) : Q.assess record = (signingText Q record).bind fun message =>
      if Q.runtime.verify message r.signature key = true then
        if r.fulfilled = true then .ok ⟨r.attestor, r.attested_at, true, .FULFILMENT_ACCEPTED, some .holds_role, none⟩
        else .ok ⟨r.attestor, r.attested_at, false, .FULFILMENT_OUTCOME_NOT_FULFILLED, some .holds_role, none⟩
      else
        .ok ⟨r.attestor, r.attested_at, false, .FULFILMENT_SIGNATURE_INVALID, some .holds_role, some [.source]⟩ := by
  rw [Question.assess, assessFulfilment, if_neg (not_not_intro hkind), h.readable]
  simp only [h.bound, h.delegation, ne_eq, not_true_eq_false, decide_false, Bool.or_false, Bool.false_eq_true, if_false,
    if_neg h.attested, h.role, h.key, verifyAuthorityBoundFulfilmentSignature]
  rw [← signingText]
  cases signingText Q record with
  | error e => rfl
  | ok message =>
    show (if _ then _ else _) = if _ then _ else _
    cases Q.runtime.verify message r.signature key with
    | false => rfl
    | true =>
      cases r.fulfilled with
      | false => rfl
      | true => rfl

theorem assess_cases (hkind : Q.bound.kind = .purpose) (record : JsValue) :
    (Unsignable Q record ∧ ∃ e, Q.assess record = .error e) ∨
    (Attests Q record ∧ ∃ a, Q.assess record = .ok a ∧ a.accepted = true) ∨
    (Denies Q record ∧ ∃ a, Q.assess record = .ok a ∧ a.accepted = false ∧ a.missing = none) ∨
    (¬ Unsignable Q record ∧ ¬ Attests Q record ∧ ¬ Denies Q record ∧
      ∃ a gap, Q.assess record = .ok a ∧ a.accepted = false ∧ a.missing = some [gap]) := by
  by_cases hreach : ∃ r key, Reaches Q record r key
  · obtain ⟨r, key, hreach⟩ := hreach
    have hassess := assess_reaches hkind hreach
    cases htext : signingText Q record with
    | error e =>
      rw [htext] at hassess
      exact .inl ⟨⟨r, key, hreach, e, htext⟩, e, hassess⟩
    | ok message =>
      have hsignable : ¬ Unsignable Q record := by
        intro h
        obtain ⟨-, -, -, e, he⟩ := h
        rw [htext] at he
        cases he
      rw [htext] at hassess
      by_cases hverified : Q.runtime.verify message r.signature key = true
      · have hestablished : Established Q record r := ⟨key, hreach, message, htext, hverified⟩
        simp only [Except.bind, if_pos hverified] at hassess
        cases hfulfilled : r.fulfilled with
        | true =>
          rw [if_pos hfulfilled] at hassess
          exact .inr (.inl ⟨⟨r, hestablished, hfulfilled⟩, _, hassess, rfl⟩)
        | false =>
          rw [if_neg (Bool.eq_false_iff.mp hfulfilled)] at hassess
          exact .inr (.inr (.inl ⟨⟨r, hestablished, hfulfilled⟩, _, hassess, rfl, rfl⟩))
      · have hnone : ∀ r', ¬ Established Q record r' := by
          intro r' h
          obtain ⟨key', hreach', message', htext', hverified'⟩ := h
          obtain ⟨rfl, rfl⟩ := hreach.unique hreach'
          rw [htext] at htext'
          cases htext'
          exact hverified hverified'
        simp only [Except.bind, if_neg hverified] at hassess
        exact .inr (.inr (.inr ⟨hsignable, fun h => hnone _ h.choose_spec.1, fun h => hnone _ h.choose_spec.1, _, _,
          hassess, rfl, rfl⟩))
  · refine .inr (.inr (.inr ⟨?_, ?_, ?_, assess_turnedAway hkind hreach⟩))
    · intro h
      obtain ⟨r, key, h, -⟩ := h
      exact hreach ⟨r, key, h⟩
    · intro h
      obtain ⟨r, ⟨key, h, -⟩, -⟩ := h
      exact hreach ⟨r, key, h⟩
    · intro h
      obtain ⟨r, ⟨key, h, -⟩, -⟩ := h
      exact hreach ⟨r, key, h⟩

theorem assess_ok_iff (hkind : Q.bound.kind = .purpose) : (∃ a, Q.assess record = .ok a) ↔ ¬ Unsignable Q record := by
  obtain ⟨hbad, e, he⟩ | ⟨hattests, a, ha, -⟩ | ⟨hdenies, a, ha, -⟩ | ⟨hnot, -, -, a, gap, ha, -⟩ :=
    assess_cases hkind record
  · refine iff_of_false ?_ (not_not_intro hbad)
    intro h
    obtain ⟨a, ha⟩ := h
    rw [he] at ha
    cases ha
  · refine iff_of_true ⟨a, ha⟩ ?_
    intro h
    obtain ⟨-, -, -, e, he⟩ := h
    obtain ⟨-, ⟨-, -, message, hmessage, -⟩, -⟩ := hattests
    rw [he] at hmessage
    cases hmessage
  · refine iff_of_true ⟨a, ha⟩ ?_
    intro h
    obtain ⟨-, -, -, e, he⟩ := h
    obtain ⟨-, ⟨-, -, message, hmessage, -⟩, -⟩ := hdenies
    rw [he] at hmessage
    cases hmessage
  · exact iff_of_true ⟨a, ha⟩ hnot

theorem accepted_iff (hkind : Q.bound.kind = .purpose) (h : Q.assess record = .ok a) :
    a.accepted = true ↔ Attests Q record := by
  obtain ⟨-, e, he⟩ | ⟨hattests, a', ha, hacc⟩ | ⟨hdenies, a', ha, hacc, -⟩ | ⟨-, hnot, -, a', gap, ha, hacc, -⟩ :=
    assess_cases hkind record
  · rw [h] at he
    cases he
  · rw [h] at ha
    cases ha
    exact iff_of_true hacc hattests
  · rw [h] at ha
    cases ha
    exact iff_of_false (Bool.eq_false_iff.mp hacc) fun hattests => hattests.not_denies hdenies
  · rw [h] at ha
    cases ha
    exact iff_of_false (Bool.eq_false_iff.mp hacc) hnot

theorem unestablished_iff (hkind : Q.bound.kind = .purpose) (h : Q.assess record = .ok a) :
    Unestablished a ↔ ¬ Attests Q record ∧ ¬ Denies Q record := by
  obtain ⟨-, e, he⟩ | ⟨hattests, a', ha, hacc⟩ | ⟨hdenies, a', ha, hacc, hmissing⟩ |
      ⟨-, hnot, hnot', a', gap, ha, hacc, hmissing⟩ := assess_cases hkind record
  · rw [h] at he
    cases he
  · rw [h] at ha
    cases ha
    refine iff_of_false ?_ fun hneither => hneither.1 hattests
    intro hopen
    rw [hopen.1] at hacc
    cases hacc
  · rw [h] at ha
    cases ha
    refine iff_of_false ?_ fun hneither => hneither.2 hdenies
    intro hopen
    rw [Unestablished, hmissing] at hopen
    cases hopen.2
  · rw [h] at ha
    cases ha
    refine iff_of_true ⟨hacc, ?_⟩ ⟨hnot, hnot'⟩
    rw [hmissing]
    rfl

theorem exists_gap (hkind : Q.bound.kind = .purpose) (h : Q.assess record = .ok a) (hopen : Unestablished a) :
    ∃ gap, gap ∈ a.missing.getD [] := by
  obtain ⟨hattests, hdenies⟩ := (unestablished_iff hkind h).mp hopen
  obtain ⟨-, e, he⟩ | ⟨hattests', -⟩ | ⟨hdenies', -⟩ | ⟨-, -, -, a', gap, ha, -, hmissing⟩ := assess_cases hkind record
  · rw [h] at he
    cases he
  · exact absurd hattests' hattests
  · exact absurd hdenies' hdenies
  · rw [h] at ha
    cases ha
    rw [hmissing]
    exact ⟨gap, List.mem_singleton_self gap⟩

/-- An input that asks a question about a purpose bound. -/
structure Asks (input : EvaluateBoundInput) (Q : Question) : Prop where
  bound : assertAuthorityBound input.bound = .ok Q.bound
  purpose : Q.bound.kind = .purpose
  instant : requireInstant input.atInstant = .ok Q.atInstant
  role : input.resolveAttestorRole = some Q.resolveAttestorRole
  key : input.resolveVerificationKey = some Q.resolveVerificationKey

def withRecords (input : EvaluateBoundInput) (records : List JsValue) : EvaluateBoundInput :=
  { input with fulfilments := some records }

def evaluateOver (Q : Question) (input : EvaluateBoundInput) (records : List JsValue) :
    Except BoundError BoundEvaluation :=
  evaluateBound Q.runtime (withRecords input records)

theorem reasonText_isReasonCode (code : BoundReasonCode) : isReasonCode (reasonText code) = true := by
  cases code with
  | BOUND_NOT_REACHED => rw [reasonText, lit_ofList]; decide
  | PURPOSE_EXHAUSTED => rw [reasonText, lit_ofList]; decide
  | USE_COUNT_EXHAUSTED => rw [reasonText, lit_ofList]; decide
  | BUDGET_EXHAUSTED => rw [reasonText, lit_ofList]; decide
  | BOUND_STATE_NOT_ESTABLISHED => rw [reasonText, lit_ofList]; decide

theorem lifecycleFor_eq (state : BoundState) (code : BoundReasonCode) {missing : List EstablishmentGap}
    (h : missing ≠ []) : ∃ result, lifecycleFor state code missing = .ok result ∧
      result.missing = if state = .not_established then some missing else none := by
  unfold lifecycleFor
  cases state with
  | not_established =>
    rw [if_pos rfl, if_pos rfl, notEstablished, lifecycleState, checkReasonCode,
      if_pos (reasonText_isReasonCode code), checkMissing, if_pos rfl, Option.getD_some, if_neg h]
    exact ⟨_, rfl, rfl⟩
  | exhausted =>
    rw [if_neg (by decide), lifecycleState, checkReasonCode, if_pos (reasonText_isReasonCode code)]
    exact ⟨_, rfl, rfl⟩
  | not_reached =>
    rw [if_neg (by decide), lifecycleState, checkReasonCode, if_pos (reasonText_isReasonCode code)]
    exact ⟨_, rfl, rfl⟩

theorem boundEvaluation_eq (bound : AuthorityBound) (state : BoundState) (code : BoundReasonCode)
    (missing : List EstablishmentGap) (assessments : List FulfilmentAssessment) (remaining : Option Str) :
    ∃ e, boundEvaluation bound state code missing assessments remaining = .ok e ∧ e.bound_state = state ∧
      e.reason_code = code ∧ e.lifecycle.missing =
        if state = .not_established then some (if missing.length > 0 then missing else [.source]) else none := by
  have hlimbs : (if missing.length > 0 then missing else [EstablishmentGap.source]) ≠ [] := by
    split
    · rename_i hpos
      exact List.ne_nil_of_length_pos hpos
    · exact List.cons_ne_nil _ _
  obtain ⟨result, hresult, hmissing⟩ := lifecycleFor_eq state code hlimbs
  unfold boundEvaluation
  rw [hresult]
  exact ⟨_, rfl, rfl, rfl, hmissing⟩

variable {input : EvaluateBoundInput} {records : List JsValue} {e : BoundEvaluation}

theorem evaluateOver_eq (h : Asks input Q) (records : List JsValue) :
    evaluateOver Q input records = match records.mapM Q.assess with
      | .error e => .error (.canonical e)
      | .ok assessments => boundEvaluation Q.bound (resolvePurpose assessments).1 (resolvePurpose assessments).2.1
          (resolvePurpose assessments).2.2 assessments none := by
  have hresolvers : requireResolvers (withRecords input records) records = .ok () := by
    unfold requireResolvers
    split
    · rw [if_neg, if_neg]
      · rfl
      · rw [show (withRecords input records).resolveVerificationKey = _ from h.key]
        exact Bool.false_ne_true
      · rw [show (withRecords input records).resolveAttestorRole = _ from h.role]
        exact Bool.false_ne_true
    · rfl
  have hbound : assertAuthorityBound (withRecords input records).bound = .ok Q.bound := h.bound
  have hinstant : requireInstant (withRecords input records).atInstant = .ok Q.atInstant := h.instant
  have hrole : (withRecords input records).resolveAttestorRole = some Q.resolveAttestorRole := h.role
  have hkey : (withRecords input records).resolveVerificationKey = some Q.resolveVerificationKey := h.key
  have hrecords : (withRecords input records).fulfilments = some records := rfl
  simp only [evaluateOver, evaluateBound, bind, Except.bind, hbound, hinstant, h.purpose, hrecords, Option.getD_some,
    hresolvers, hrole, hkey]
  rfl

theorem mapM_returns_iff {f : JsValue → Except JcsError FulfilmentAssessment} {records : List JsValue} :
    (∃ as, records.mapM f = .ok as) ↔ ∀ record ∈ records, ∃ a, f record = .ok a := by
  simp only [mapM_forall₂]
  constructor
  · intro h record hrecord
    obtain ⟨as, has⟩ := h
    obtain ⟨a, -, ha⟩ := forall₂_mem has hrecord
    exact ⟨a, ha⟩
  · intro h
    induction records with
    | nil => exact ⟨[], .nil⟩
    | cons record rest ih =>
      obtain ⟨⟨a, ha⟩, hrest⟩ := List.forall_mem_cons.mp h
      obtain ⟨as, has⟩ := ih hrest
      exact ⟨a :: as, .cons ha has⟩

theorem evaluateOver_returns_iff (h : Asks input Q) :
    (∃ e, evaluateOver Q input records = .ok e) ↔ ∀ record ∈ records, ¬ Unsignable Q record := by
  have hassess : (∃ as, records.mapM Q.assess = .ok as) ↔ ∀ record ∈ records, ¬ Unsignable Q record := by
    rw [mapM_returns_iff]
    exact forall₂_congr fun record _ => assess_ok_iff h.purpose
  rw [← hassess, evaluateOver_eq h]
  cases hmap : records.mapM Q.assess with
  | error e =>
    refine iff_of_false ?_ ?_
    · intro hok
      obtain ⟨e', he'⟩ := hok
      cases he'
    · intro hok
      obtain ⟨as, has⟩ := hok
      cases has
  | ok as =>
    obtain ⟨e, he, -⟩ := boundEvaluation_eq Q.bound (resolvePurpose as).1 (resolvePurpose as).2.1
      (resolvePurpose as).2.2 as none
    exact iff_of_true ⟨e, he⟩ ⟨as, rfl⟩

theorem mem_assessments {as : List FulfilmentAssessment} (has : records.mapM Q.assess = .ok as) :
    a ∈ as ↔ ∃ record ∈ records, Q.assess record = .ok a := by
  rw [mapM_forall₂] at has
  constructor
  · intro ha
    exact forall₂_mem has.flip ha
  · intro h
    obtain ⟨record, hrecord, ha⟩ := h
    obtain ⟨a', ha', hassess⟩ := forall₂_mem has hrecord
    rw [ha] at hassess
    cases hassess
    exact ha'

def limbs (e : BoundEvaluation) : List EstablishmentGap := e.lifecycle.missing.getD []

def LeavesMissing (Q : Question) (record : JsValue) (gap : EstablishmentGap) : Prop :=
  ∃ a, Q.assess record = .ok a ∧ Unestablished a ∧ gap ∈ a.missing.getD []

theorem evaluateOver_spec (h : Asks input Q) (he : evaluateOver Q input records = .ok e) :
    (e.bound_state = .exhausted ∧ e.reason_code = .PURPOSE_EXHAUSTED ∧ (∃ record ∈ records, Attests Q record) ∧
      ∀ gap, gap ∉ limbs e) ∨
    (e.bound_state = .not_established ∧ e.reason_code = .BOUND_STATE_NOT_ESTABLISHED ∧
      (∀ record ∈ records, ¬ Attests Q record) ∧ (∃ record ∈ records, ¬ Denies Q record) ∧
      ∀ gap, gap ∈ limbs e ↔ ∃ record ∈ records, LeavesMissing Q record gap) ∨
    (e.bound_state = .not_reached ∧ e.reason_code = .BOUND_NOT_REACHED ∧ (∀ record ∈ records, Denies Q record) ∧
      ∀ gap, gap ∉ limbs e) := by
  rw [evaluateOver_eq h] at he
  cases has : records.mapM Q.assess with
  | error e' =>
    rw [has] at he
    cases he
  | ok as =>
    rw [has] at he
    obtain ⟨e', he', hstate, hreason, hmissing⟩ := boundEvaluation_eq Q.bound (resolvePurpose as).1
      (resolvePurpose as).2.1 (resolvePurpose as).2.2 as none
    cases he'.symm.trans he
    have hassessed : ∀ record ∈ records, ∃ a ∈ as, Q.assess record = .ok a := by
      intro record hrecord
      exact forall₂_mem (mapM_forall₂.mp has) hrecord
    obtain ⟨⟨a, ha, hacc⟩, heq⟩ | ⟨hnone, ⟨a, ha, hopen⟩, missing, heq, hmem⟩ | ⟨hnone, hclosed, heq⟩ :=
      resolvePurpose_cases as
    · rw [heq] at hstate hreason hmissing
      obtain ⟨record, hrecord, hassess⟩ := (mem_assessments has).mp ha
      refine .inl ⟨hstate, hreason, ⟨record, hrecord, (accepted_iff h.purpose hassess).mp hacc⟩, ?_⟩
      intro gap
      rw [limbs, hmissing, if_neg (by decide)]
      exact List.not_mem_nil
    · rw [heq] at hstate hreason hmissing
      obtain ⟨record, hrecord, hassess⟩ := (mem_assessments has).mp ha
      obtain ⟨-, hdenies⟩ := (unestablished_iff h.purpose hassess).mp hopen
      refine .inr (.inl ⟨hstate, hreason, ?_, ⟨record, hrecord, hdenies⟩, ?_⟩)
      · intro record' hrecord' hattests
        obtain ⟨a', ha', hassess'⟩ := hassessed record' hrecord'
        have hacc := (accepted_iff h.purpose hassess').mpr hattests
        rw [hnone a' ha'] at hacc
        cases hacc
      · have hnamed : 0 < missing.length := by
          obtain ⟨gap, hgap⟩ := exists_gap h.purpose hassess hopen
          exact List.length_pos_of_mem ((hmem gap).mpr ⟨a, ha, hopen, hgap⟩)
        intro gap
        rw [limbs, hmissing, if_pos rfl, Option.getD_some, if_pos hnamed, hmem]
        constructor
        · intro hgap
          obtain ⟨a', ha', hopen', hgap'⟩ := hgap
          obtain ⟨record', hrecord', hassess'⟩ := (mem_assessments has).mp ha'
          exact ⟨record', hrecord', a', hassess', hopen', hgap'⟩
        · intro hgap
          obtain ⟨record', hrecord', a', hassess', hopen', hgap'⟩ := hgap
          exact ⟨a', (mem_assessments has).mpr ⟨record', hrecord', hassess'⟩, hopen', hgap'⟩
    · rw [heq] at hstate hreason hmissing
      refine .inr (.inr ⟨hstate, hreason, ?_, ?_⟩)
      · intro record hrecord
        obtain ⟨a, ha, hassess⟩ := hassessed record hrecord
        by_contra hdenies
        refine hclosed a ha ((unestablished_iff h.purpose hassess).mpr ⟨?_, hdenies⟩)
        intro hattests
        have hacc := (accepted_iff h.purpose hassess).mpr hattests
        rw [hnone a ha] at hacc
        cases hacc
      · intro gap
        rw [limbs, hmissing, if_neg (by decide)]
        exact List.not_mem_nil

/-- The question over these records has a state, and it is the exhausted one. -/
def Exhausted (Q : Question) (input : EvaluateBoundInput) (records : List JsValue) : Prop :=
  ∃ e, evaluateOver Q input records = .ok e ∧ e.bound_state = .exhausted

/-- The state of a purpose bound is a fold over the set of its records. -/
structure FoldsRecords (Q : Question) (input : EvaluateBoundInput) (records : List JsValue) : Prop where
  /-- Any list of the same records, in any order and with any repetition, evaluates to the same. -/
  order_free : ∀ others : List JsValue, (∀ record, record ∈ others ↔ record ∈ records) →
    ∃ e e', evaluateOver Q input records = .ok e ∧ evaluateOver Q input others = .ok e' ∧
      e'.bound_state = e.bound_state ∧ e'.reason_code = e.reason_code ∧ ∀ gap, gap ∈ limbs e' ↔ gap ∈ limbs e
  /-- What exhausts the bound keeps it exhausted when records are added. -/
  kept : ∀ earlier : List JsValue, (∀ record ∈ earlier, record ∈ records) → Exhausted Q input earlier →
    Exhausted Q input records
  exact : Exhausted Q input records ↔ ∃ record ∈ records, Attests Q record

theorem exhausted_iff (h : Asks input Q) (hsignable : ∀ record ∈ records, ¬ Unsignable Q record) :
    Exhausted Q input records ↔ ∃ record ∈ records, Attests Q record := by
  obtain ⟨e, he⟩ := (evaluateOver_returns_iff h).mpr hsignable
  have hstate : Exhausted Q input records ↔ e.bound_state = .exhausted := by
    constructor
    · intro hexhausted
      obtain ⟨e', he', hstate⟩ := hexhausted
      cases he.symm.trans he'
      exact hstate
    · intro hstate
      exact ⟨e, he, hstate⟩
  rw [hstate]
  obtain ⟨hstate, -, hattests, -⟩ | ⟨hstate, -, hnone, -⟩ | ⟨hstate, -, hdenies, -⟩ := evaluateOver_spec h he
  · exact iff_of_true hstate hattests
  · refine iff_of_false ?_ ?_
    · rw [hstate]
      decide
    · intro hattests
      obtain ⟨record, hrecord, hattests⟩ := hattests
      exact hnone record hrecord hattests
  · refine iff_of_false ?_ ?_
    · rw [hstate]
      decide
    · intro hattests
      obtain ⟨record, hrecord, hattests⟩ := hattests
      exact hattests.not_denies (hdenies record hrecord)

theorem evaluateOver_congr (h : Asks input Q) {others : List JsValue} {e' : BoundEvaluation}
    (hmem : ∀ record, record ∈ others ↔ record ∈ records) (he : evaluateOver Q input records = .ok e)
    (he' : evaluateOver Q input others = .ok e') :
    e'.bound_state = e.bound_state ∧ e'.reason_code = e.reason_code ∧ ∀ gap, gap ∈ limbs e' ↔ gap ∈ limbs e := by
  obtain ⟨hstate, hreason, ⟨record, hrecord, hattests⟩, hlimbs⟩ |
      ⟨hstate, hreason, hnone, ⟨record, hrecord, hopen⟩, hlimbs⟩ |
      ⟨hstate, hreason, hdenies, hlimbs⟩ := evaluateOver_spec h he
  · obtain ⟨hstate', hreason', -, hlimbs'⟩ | ⟨-, -, hnone', -⟩ | ⟨-, -, hdenies', -⟩ := evaluateOver_spec h he'
    · exact ⟨hstate'.trans hstate.symm, hreason'.trans hreason.symm, fun gap => iff_of_false (hlimbs' gap) (hlimbs gap)⟩
    · exact absurd hattests (hnone' record ((hmem record).mpr hrecord))
    · exact absurd (hdenies' record ((hmem record).mpr hrecord)) hattests.not_denies
  · obtain ⟨-, -, ⟨record', hrecord', hattests'⟩, -⟩ | ⟨hstate', hreason', -, -, hlimbs'⟩ | ⟨-, -, hdenies', -⟩ :=
      evaluateOver_spec h he'
    · exact absurd hattests' (hnone record' ((hmem record').mp hrecord'))
    · refine ⟨hstate'.trans hstate.symm, hreason'.trans hreason.symm, ?_⟩
      intro gap
      rw [hlimbs', hlimbs]
      exact exists_congr fun record => and_congr_left fun _ => hmem record
    · exact absurd (hdenies' record ((hmem record).mpr hrecord)) hopen
  · obtain ⟨-, -, ⟨record', hrecord', hattests'⟩, -⟩ | ⟨-, -, -, ⟨record', hrecord', hopen'⟩, -⟩ |
        ⟨hstate', hreason', -, hlimbs'⟩ := evaluateOver_spec h he'
    · exact absurd (hdenies record' ((hmem record').mp hrecord')) hattests'.not_denies
    · exact absurd (hdenies record' ((hmem record').mp hrecord')) hopen'
    · exact ⟨hstate'.trans hstate.symm, hreason'.trans hreason.symm, fun gap => iff_of_false (hlimbs' gap) (hlimbs gap)⟩

def sampleDelegationId : Str := lit "sha256:aaaaaaaaaaaaaaaaaaaaaaaaaaaaaaaaaaaaaaaaaaaaaaaaaaaaaaaaaaaaaaaa"

def sampleBound : JsValue :=
  .obj [(lit "record_type", .str AUTHORITY_BOUND_TYPE), (lit "bound_id", .str (lit "bound-compressor-replacement")),
    (lit "delegation_id", .str sampleDelegationId), (lit "kind", .str (lit "purpose")),
    (lit "value", .str (lit "maintenance:compressor:replace")),
    (lit "fulfilment_attestor_roles", .arr [.str (lit "maintenance-attestor")])]

def sampleFulfilment (bound attestedAt : String) (detail : List (Str × JsValue)) (signature : Str) : JsValue :=
  .obj ([(lit "record_type", JsValue.str AUTHORITY_BOUND_FULFILMENT_TYPE), (lit "bound_id", .str (lit bound)),
    (lit "delegation_id", .str sampleDelegationId), (lit "attestor", .str (lit "did:example:maintenance-desk")),
    (lit "verification_method", .str (lit "did:example:maintenance-desk#k1")),
    (lit "attested_at", .str (lit attestedAt)), (lit "outcome", .str (lit "fulfilled")),
    (lit "reason_code", .str (lit "PURPOSE_MET"))] ++ detail ++ [(lit "signature", JsValue.str signature)])

def sampleMessage : Str :=
  lit "PROPOSED-APS-AUTHORITY-BOUND-FULFILMENT-SIGNATURE-V0\x00\x7b\"attested_at\":\"2026-09-22T16:30:00.000Z\"" ++
  lit ",\"attestor\":\"did:example:maintenance-desk\",\"bound_id\":\"bound-compressor-replacement\"" ++
  lit ",\"delegation_id\":\"sha256:aaaaaaaaaaaaaaaaaaaaaaaaaaaaaaaaaaaaaaaaaaaaaaaaaaaaaaaaaaaaaaaa\"" ++
  lit ",\"outcome\":\"fulfilled\",\"reason_code\":\"PURPOSE_MET\"" ++
  lit ",\"record_type\":\"proposed:aps:authority-bound-fulfilment:v0\"" ++
  lit ",\"verification_method\":\"did:example:maintenance-desk#k1\"\x7d"

def sampleSignature : Str :=
  lit "86d3218c35dcd91e67436f481a9aa04ff0be08cf1fe62be94aba1d5d16ab0940" ++
  lit "aaf5b0dc41cf4dcdcd93bc3c9f3e1dcdae6e1c97629131ce583cb56c26d11007"

def sampleKey : Str := lit "081987679c4981b26cfc3aa69260255960be17fb39d3596753f36acccc2ce48e"

def sampleQuestion : Question where
  runtime := ⟨fun _ => lit "0", fun message signature key =>
    message = sampleMessage && signature = sampleSignature && key = sampleKey⟩
  resolveAttestorRole attestor _ _ :=
    .str (if attestor = lit "did:example:maintenance-desk" then lit "holds_role" else lit "unknown")
  resolveVerificationKey _ method _ :=
    if method = lit "did:example:maintenance-desk#k1" then .str sampleKey else .null
  bound := ⟨lit "bound-compressor-replacement", sampleDelegationId, .purpose, lit "maintenance:compressor:replace",
    [lit "maintenance-attestor"]⟩
  atInstant := lit "2026-09-23T10:00:00.000Z"

def sampleInput : EvaluateBoundInput :=
  ⟨sampleBound, none, .str sampleQuestion.atInstant, some sampleQuestion.resolveAttestorRole,
    some sampleQuestion.resolveVerificationKey, none, none⟩

def sampleRecord : JsValue :=
  sampleFulfilment "bound-compressor-replacement" "2026-09-22T16:30:00.000Z" [] sampleSignature

def unsignableRecord : JsValue :=
  sampleFulfilment "bound-compressor-replacement" "2026-09-22T16:30:00.000Z" [(lit "detail", .str [0xD800])]
    sampleSignature

theorem sample_asks : Asks sampleInput sampleQuestion :=
  ⟨by rfl, by rfl, by rfl, by rfl, by rfl⟩

/-- The state of a purpose bound is a fold over the set of its records exactly where what every record that
reaches the signature check signed has a canonical text. -/
theorem bound_state_fold_iff (h : Asks input Q) (records : List JsValue) :
    FoldsRecords Q input records ↔ ∀ record ∈ records, ¬ Unsignable Q record := by
  constructor
  · intro hfolds
    obtain ⟨e, -, he, -⟩ := hfolds.order_free records fun _ => Iff.rfl
    exact (evaluateOver_returns_iff h).mp ⟨e, he⟩
  · intro hsignable
    obtain ⟨e, he⟩ := (evaluateOver_returns_iff h).mpr hsignable
    refine ⟨?_, ?_, exhausted_iff h hsignable⟩
    · intro others hmem
      obtain ⟨e', he'⟩ := (evaluateOver_returns_iff h).mpr fun record hrecord =>
        hsignable record ((hmem record).mp hrecord)
      exact ⟨e, e', he, he', evaluateOver_congr h hmem he he'⟩
    · intro earlier hsub hexhausted
      rw [exhausted_iff h fun record hrecord => hsignable record (hsub record hrecord)] at hexhausted
      obtain ⟨record, hrecord, hattests⟩ := hexhausted
      exact (exhausted_iff h hsignable).mpr ⟨record, hsub record hrecord, hattests⟩

theorem sample_accepted : (sampleQuestion.assess sampleRecord).toOption.map (·.accepted) = some true := by
  rw [sampleRecord, sampleFulfilment, sampleDelegationId, AUTHORITY_BOUND_FULFILMENT_TYPE, sampleQuestion,
    sampleMessage, sampleSignature, sampleKey]
  repeat rw [lit_ofList]
  decide +kernel

theorem unsignable_throws : (sampleQuestion.assess unsignableRecord).toOption = none := by
  rw [unsignableRecord, sampleFulfilment, sampleDelegationId, AUTHORITY_BOUND_FULFILMENT_TYPE, sampleQuestion,
    sampleMessage, sampleSignature, sampleKey]
  repeat rw [lit_ofList]
  decide +kernel

theorem sample_attests : Attests sampleQuestion sampleRecord := by
  obtain ⟨a, ha, haccepted⟩ := exists_ok_of_map sample_accepted
  exact (accepted_iff sample_asks.purpose ha).mp haccepted

theorem sample_signable : ∀ record ∈ [sampleRecord], ¬ Unsignable sampleQuestion record := by
  rw [List.forall_mem_singleton, ← assess_ok_iff sample_asks.purpose]
  obtain ⟨a, ha, -⟩ := exists_ok_of_map sample_accepted
  exact ⟨a, ha⟩

theorem unsignable_record : Unsignable sampleQuestion unsignableRecord := by
  by_contra hsignable
  obtain ⟨a, ha⟩ := (assess_ok_iff sample_asks.purpose).mpr hsignable
  have hthrows := unsignable_throws
  rw [ha] at hthrows
  cases hthrows

theorem sample_exhausted : Exhausted sampleQuestion sampleInput [sampleRecord] :=
  (exhausted_iff sample_asks sample_signable).mpr ⟨sampleRecord, List.mem_singleton_self _, sample_attests⟩

theorem bound_state_fold_signed : FoldsRecords sampleQuestion sampleInput [sampleRecord] ∧
    Exhausted sampleQuestion sampleInput [sampleRecord] :=
  ⟨(bound_state_fold_iff sample_asks [sampleRecord]).mpr sample_signable, sample_exhausted⟩

/-- A signed record exhausts the bound, until another one whose text cannot be signed makes the evaluation throw. -/
theorem unsignable_record_throws : Exhausted sampleQuestion sampleInput [sampleRecord] ∧
    (∀ e, evaluateOver sampleQuestion sampleInput [sampleRecord, unsignableRecord] ≠ .ok e) ∧
    ¬ FoldsRecords sampleQuestion sampleInput [sampleRecord, unsignableRecord] := by
  have hthrows : ∀ e, evaluateOver sampleQuestion sampleInput [sampleRecord, unsignableRecord] ≠ .ok e := by
    intro e he
    exact (evaluateOver_returns_iff sample_asks).mp ⟨e, he⟩ unsignableRecord
      (List.mem_cons_of_mem _ (List.mem_singleton_self _)) unsignable_record
  refine ⟨sample_exhausted, hthrows, ?_⟩
  intro hfolds
  obtain ⟨e, he, -⟩ := hfolds.kept [sampleRecord] (List.forall_mem_singleton.mpr List.mem_cons_self) sample_exhausted
  exact hthrows e he

def NamesAnother (Q : Question) (record : JsValue) : Prop :=
  ∃ r, readableFulfilment record = some r ∧
    (r.bound_id ≠ Q.bound.bound_id ∨ r.delegation_id ≠ Q.bound.delegation_id)

def AttestedLater (Q : Question) (record : JsValue) : Prop :=
  ∃ r, readableFulfilment record = some r ∧ Q.atInstant < r.attested_at

def Irrelevant (Q : Question) (record : JsValue) : Prop := AttestedLater Q record ∨ NamesAnother Q record

theorem NamesAnother.coverage (hkind : Q.bound.kind = .purpose) (h : NamesAnother Q record) :
    LeavesMissing Q record .coverage := by
  obtain ⟨r, hr, hother⟩ := h
  have hnames : (r.bound_id ≠ Q.bound.bound_id || r.delegation_id ≠ Q.bound.delegation_id) = true := by
    rw [Bool.or_eq_true, decide_eq_true_iff, decide_eq_true_iff]
    exact hother
  have hassess : Q.assess record =
      .ok ⟨r.attestor, r.attested_at, false, .FULFILMENT_NOT_BOUND_TO_BOUND, none, some [.coverage]⟩ := by
    rw [Question.assess, assessFulfilment, if_neg (not_not_intro hkind), hr]
    exact if_pos hnames
  exact ⟨_, hassess, ⟨rfl, rfl⟩, List.mem_singleton_self _⟩

theorem Irrelevant.turnedAway (h : Irrelevant Q record) : TurnedAway Q record := by
  intro hreach
  obtain ⟨r, key, hreach⟩ := hreach
  obtain ⟨r', hr', hlater⟩ | ⟨r', hr', hother⟩ := h
  · cases hr'.symm.trans hreach.readable
    exact hreach.attested hlater
  · cases hr'.symm.trans hreach.readable
    obtain hbound | hdelegation := hother
    · exact hbound hreach.bound
    · exact hdelegation hreach.delegation

theorem TurnedAway.not_attests (h : TurnedAway Q record) : ¬ Attests Q record := by
  intro hattests
  obtain ⟨r, ⟨key, hreach, -⟩, -⟩ := hattests
  exact h ⟨r, key, hreach⟩

theorem TurnedAway.not_denies (h : TurnedAway Q record) : ¬ Denies Q record := by
  intro hdenies
  obtain ⟨r, ⟨key, hreach, -⟩, -⟩ := hdenies
  exact h ⟨r, key, hreach⟩

theorem TurnedAway.signable (h : TurnedAway Q record) : ¬ Unsignable Q record := by
  intro hunsignable
  obtain ⟨r, key, hreach, -⟩ := hunsignable
  exact h ⟨r, key, hreach⟩

/-- The state the question has over some records, when the evaluation returns. -/
def stateOver (Q : Question) (input : EvaluateBoundInput) (records : List JsValue) : Option BoundState :=
  (evaluateOver Q input records).toOption.map (·.bound_state)

theorem stateOver_ok (he : evaluateOver Q input records = .ok e) : stateOver Q input records = some e.bound_state := by
  rw [stateOver, he]
  rfl

theorem stateOver_none (h : Asks input Q) (hunsignable : ¬ ∀ record ∈ records, ¬ Unsignable Q record) :
    stateOver Q input records = none := by
  rw [← evaluateOver_returns_iff h] at hunsignable
  rw [stateOver]
  cases hcase : evaluateOver Q input records with
  | error e => rfl
  | ok e => exact absurd ⟨e, hcase⟩ hunsignable

/-- Records that do not matter to a bound never lift what was established and never settle what was not; beside
denials alone they leave the bound without an established state where one of them is about another bound. -/
theorem irrelevant_records (h : Asks input Q) {records added all : List JsValue}
    (hall : ∀ record, record ∈ all ↔ record ∈ records ∨ record ∈ added)
    (hadded : ∀ record ∈ added, Irrelevant Q record) :
    ((added = [] ∨ ∃ record ∈ records, ¬ Denies Q record) → stateOver Q input all = stateOver Q input records) ∧
    ((∀ record ∈ records, Denies Q record) → (∃ record ∈ added, NamesAnother Q record) →
      stateOver Q input records = some .not_reached ∧
      ∃ e, evaluateOver Q input all = .ok e ∧ e.bound_state = .not_established ∧ .coverage ∈ limbs e) := by
  have hsignable : (∀ record ∈ all, ¬ Unsignable Q record) ↔ ∀ record ∈ records, ¬ Unsignable Q record := by
    constructor
    · intro hsigned record hrecord
      exact hsigned record ((hall record).mpr (.inl hrecord))
    · intro hsigned record hrecord
      obtain hrecord | hrecord := (hall record).mp hrecord
      · exact hsigned record hrecord
      · exact (hadded record hrecord).turnedAway.signable
  constructor
  · intro hmoved
    by_cases hsigned : ∀ record ∈ records, ¬ Unsignable Q record
    · obtain ⟨e, he⟩ := (evaluateOver_returns_iff h).mpr hsigned
      obtain ⟨e', he'⟩ := (evaluateOver_returns_iff h).mpr (hsignable.mpr hsigned)
      rw [stateOver_ok he, stateOver_ok he', Option.some.injEq]
      obtain ⟨hstate, -, ⟨record, hrecord, hattests⟩, -⟩ | ⟨hstate, -, hnone, ⟨record, hrecord, hopen⟩, -⟩ |
          ⟨hstate, -, hdenies, -⟩ := evaluateOver_spec h he
      · have hin := (hall record).mpr (.inl hrecord)
        obtain ⟨hstate', -⟩ | ⟨-, -, hnone', -⟩ | ⟨-, -, hdenies', -⟩ := evaluateOver_spec h he'
        · exact hstate'.trans hstate.symm
        · exact absurd hattests (hnone' record hin)
        · exact absurd (hdenies' record hin) hattests.not_denies
      · have hin := (hall record).mpr (.inl hrecord)
        obtain ⟨-, -, ⟨record', hrecord', hattests'⟩, -⟩ | ⟨hstate', -⟩ | ⟨-, -, hdenies', -⟩ := evaluateOver_spec h he'
        · obtain hrecord' | hrecord' := (hall record').mp hrecord'
          · exact absurd hattests' (hnone record' hrecord')
          · exact absurd hattests' (hadded record' hrecord').turnedAway.not_attests
        · exact hstate'.trans hstate.symm
        · exact absurd (hdenies' record hin) hopen
      · obtain rfl | ⟨record, hrecord, hopen⟩ := hmoved
        · obtain ⟨hstate', -⟩ := evaluateOver_congr h
            (fun record => (hall record).trans (or_iff_left List.not_mem_nil)) he he'
          exact hstate'
        · exact absurd (hdenies record hrecord) hopen
    · rw [stateOver_none h hsigned, stateOver_none h (mt hsignable.mp hsigned)]
  · intro hdenies hother
    obtain ⟨record, hrecord, hother⟩ := hother
    have hin := (hall record).mpr (.inr hrecord)
    have hsigned : ∀ record ∈ records, ¬ Unsignable Q record := by
      intro record' hrecord' hunsignable
      obtain ⟨-, -, -, e, he⟩ := hunsignable
      obtain ⟨-, ⟨-, -, message, hmessage, -⟩, -⟩ := hdenies record' hrecord'
      cases he.symm.trans hmessage
    obtain ⟨e, he⟩ := (evaluateOver_returns_iff h).mpr hsigned
    obtain ⟨e', he'⟩ := (evaluateOver_returns_iff h).mpr (hsignable.mpr hsigned)
    constructor
    · rw [stateOver_ok he, Option.some.injEq]
      obtain ⟨-, -, ⟨record', hrecord', hattests⟩, -⟩ | ⟨-, -, -, ⟨record', hrecord', hopen⟩, -⟩ | ⟨hstate, -⟩ :=
        evaluateOver_spec h he
      · exact absurd (hdenies record' hrecord') hattests.not_denies
      · exact absurd (hdenies record' hrecord') hopen
      · exact hstate
    · refine ⟨e', he', ?_⟩
      obtain ⟨-, -, ⟨record', hrecord', hattests⟩, -⟩ | ⟨hstate, -, -, -, hlimbs⟩ | ⟨-, -, hdenies', -⟩ :=
        evaluateOver_spec h he'
      · obtain hrecord' | hrecord' := (hall record').mp hrecord'
        · exact absurd (hdenies record' hrecord') hattests.not_denies
        · exact absurd hattests (hadded record' hrecord').turnedAway.not_attests
      · exact ⟨hstate, (hlimbs .coverage).mpr ⟨record, hin, hother.coverage h.purpose⟩⟩
      · exact absurd (hdenies' record hin) (Irrelevant.turnedAway (.inr hother)).not_denies

def otherBoundRecord : JsValue :=
  sampleFulfilment "bound-something-else" "2026-09-22T16:30:00.000Z" []
    (lit "1919d4bf634d373a6be64279e68092c62b382f8f923f920132cad39b5ffe058b" ++
      lit "921ae10efe1915330996fdb78fbdd03a5ec84f6de10585a6d670d7169c72f107")

theorem otherBound_irrelevant : NamesAnother sampleQuestion otherBoundRecord := by
  have hnames : (readableFulfilment otherBoundRecord).map (·.bound_id) = some (lit "bound-something-else") := by
    rw [otherBoundRecord, sampleFulfilment, sampleDelegationId]
    repeat rw [lit_ofList]
    decide +kernel
  obtain ⟨r, hr, hbound⟩ := Option.map_eq_some_iff.mp hnames
  refine ⟨r, hr, .inl ?_⟩
  rw [hbound, sampleQuestion]
  decide

theorem irrelevant_records_other :
    stateOver sampleQuestion sampleInput [sampleRecord, otherBoundRecord] = some .exhausted ∧
    stateOver sampleQuestion sampleInput [] = some .not_reached ∧
    ∃ e, evaluateOver sampleQuestion sampleInput [otherBoundRecord] = .ok e ∧ e.bound_state = .not_established ∧
      .coverage ∈ limbs e := by
  have hirrelevant : ∀ record ∈ [otherBoundRecord], Irrelevant sampleQuestion record :=
    List.forall_mem_singleton.mpr (.inr otherBound_irrelevant)
  have hbeside : ∀ record, record ∈ [sampleRecord, otherBoundRecord] ↔
      record ∈ [sampleRecord] ∨ record ∈ [otherBoundRecord] := by
    intro record
    rw [List.mem_cons, List.mem_singleton (a := record) (b := sampleRecord)]
  have halone : ∀ record, record ∈ [otherBoundRecord] ↔ record ∈ [] ∨ record ∈ [otherBoundRecord] := by
    intro record
    rw [or_iff_right List.not_mem_nil]
  obtain ⟨hkept, -⟩ := irrelevant_records sample_asks hbeside hirrelevant
  obtain ⟨-, hmoved⟩ := irrelevant_records sample_asks halone hirrelevant
  refine ⟨?_, hmoved (fun record hrecord => absurd hrecord List.not_mem_nil)
    ⟨otherBoundRecord, List.mem_singleton_self _, otherBound_irrelevant⟩⟩
  rw [hkept (.inr ⟨sampleRecord, List.mem_singleton_self _, sample_attests.not_denies⟩)]
  obtain ⟨e, he, hstate⟩ := sample_exhausted
  rw [stateOver_ok he, hstate]

/-- A bound no record is about is not reached, and a record about another bound leaves it without an established
state. -/
theorem other_bound_moves_state : NamesAnother sampleQuestion otherBoundRecord ∧
    stateOver sampleQuestion sampleInput [] = some .not_reached ∧
    stateOver sampleQuestion sampleInput [otherBoundRecord] = some .not_established := by
  refine ⟨otherBound_irrelevant, ?_⟩
  rw [stateOver, stateOver, evaluateOver_eq sample_asks, evaluateOver_eq sample_asks, otherBoundRecord,
    sampleFulfilment, sampleQuestion, sampleDelegationId, AUTHORITY_BOUND_FULFILMENT_TYPE]
  repeat rw [lit_ofList]
  decide +kernel

end AgentPassport.BoundRecords
