import AgentPassport.PauseCauses

/-! The pause state is a function of the set of records: which causes hold is decided for each
cause alone, and neither the order of the records nor a release that does not name a cause touches it. -/
namespace AgentPassport.PauseState
open JsText Js LifecycleState PauseCauses Outcome
variable {R : Resolvers} {q q' : PauseQuery} {s s' : PauseSets}

/-- A cause of this delegation and type, issued by the instant, signed by and bound to its imposer. -/
structure InEvidence (R : Resolvers) (q : PauseQuery) (cause : SuspensionCause) : Prop where
  delegation : cause.delegation_id = q.delegationId
  type : cause.record_type = SUSPENSION_CAUSE_TYPE
  issued : ¬ q.atInstant < cause.issued_at
  signed : signatureVerifies R cause.record cause.imposed_by cause.verification_method cause.signature = true
  bound : boundTo cause.imposed_by cause.verification_method = true

structure ReleaseInEvidence (R : Resolvers) (q : PauseQuery) (release : SuspensionRelease) : Prop where
  delegation : release.delegation_id = q.delegationId
  type : release.record_type = SUSPENSION_RELEASE_TYPE
  signed : signatureVerifies R release.record release.issuer release.verification_method release.signature = true
  bound : boundTo release.issuer release.verification_method = true
  issued : ¬ q.atInstant < release.issued_at

variable {cause : SuspensionCause}

theorem disposeCause_iff : disposeCause R q cause = .CAUSE_IN_EVIDENCE ↔ InEvidence R q cause := by
  unfold disposeCause
  constructor
  · intro h
    split at h
    · cases h
    · rename_i hdelegation
      split at h
      · cases h
      · rename_i htype
        split at h
        · cases h
        · rename_i hissued
          split at h
          · cases h
          · rename_i hsigned
            split at h
            · cases h
            · rename_i hbound
              exact ⟨by simpa using hdelegation, by simpa using htype, hissued, by simpa using hsigned,
                by simpa using hbound⟩
  · intro h
    simp [h.delegation, h.type, h.issued, h.signed, h.bound]

variable {release : SuspensionRelease}

theorem disposeRecord_iff : disposeRecord R q release = .RELEASE_IN_EVIDENCE ↔ ReleaseInEvidence R q release := by
  unfold disposeRecord
  constructor
  · intro h
    split at h
    · cases h
    · rename_i hdelegation
      split at h
      · cases h
      · rename_i htype
        split at h
        · cases h
        · rename_i hsigned
          split at h
          · cases h
          · rename_i hbound
            split at h
            · cases h
            · rename_i hissued
              exact ⟨by simpa using hdelegation, by simpa using htype, by simpa using hsigned,
                by simpa using hbound, hissued⟩
  · intro h
    simp [h.delegation, h.type, h.issued, h.signed, h.bound]

def Distinct (q : PauseQuery) : Prop := (q.causes.map (·.cause_id)).Nodup

variable {id : Str}

theorem inEvidence_get (hq : Distinct q) :
    (inEvidence R q).get id = some cause ↔ cause ∈ q.causes ∧ InEvidence R q cause ∧ cause.cause_id = id := by
  rw [inEvidence, OrderedMap.get_indexWhere hq (fun other _ => rfl), disposeCause_iff]
  simp

/-- A release in evidence names the cause, is not older, and its standing over the cause was answered so. -/
structure Answered (R : Resolvers) (q : PauseQuery) (release : SuspensionRelease) (cause : SuspensionCause)
    (standing : ReleaseStanding) : Prop where
  evidence : ReleaseInEvidence R q release
  names : cause.cause_id ∈ release.cause_ids
  notBefore : ¬ release.issued_at < cause.issued_at
  answer : resolveStanding R release cause = .ok standing

variable {standing : ReleaseStanding} {m : OrderedMap Str SuspensionCause}

theorem disposeNamed_iff : disposeNamed R m release id = .ok (standingCode standing) ↔
      ∃ cause, m.get id = some cause ∧ ¬ release.issued_at < cause.issued_at ∧
        resolveStanding R release cause = .ok standing := by
  unfold disposeNamed
  cases hget : m.get id with
  | none =>
    constructor
    · intro h
      cases standing <;> cases h
    · intro h
      obtain ⟨cause, hcause, -⟩ := h
      cases hcause
  | some cause =>
    by_cases hbefore : release.issued_at < cause.issued_at
    · simp only [if_pos hbefore]
      constructor
      · intro h
        cases standing <;> cases h
      · intro h
        obtain ⟨other, hother, hnot, -⟩ := h
        cases hother
        exact absurd hbefore hnot
    · simp only [if_neg hbefore]
      constructor
      · intro h
        obtain ⟨found, hfound, hcode⟩ := bind_eq_ok.mp h
        have hsame : found = standing := by
          cases found <;> cases standing <;> first | rfl | cases hcode
        exact ⟨cause, rfl, hbefore, hsame ▸ hfound⟩
      · intro h
        obtain ⟨other, hother, -, hstanding⟩ := h
        cases hother
        exact bind_eq_ok.mpr ⟨standing, hstanding, rfl⟩

variable {ids : List Str}

theorem disposeEach_ok : ∀ {entries : List ReleaseCauseDisposition}, disposeEach R m release ids = .ok entries →
      ∀ {id : Str} {code : SuspensionReasonCode}, (⟨id, code⟩ : ReleaseCauseDisposition) ∈ entries ↔
        id ∈ ids ∧ disposeNamed R m release id = .ok code := by
  induction ids with
  | nil =>
    intro entries h id code
    cases h
    simp
  | cons first rest ih =>
    intro entries h id code
    rw [disposeEach] at h
    obtain ⟨disposition, hfirst, h⟩ := bind_eq_ok.mp h
    obtain ⟨others, hothers, h⟩ := bind_eq_ok.mp h
    cases h
    rw [List.mem_cons, List.mem_cons, ih hothers, ReleaseCauseDisposition.mk.injEq]
    constructor
    · intro hmem
      obtain ⟨rfl, rfl⟩ | ⟨hid, hcode⟩ := hmem
      · exact ⟨.inl rfl, hfirst⟩
      · exact ⟨.inr hid, hcode⟩
    · intro hmem
      obtain ⟨rfl | hid, hcode⟩ := hmem
      · rw [hfirst] at hcode
        cases hcode
        exact .inl ⟨rfl, rfl⟩
      · exact .inr ⟨hid, hcode⟩

theorem disposeRelease_entry (hq : Distinct q) {d : ReleaseDisposition}
    (h : disposeRelease R q (inEvidence R q) release = .ok d) :
    (⟨id, standingCode standing⟩ : ReleaseCauseDisposition) ∈ d.causes ↔
      ∃ cause ∈ q.causes, InEvidence R q cause ∧ cause.cause_id = id ∧ Answered R q release cause standing := by
  unfold disposeRelease at h
  split at h
  · rename_i hrecord
    obtain ⟨entries, hentries, h⟩ := bind_eq_ok.mp h
    cases h
    rw [disposeEach_ok hentries, disposeNamed_iff]
    constructor
    · intro hmem
      obtain ⟨hnames, cause, hget, hbefore, hstanding⟩ := hmem
      obtain ⟨hcause, hevidence, rfl⟩ := (inEvidence_get hq).mp hget
      exact ⟨cause, hcause, hevidence, rfl, disposeRecord_iff.mp hrecord, hnames, hbefore, hstanding⟩
    · intro hmem
      obtain ⟨cause, hcause, hevidence, rfl, hanswered⟩ := hmem
      exact ⟨hanswered.names, cause, (inEvidence_get hq).mpr ⟨hcause, hevidence, rfl⟩, hanswered.notBefore,
        hanswered.answer⟩
  · rename_i hrecord
    cases h
    constructor
    · intro hmem
      cases hmem
    · intro hmem
      obtain ⟨cause, -, -, -, hanswered⟩ := hmem
      exact absurd (disposeRecord_iff.mpr hanswered.evidence) hrecord

theorem disposeReleases_ok {releases : List SuspensionRelease} :
    ∀ {ds : List ReleaseDisposition}, disposeReleases R q m releases = .ok ds ↔
      List.Forall₂ (fun release d => disposeRelease R q m release = .ok d) releases ds := by
  induction releases with
  | nil =>
    intro ds
    rw [disposeReleases, List.forall₂_nil_left_iff]
    constructor
    · intro h
      cases h
      rfl
    · intro h
      rw [h]
      rfl
  | cons release rest ih =>
    intro ds
    rw [disposeReleases, List.forall₂_cons_left_iff]
    constructor
    · intro h
      obtain ⟨first, hfirst, h⟩ := bind_eq_ok.mp h
      obtain ⟨others, hothers, h⟩ := bind_eq_ok.mp h
      cases h
      exact ⟨first, others, hfirst, ih.mp hothers, rfl⟩
    · intro h
      obtain ⟨first, others, hfirst, hothers, rfl⟩ := h
      exact bind_eq_ok.mpr ⟨first, hfirst, bind_eq_ok.mpr ⟨others, ih.mpr hothers, rfl⟩⟩

variable {ds : List ReleaseDisposition}

theorem entry_iff (hq : Distinct q) {releases : List SuspensionRelease}
    (h : List.Forall₂ (fun release d => disposeRelease R q (inEvidence R q) release = .ok d) releases ds) :
    (∃ d ∈ ds, (⟨id, standingCode standing⟩ : ReleaseCauseDisposition) ∈ d.causes) ↔
      ∃ release ∈ releases, ∃ cause ∈ q.causes, InEvidence R q cause ∧ cause.cause_id = id ∧
        Answered R q release cause standing := by
  induction h with
  | nil => simp
  | cons hfirst _ ih =>
    simp only [List.mem_cons, exists_eq_or_imp]
    rw [ih, disposeRelease_entry hq hfirst]

/-- An entry of the dispositions walked so far. -/
def Noted (ds : List ReleaseDisposition) (id : Str) (standing : ReleaseStanding) : Prop :=
  ∃ d ∈ ds, (⟨id, standingCode standing⟩ : ReleaseCauseDisposition) ∈ d.causes

theorem noteEntry_releasedBy {release_id : Str} {r : Recorded} {entry : ReleaseCauseDisposition} :
    ((noteEntry release_id r entry).releasedBy.get id).isSome = true ↔
      (r.releasedBy.get id).isSome = true ∨ entry = ⟨id, .CAUSE_RELEASED⟩ := by
  obtain ⟨cause_id, disposition⟩ := entry
  rw [ReleaseCauseDisposition.mk.injEq]
  unfold noteEntry
  split
  · rename_i hreleased
    obtain ⟨hcode, hnone⟩ := hreleased
    simp only at hcode hnone ⊢
    rw [OrderedMap.get_set]
    split
    · rename_i heq
      simp [heq, hcode]
    · rename_i hne
      simp [hne]
  · rename_i hnot
    have hkept : (r.releasedBy.get id).isSome = true ↔
        (r.releasedBy.get id).isSome = true ∨ cause_id = id ∧ disposition = .CAUSE_RELEASED := by
      constructor
      · exact .inl
      · intro h
        obtain h | ⟨rfl, hcode⟩ := h
        · exact h
        · simpa [hcode, Option.isSome_iff_ne_none] using hnot
    split
    · exact hkept
    · exact hkept

theorem noteEntry_unresolved {release_id : Str} {r : Recorded} {entry : ReleaseCauseDisposition} :
    (noteEntry release_id r entry).unresolved =
      if entry.disposition = .RELEASE_STANDING_NOT_ESTABLISHED then r.unresolved.insert entry.cause_id
      else r.unresolved := by
  unfold noteEntry
  split
  · rename_i hreleased
    rw [if_neg (by rw [hreleased.1]; decide)]
  · split
    · rfl
    · rfl

theorem noteEntries_releasedBy {release_id id : Str} {entries : List ReleaseCauseDisposition} :
    ∀ {r : Recorded}, ((entries.foldl (noteEntry release_id) r).releasedBy.get id).isSome = true ↔
      (r.releasedBy.get id).isSome = true ∨ (⟨id, .CAUSE_RELEASED⟩ : ReleaseCauseDisposition) ∈ entries := by
  induction entries with
  | nil =>
    intro r
    simp
  | cons entry rest ih =>
    intro r
    rw [List.foldl_cons, ih, noteEntry_releasedBy, List.mem_cons, or_assoc, eq_comm (b := entry)]

theorem noteEntries_unresolved {release_id id : Str} {entries : List ReleaseCauseDisposition} :
    ∀ {r : Recorded}, r.unresolved.Nodup → (entries.foldl (noteEntry release_id) r).unresolved.Nodup ∧
      (id ∈ (entries.foldl (noteEntry release_id) r).unresolved ↔ id ∈ r.unresolved ∨
        (⟨id, .RELEASE_STANDING_NOT_ESTABLISHED⟩ : ReleaseCauseDisposition) ∈ entries) := by
  induction entries with
  | nil =>
    intro r hr
    simp [hr]
  | cons entry rest ih =>
    intro r hr
    have hstep := @noteEntry_unresolved release_id r entry
    have hnodup : (noteEntry release_id r entry).unresolved.Nodup := by
      rw [hstep]
      split
      · exact hr.insert
      · exact hr
    obtain ⟨hrest, hmem⟩ := ih hnodup
    refine ⟨hrest, ?_⟩
    rw [List.foldl_cons, hmem, hstep, List.mem_cons, ← or_assoc]
    refine or_congr_left ?_
    obtain ⟨cause_id, disposition⟩ := entry
    simp only [ReleaseCauseDisposition.mk.injEq]
    split
    · rename_i hunknown
      rw [List.mem_insert_iff, hunknown]
      constructor
      · intro h
        obtain rfl | h := h
        · exact .inr ⟨rfl, rfl⟩
        · exact .inl h
      · intro h
        obtain h | ⟨rfl, -⟩ := h
        · exact .inr h
        · exact .inl rfl
    · rename_i hunknown
      constructor
      · exact .inl
      · intro h
        obtain h | ⟨-, hcode⟩ := h
        · exact h
        · exact absurd hcode.symm hunknown

theorem noteDispositions_releasedBy : ∀ {r : Recorded}, ((ds.foldl noteDisposition r).releasedBy.get id).isSome = true ↔
      (r.releasedBy.get id).isSome = true ∨ Noted ds id .has_standing := by
  induction ds with
  | nil =>
    intro r
    simp [Noted]
  | cons d rest ih =>
    intro r
    rw [List.foldl_cons, ih, noteDisposition, noteEntries_releasedBy, or_assoc]
    simp only [Noted, List.mem_cons, exists_eq_or_imp]
    rfl

theorem noteDispositions_unresolved {ds : List ReleaseDisposition} {id : Str} :
    ∀ {r : Recorded}, r.unresolved.Nodup → (ds.foldl noteDisposition r).unresolved.Nodup ∧
      (id ∈ (ds.foldl noteDisposition r).unresolved ↔ id ∈ r.unresolved ∨ Noted ds id .unknown) := by
  induction ds with
  | nil =>
    intro r hr
    simp [hr, Noted]
  | cons d rest ih =>
    intro r hr
    obtain ⟨hnodup, hmem⟩ := @noteEntries_unresolved d.release_id id d.causes r hr
    obtain ⟨hrest, hrestMem⟩ := ih hnodup
    refine ⟨hrest, ?_⟩
    rw [List.foldl_cons, noteDisposition, hrestMem, hmem, or_assoc]
    simp only [Noted, List.mem_cons, exists_eq_or_imp]
    rfl

theorem record_spec (ds : List ReleaseDisposition) :
    (∀ id, ((record ds).releasedBy.get id).isSome = true ↔ Noted ds id .has_standing) ∧
      (record ds).unresolved.Nodup ∧
      ∀ id, id ∈ (record ds).unresolved ↔ Noted ds id .unknown ∧ ¬ Noted ds id .has_standing := by
  have hreleased : ∀ id, ((record ds).releasedBy.get id).isSome = true ↔ Noted ds id .has_standing := by
    intro id
    rw [record, noteDispositions_releasedBy]
    simp
  have hdiff : (record ds).unresolved = (ds.foldl noteDisposition ⟨.empty, []⟩).unresolved.diff
      (record ds).releasedBy.keys := by
    rw [List.diff_eq_foldl]
    rfl
  have hbefore : (ds.foldl noteDisposition ⟨.empty, []⟩).unresolved.Nodup :=
    (@noteDispositions_unresolved ds [] ⟨.empty, []⟩ List.nodup_nil).1
  refine ⟨hreleased, ?_, ?_⟩
  · rw [hdiff]
    exact hbefore.diff
  · intro id
    rw [hdiff, hbefore.mem_sdiff_iff, OrderedMap.mem_keys, hreleased,
      (@noteDispositions_unresolved ds id ⟨.empty, []⟩ List.nodup_nil).2]
    simp

/-- A cause holds: it is in evidence and no release cleared it. -/
def Holds (R : Resolvers) (q : PauseQuery) (cause : SuspensionCause) : Prop :=
  InEvidence R q cause ∧ ∀ release ∈ q.releases, ¬ Answered R q release cause .has_standing

theorem noted_iff (hq : Distinct q) (h : disposeReleases R q (inEvidence R q) q.releases = .ok ds)
    (hcause : cause ∈ q.causes) (hevidence : InEvidence R q cause) :
    Noted ds cause.cause_id standing ↔ ∃ release ∈ q.releases, Answered R q release cause standing := by
  rw [Noted, entry_iff hq (disposeReleases_ok.mp h)]
  constructor
  · intro hnoted
    obtain ⟨release, hrelease, other, hother, -, hid, hanswered⟩ := hnoted
    obtain rfl := List.inj_on_of_nodup_map hq hother hcause hid
    exact ⟨release, hrelease, hanswered⟩
  · intro hnoted
    obtain ⟨release, hrelease, hanswered⟩ := hnoted
    exact ⟨release, hrelease, cause, hcause, hevidence, rfl, hanswered⟩

theorem cause_of_noted (hq : Distinct q) (h : disposeReleases R q (inEvidence R q) q.releases = .ok ds)
    (hnoted : Noted ds id standing) : ∃ cause ∈ q.causes, InEvidence R q cause ∧ cause.cause_id = id := by
  obtain ⟨-, -, cause, hcause, hevidence, hid, -⟩ := (entry_iff hq (disposeReleases_ok.mp h)).mp hnoted
  exact ⟨cause, hcause, hevidence, hid⟩

/-- What the evaluation holds of every cause, each by its own definition. -/
structure Describes (R : Resolvers) (q : PauseQuery) (s : PauseSets) : Prop where
  remaining : ∀ cause, cause ∈ s.remaining ↔ cause ∈ q.causes ∧ Holds R q cause
  sorted : s.remaining.Pairwise (fun a b => a.cause_id ≤ b.cause_id)
  nodup : s.remaining.Nodup
  unresolved : ∀ id, id ∈ s.unresolved ↔ ∃ cause ∈ q.causes, cause.cause_id = id ∧ Holds R q cause ∧
    ∃ release ∈ q.releases, Answered R q release cause .unknown
  unresolvedNodup : s.unresolved.Nodup
  released : ∀ cause ∈ q.causes, InEvidence R q cause →
    ((s.releasedBy.get cause.cause_id).isSome = true ↔ ¬ Holds R q cause)

theorem sortCauses_perm (causes : List SuspensionCause) : (sortCauses causes).Perm causes :=
  List.perm_insertionSort _ causes

theorem sortCauses_sorted (causes : List SuspensionCause) :
    (sortCauses causes).Pairwise (fun a b => a.cause_id ≤ b.cause_id) := by
  have : IsTrans SuspensionCause (fun a b => a.cause_id ≤ b.cause_id) := ⟨fun _ _ _ => List.le_trans⟩
  have : Std.Total (fun a b : SuspensionCause => a.cause_id ≤ b.cause_id) :=
    ⟨fun a b => List.le_total a.cause_id b.cause_id⟩
  exact List.pairwise_insertionSort _ causes

theorem holds_iff (hq : Distinct q) (h : disposeReleases R q (inEvidence R q) q.releases = .ok ds)
    (hcause : cause ∈ q.causes) : Holds R q cause ↔ InEvidence R q cause ∧ ¬ Noted ds cause.cause_id .has_standing := by
  refine and_congr_right ?_
  intro hevidence
  rw [noted_iff hq h hcause hevidence]
  simp

theorem inEvidence_values_nodup (hq : Distinct q) : (inEvidence R q).values.Nodup := by
  have hkeys : (inEvidence R q).values.map (·.cause_id) = (inEvidence R q).keys := by
    rw [OrderedMap.values, OrderedMap.keys, List.map_map]
    apply List.map_congr_left
    intro entry hentry
    exact ((inEvidence_get hq).mp (OrderedMap.mem_entries.mp hentry)).2.2
  exact List.Nodup.of_map (·.cause_id) (hkeys ▸ (inEvidence R q).keys_nodup)

theorem pauseSets_describes (hq : Distinct q) (h : pauseSets R q = .ok s) : Describes R q s := by
  obtain ⟨ds, hds, h⟩ := bind_eq_ok.mp h
  cases h
  obtain ⟨hreleased, hnodup, hunresolved⟩ := record_spec ds
  refine ⟨?_, sortCauses_sorted _, ?_, ?_, hnodup, ?_⟩
  · intro cause
    rw [(sortCauses_perm _).mem_iff, List.mem_filter, OrderedMap.mem_values, Option.isNone_iff_eq_none,
      ← Option.not_isSome_iff_eq_none, hreleased]
    constructor
    · intro hmem
      obtain ⟨⟨id, hget⟩, hnot⟩ := hmem
      obtain ⟨hcause, hevidence, rfl⟩ := (inEvidence_get hq).mp hget
      exact ⟨hcause, (holds_iff hq hds hcause).mpr ⟨hevidence, hnot⟩⟩
    · intro hmem
      obtain ⟨hcause, hholds⟩ := hmem
      obtain ⟨hevidence, hnot⟩ := (holds_iff hq hds hcause).mp hholds
      exact ⟨⟨cause.cause_id, (inEvidence_get hq).mpr ⟨hcause, hevidence, rfl⟩⟩, hnot⟩
  · exact (sortCauses_perm _).nodup_iff.mpr ((inEvidence_values_nodup hq).filter _)
  · intro id
    rw [hunresolved]
    constructor
    · intro hid
      obtain ⟨hunknown, hnot⟩ := hid
      obtain ⟨cause, hcause, hevidence, rfl⟩ := cause_of_noted hq hds hunknown
      exact ⟨cause, hcause, rfl, (holds_iff hq hds hcause).mpr ⟨hevidence, hnot⟩,
        (noted_iff hq hds hcause hevidence).mp hunknown⟩
    · intro hid
      obtain ⟨cause, hcause, rfl, hholds, hunknown⟩ := hid
      obtain ⟨hevidence, hnot⟩ := (holds_iff hq hds hcause).mp hholds
      exact ⟨(noted_iff hq hds hcause hevidence).mpr hunknown, hnot⟩
  · intro cause hcause hevidence
    rw [hreleased, holds_iff hq hds hcause]
    simp [hevidence]

theorem remaining_eq (hq : Distinct q) (h : Describes R q s) (h' : Describes R q' s')
    (hsame : ∀ cause, cause ∈ q'.causes ∧ Holds R q' cause ↔ cause ∈ q.causes ∧ Holds R q cause) :
    s'.remaining = s.remaining := by
  have hperm : s'.remaining.Perm s.remaining := by
    rw [List.perm_ext_iff_of_nodup h'.nodup h.nodup]
    intro cause
    rw [h.remaining, h'.remaining, hsame]
  refine hperm.eq_of_pairwise ?_ h'.sorted h.sorted
  intro a b ha hb hab hba
  exact List.inj_on_of_nodup_map hq ((h.remaining a).mp (hperm.mem_iff.mp ha)).1 ((h.remaining b).mp hb).1
    (List.le_antisymm hab hba)

/-- The same query with its records in another order. -/
structure Reordered (q q' : PauseQuery) : Prop where
  delegationId : q'.delegationId = q.delegationId
  atInstant : q'.atInstant = q.atInstant
  causes : q.causes.Perm q'.causes
  releases : q.releases.Perm q'.releases

theorem Reordered.distinct (h : Reordered q q') (hq : Distinct q) : Distinct q' :=
  (h.causes.map _).nodup_iff.mp hq

theorem Reordered.inEvidence_iff (h : Reordered q q') : InEvidence R q' cause ↔ InEvidence R q cause := by
  constructor
  · intro hc
    exact ⟨h.delegationId ▸ hc.delegation, hc.type, h.atInstant ▸ hc.issued, hc.signed, hc.bound⟩
  · intro hc
    exact ⟨h.delegationId.symm ▸ hc.delegation, hc.type, h.atInstant.symm ▸ hc.issued, hc.signed, hc.bound⟩

theorem Reordered.releaseInEvidence_iff (h : Reordered q q') :
    ReleaseInEvidence R q' release ↔ ReleaseInEvidence R q release := by
  constructor
  · intro hr
    exact ⟨h.delegationId ▸ hr.delegation, hr.type, hr.signed, hr.bound, h.atInstant ▸ hr.issued⟩
  · intro hr
    exact ⟨h.delegationId.symm ▸ hr.delegation, hr.type, hr.signed, hr.bound, h.atInstant.symm ▸ hr.issued⟩

theorem Reordered.answered_iff (h : Reordered q q') :
    Answered R q' release cause standing ↔ Answered R q release cause standing := by
  constructor
  · intro ha
    exact ⟨h.releaseInEvidence_iff.mp ha.evidence, ha.names, ha.notBefore, ha.answer⟩
  · intro ha
    exact ⟨h.releaseInEvidence_iff.mpr ha.evidence, ha.names, ha.notBefore, ha.answer⟩

theorem Reordered.holds_iff (h : Reordered q q') : Holds R q' cause ↔ Holds R q cause := by
  unfold Holds
  simp only [h.inEvidence_iff, h.answered_iff, ← h.releases.mem_iff]

theorem Reordered.inEvidence_get_eq (h : Reordered q q') (hq : Distinct q) (id : Str) :
    (inEvidence R q').get id = (inEvidence R q).get id := by
  apply Option.ext
  intro cause
  rw [inEvidence_get hq, inEvidence_get (h.distinct hq), h.inEvidence_iff, h.causes.mem_iff]

theorem Reordered.disposeRelease_eq (h : Reordered q q') (hq : Distinct q) (release : SuspensionRelease) :
    disposeRelease R q' (inEvidence R q') release = disposeRelease R q (inEvidence R q) release := by
  have hrecord : disposeRecord R q' release = disposeRecord R q release := by
    rw [disposeRecord, disposeRecord, h.delegationId, h.atInstant]
  have heach : ∀ ids, disposeEach R (inEvidence R q') release ids = disposeEach R (inEvidence R q) release ids := by
    intro ids
    induction ids with
    | nil => rfl
    | cons id rest ih => rw [disposeEach, disposeEach, ih, disposeNamed, disposeNamed, h.inEvidence_get_eq hq]
  rw [disposeRelease, disposeRelease, hrecord, heach]

theorem Reordered.pauseSets (h : Reordered q q') (hq : Distinct q) (hs : PauseCauses.pauseSets R q = .ok s) :
    ∃ s', PauseCauses.pauseSets R q' = .ok s' ∧ s'.remaining = s.remaining ∧
      s'.unresolved.length = s.unresolved.length := by
  have hdescribes := pauseSets_describes hq hs
  obtain ⟨ds, hds, -⟩ := bind_eq_ok.mp hs
  obtain ⟨ds', hforall, -⟩ := List.perm_comp_forall₂ h.releases.symm (disposeReleases_ok.mp hds)
  have hds' : disposeReleases R q' (inEvidence R q') q'.releases = .ok ds' := by
    refine disposeReleases_ok.mpr (hforall.imp ?_)
    intro release d hd
    rw [h.disposeRelease_eq hq]
    exact hd
  obtain ⟨s', hs'⟩ : ∃ s', PauseCauses.pauseSets R q' = .ok s' := ⟨_, bind_eq_ok.mpr ⟨ds', hds', rfl⟩⟩
  have hdescribes' := pauseSets_describes (h.distinct hq) hs'
  refine ⟨s', hs', ?_, ?_⟩
  · refine remaining_eq hq hdescribes hdescribes' ?_
    intro cause
    rw [h.holds_iff, h.causes.mem_iff]
  · refine List.Perm.length_eq ((List.perm_ext_iff_of_nodup hdescribes'.unresolvedNodup hdescribes.unresolvedNodup).mpr ?_)
    intro id
    rw [hdescribes.unresolved, hdescribes'.unresolved]
    simp only [h.holds_iff, h.answered_iff, h.causes.mem_iff, h.releases.mem_iff]

theorem Reordered.entries_length (h : Reordered q q') (hq : Distinct q) :
    (inEvidence R q').entries.length = (inEvidence R q).entries.length := by
  apply List.Perm.length_eq
  rw [List.perm_ext_iff_of_nodup (inEvidence R q').distinct.of_map (inEvidence R q).distinct.of_map]
  intro entry
  rw [OrderedMap.mem_entries, OrderedMap.mem_entries, h.inEvidence_get_eq hq]

theorem Reordered.pauseState_eq (h : Reordered q q') (hq : Distinct q) (hremaining : s'.remaining = s.remaining)
    (hunresolved : s'.unresolved.length = s.unresolved.length) : pauseState R q' s' = pauseState R q s := by
  rw [pauseState, pauseState, hremaining, hunresolved, h.entries_length hq, h.causes.length_eq]

theorem explain_ok {e : PauseStateExplanation} (h : explain R q s = .ok e) : pauseState R q s = .ok e.state ∧
    e.outstanding = e.state.outstanding.getD [] ∧ e.causes = q.causes.map (finalCause R q s.releasedBy) := by
  unfold explain at h
  split at h
  · cases h
  · rename_i state hstate
    cases h
    exact ⟨hstate, rfl, rfl⟩

theorem explain_of_state {state : LifecycleStateResult} (h : pauseState R q s = .ok state) :
    ∃ e, explain R q s = .ok e ∧ e.state = state ∧ e.outstanding = state.outstanding.getD [] := by
  unfold explain
  rw [h]
  exact ⟨_, rfl, rfl, rfl⟩

theorem pauseState_verdict {state : LifecycleStateResult} (h : pauseState R q s = .ok state) :
    (s.unresolved ≠ [] ∧ state.verdict = .not_established ∧ state.outstanding.getD [] = []) ∨
    (s.unresolved = [] ∧ s.remaining = [] ∧ state.verdict = .valid ∧ state.outstanding.getD [] = []) ∨
    (s.unresolved = [] ∧ s.remaining ≠ [] ∧ state.outstanding.getD [] = s.remaining.map outstandingOf ∧
      state.verdict = if s.remaining.any (fun cause => cause.kind = .suspension) then .suspended else .restricted) := by
  unfold pauseState at h
  split at h
  · rename_i hunresolved
    rw [lifecycleState_ok h]
    exact .inl ⟨List.ne_nil_of_length_pos hunresolved, rfl, rfl⟩
  · rename_i hunresolved
    have hnil : s.unresolved = [] := List.eq_nil_of_length_eq_zero (by omega)
    split at h
    · rename_i hremaining
      rw [lifecycleState_ok h]
      exact .inr (.inl ⟨hnil, List.eq_nil_of_length_eq_zero hremaining, rfl, rfl⟩)
    · rename_i hremaining
      rw [lifecycleState_ok h]
      refine .inr (.inr ⟨hnil, ?_, rfl, rfl⟩)
      intro hempty
      exact hremaining (by rw [hempty]; rfl)

theorem finalCause_iff (h : Describes R q s) (hcause : cause ∈ q.causes) :
    (finalCause R q s.releasedBy cause).disposition = .CAUSE_IN_EVIDENCE ↔ Holds R q cause := by
  have hreleased := h.released cause hcause
  unfold finalCause
  split
  · rename_i releaseId hevidence hget
    rw [hget] at hreleased
    constructor
    · intro hcode
      cases hcode
    · intro hholds
      exact absurd hholds ((hreleased (disposeCause_iff.mp hevidence)).mp rfl)
  · rename_i hother
    show disposeCause R q cause = .CAUSE_IN_EVIDENCE ↔ Holds R q cause
    constructor
    · intro hcode
      have hevidence := disposeCause_iff.mp hcode
      by_contra hnot
      obtain ⟨releaseId, hget⟩ := Option.isSome_iff_exists.mp ((hreleased hevidence).mpr hnot)
      exact hother releaseId hcode hget
    · intro hholds
      exact disposeCause_iff.mpr hholds.1

variable {value : JsValue}

variable {α β : Type} {code : SuspensionCauseCode} {place place' : Str}

/-- What the first computation returns, the second returns as well. -/
def Keeps (x x' : Except PauseError α) : Prop := ∀ a, x = .ok a → x' = .ok a

theorem Keeps.refl (x : Except PauseError α) : Keeps x x := fun _ h => h

theorem Keeps.bind {x x' : Except PauseError α} {f f' : α → Except PauseError β} (hx : Keeps x x')
    (hf : ∀ a, Keeps (f a) (f' a)) : Keeps (x >>= f) (x' >>= f') := by
  intro b h
  obtain ⟨a, ha, h⟩ := bind_eq_ok.mp h
  exact bind_eq_ok.mpr ⟨a, hx a ha, hf a b h⟩

theorem requireText_place : Keeps (requireText code place value) (requireText code place' value) := by
  intro text h
  unfold requireText at h ⊢
  split at h
  · exact h
  · cases h

theorem pauseKind_place : Keeps (pauseKind place value) (pauseKind place' value) := by
  intro kind h
  unfold pauseKind at h ⊢
  split at h
  · split at h
    · rename_i hs
      rw [if_pos hs]
      exact h
    · rename_i hnot
      rw [if_neg hnot]
      split at h
      · rename_i hs
        rw [if_pos hs]
        exact h
      · cases h
  · cases h

theorem requireRecord_place : Keeps (requireRecord code place value) (requireRecord code place' value) := by
  intro _ h
  unfold requireRecord at h ⊢
  split at h
  · rename_i hobject
    rw [if_pos hobject]
    rfl
  · cases h

theorem causeIds_place {items : List JsValue} {i j : Nat} : Keeps (causeIds place i items) (causeIds place' j items) := by
  induction items generalizing i j with
  | nil => exact .refl _
  | cons value rest ih => exact .bind requireText_place (fun _ => .bind ih (fun _ => .refl _))

theorem readCauseIds_place : Keeps (readCauseIds place value) (readCauseIds place' value) := by
  intro ids h
  unfold readCauseIds at h ⊢
  split at h
  · exact causeIds_place ids h
  · cases h

/-- Where a record stands among the others is only told in its errors. -/
def IndexFree (check : JsValue → Nat → Except PauseError α) : Prop :=
  ∀ record i j, Keeps (check record i) (check record j)

theorem assertCauseShape_index : IndexFree assertCauseShape := by
  intro record i j
  refine .bind requireRecord_place (fun _ => ?_)
  iterate 8 refine .bind requireText_place (fun _ => ?_)
  exact .bind pauseKind_place (fun _ => .refl _)

theorem assertReleaseShape_index : IndexFree assertReleaseShape := by
  intro record i j
  refine .bind requireRecord_place (fun _ => ?_)
  iterate 7 refine .bind requireText_place (fun _ => ?_)
  exact .bind readCauseIds_place (fun _ => .refl _)

section
variable {α : Type} {check : JsValue → Nat → Except PauseError α}

theorem assertShapes_ok (hcheck : IndexFree check)
    {records : List JsValue} : ∀ {i : Nat} {xs : List α}, assertShapes check i records = .ok xs ↔
      List.Forall₂ (fun record x => check record 0 = .ok x) records xs := by
  induction records with
  | nil =>
    intro i xs
    rw [assertShapes, List.forall₂_nil_left_iff]
    constructor
    · intro h
      cases h
      rfl
    · intro h
      rw [h]
      rfl
  | cons record rest ih =>
    intro i xs
    rw [assertShapes, List.forall₂_cons_left_iff]
    constructor
    · intro h
      obtain ⟨first, hfirst, h⟩ := bind_eq_ok.mp h
      obtain ⟨others, hothers, h⟩ := bind_eq_ok.mp h
      cases h
      exact ⟨first, others, hcheck _ _ _ _ hfirst, ih.mp hothers, rfl⟩
    · intro h
      obtain ⟨first, others, hfirst, hothers, rfl⟩ := h
      exact bind_eq_ok.mpr ⟨first, hcheck _ _ _ _ hfirst, bind_eq_ok.mpr ⟨others, ih.mpr hothers, rfl⟩⟩

theorem assertShapes_perm (hcheck : IndexFree check)
    {records records' : List JsValue} (hperm : records.Perm records') {i : Nat} {xs : List α}
    (h : assertShapes check i records = .ok xs) :
    ∃ xs', assertShapes check i records' = .ok xs' ∧ xs.Perm xs' := by
  obtain ⟨xs', hforall, hxs⟩ := List.perm_comp_forall₂ hperm.symm ((assertShapes_ok hcheck).mp h)
  exact ⟨xs', (assertShapes_ok hcheck).mpr hforall, hxs.symm⟩

end

theorem refuseDuplicates_ok {field : Str} : ∀ {seen : List Str},
    refuseDuplicates code field seen ids = .ok () ↔ ids.Nodup ∧ ∀ id ∈ ids, id ∉ seen := by
  induction ids with
  | nil =>
    intro seen
    simp [refuseDuplicates, pure, Except.pure]
  | cons id rest ih =>
    intro seen
    rw [refuseDuplicates, List.nodup_cons, List.forall_mem_cons]
    by_cases hseen : id ∈ seen
    · rw [if_pos hseen]
      constructor
      · intro h
        cases h
      · intro h
        exact absurd hseen h.2.1
    · rw [if_neg hseen, ih]
      constructor
      · intro h
        refine ⟨⟨?_, h.1⟩, hseen, ?_⟩
        · intro hmem
          exact h.2 id hmem List.mem_cons_self
        · intro other hother hmem
          exact h.2 other hother (List.mem_cons_of_mem _ hmem)
      · intro h
        refine ⟨h.1.2, ?_⟩
        intro other hother hmem
        obtain rfl | hmem := List.mem_cons.mp hmem
        · exact h.1.1 hother
        · exact h.2.2 other hother hmem

theorem readArray_ok {place : String} {items : List JsValue} :
    readArray place value = .ok items ↔ value = .arr items := by
  unfold readArray
  split
  · simp [pure, Except.pure]
  · rename_i hnot
    constructor
    · intro h
      cases h
    · intro h
      exact absurd h (hnot items)

/-- The same input with its records in another order. -/
structure Rearranged (input input' : PauseStateInput) : Prop where
  delegationId : input'.delegationId = input.delegationId
  atInstant : input'.atInstant = input.atInstant
  causes : ∃ records records', input.causes = .arr records ∧ input'.causes = .arr records' ∧ records.Perm records'
  releases : ∃ records records', input.releases = .arr records ∧ input'.releases = .arr records' ∧
    records.Perm records'

theorem readInput_ok {input : PauseStateInput} (h : readInput input = .ok q) : Distinct q := by
  obtain ⟨delegationId, hdelegation, h⟩ := bind_eq_ok.mp h
  obtain ⟨atInstant, hinstant, h⟩ := bind_eq_ok.mp h
  obtain ⟨causeRecords, hcauses, h⟩ := bind_eq_ok.mp h
  obtain ⟨releaseRecords, hreleases, h⟩ := bind_eq_ok.mp h
  obtain ⟨causes, hcauseShapes, h⟩ := bind_eq_ok.mp h
  obtain ⟨releases, hreleaseShapes, h⟩ := bind_eq_ok.mp h
  obtain ⟨hcauseIds, h⟩ := bind_unit_eq_ok.mp h
  obtain ⟨hreleaseIds, h⟩ := bind_unit_eq_ok.mp h
  cases h
  exact (refuseDuplicates_ok.mp hcauseIds).1

theorem readInput_rearranged {input input' : PauseStateInput} (h : readInput input = .ok q)
    (hinput : Rearranged input input') : ∃ q', readInput input' = .ok q' ∧ Reordered q q' := by
  obtain ⟨delegationId, hdelegation, h⟩ := bind_eq_ok.mp h
  obtain ⟨atInstant, hinstant, h⟩ := bind_eq_ok.mp h
  obtain ⟨causeRecords, hcauses, h⟩ := bind_eq_ok.mp h
  obtain ⟨releaseRecords, hreleases, h⟩ := bind_eq_ok.mp h
  obtain ⟨causes, hcauseShapes, h⟩ := bind_eq_ok.mp h
  obtain ⟨releases, hreleaseShapes, h⟩ := bind_eq_ok.mp h
  obtain ⟨hcauseIds, h⟩ := bind_unit_eq_ok.mp h
  obtain ⟨hreleaseIds, h⟩ := bind_unit_eq_ok.mp h
  cases h
  obtain ⟨records, causeRecords', hrecords, hcauses', hcausePerm⟩ := hinput.causes
  rw [readArray_ok.mp hcauses, JsValue.arr.injEq] at hrecords
  subst hrecords
  obtain ⟨records, releaseRecords', hrecords, hreleases', hreleasePerm⟩ := hinput.releases
  rw [readArray_ok.mp hreleases, JsValue.arr.injEq] at hrecords
  subst hrecords
  obtain ⟨causes', hcauseShapes', hcausesPerm⟩ := assertShapes_perm assertCauseShape_index hcausePerm hcauseShapes
  obtain ⟨releases', hreleaseShapes', hreleasesPerm⟩ :=
    assertShapes_perm assertReleaseShape_index hreleasePerm hreleaseShapes
  have hcauseIds' : refuseDuplicates .DUPLICATE_CAUSE_ID (lit "cause_id") [] (causes'.map (·.cause_id)) = .ok () :=
    refuseDuplicates_ok.mpr ⟨(hcausesPerm.map _).nodup_iff.mp (refuseDuplicates_ok.mp hcauseIds).1,
      fun _ _ => List.not_mem_nil⟩
  have hreleaseIds' :
      refuseDuplicates .DUPLICATE_RELEASE_ID (lit "release_id") [] (releases'.map (·.release_id)) = .ok () :=
    refuseDuplicates_ok.mpr ⟨(hreleasesPerm.map _).nodup_iff.mp (refuseDuplicates_ok.mp hreleaseIds).1,
      fun _ _ => List.not_mem_nil⟩
  refine ⟨⟨delegationId, atInstant, causes', releases'⟩, ?_, rfl, rfl, hcausesPerm, hreleasesPerm⟩
  rw [← hinput.delegationId] at hdelegation
  rw [← hinput.atInstant] at hinstant
  refine bind_eq_ok.mpr ⟨_, hdelegation, bind_eq_ok.mpr ⟨_, hinstant, ?_⟩⟩
  refine bind_eq_ok.mpr ⟨_, readArray_ok.mpr hcauses', bind_eq_ok.mpr ⟨_, readArray_ok.mpr hreleases', ?_⟩⟩
  refine bind_eq_ok.mpr ⟨_, hcauseShapes', bind_eq_ok.mpr ⟨_, hreleaseShapes', ?_⟩⟩
  exact bind_unit_eq_ok.mpr ⟨hcauseIds', bind_unit_eq_ok.mpr ⟨hreleaseIds', rfl⟩⟩

theorem explainPauseState_ok {input : PauseStateInput} {e : PauseStateExplanation} :
    explainPauseState R input = .ok e ↔ ∃ q s, readInput input = .ok q ∧ pauseSets R q = .ok s ∧
      explain R q s = .ok e := by
  rw [explainPauseState, bind_eq_ok]
  refine exists_congr ?_
  intro q
  rw [bind_eq_ok, ← exists_and_left]

/-- A cause is outstanding or unresolved. -/
def Open (s : PauseSets) (cause : SuspensionCause) : Prop :=
  cause ∈ s.remaining ∨ cause.cause_id ∈ s.unresolved

theorem Describes.open_iff (h : Describes R q s) (hq : Distinct q) (hcause : cause ∈ q.causes) :
    Open s cause ↔ Holds R q cause := by
  rw [Open, h.remaining, h.unresolved]
  constructor
  · intro hopen
    obtain ⟨-, hholds⟩ | ⟨other, hother, hid, hholds, -⟩ := hopen
    · exact hholds
    · obtain rfl := List.inj_on_of_nodup_map hq hother hcause hid
      exact hholds
  · intro hholds
    exact .inl ⟨hcause, hholds⟩

theorem Describes.unresolved_nil (h : Describes R q s) (hremaining : s.remaining = []) : s.unresolved = [] := by
  rw [List.eq_nil_iff_forall_not_mem]
  intro id hid
  obtain ⟨cause, hcause, -, hholds, -⟩ := (h.unresolved id).mp hid
  have hmem := (h.remaining cause).mpr ⟨hcause, hholds⟩
  rw [hremaining] at hmem
  cases hmem

theorem Holds.of_releases (h : Holds R q cause) (hdelegation : q'.delegationId = q.delegationId)
    (hinstant : q'.atInstant = q.atInstant)
    (hreleases : ∀ release ∈ q'.releases, release ∈ q.releases ∨ cause.cause_id ∉ release.cause_ids) :
    Holds R q' cause := by
  obtain ⟨hevidence, hnone⟩ := h
  refine ⟨⟨hdelegation ▸ hevidence.delegation, hevidence.type, hinstant ▸ hevidence.issued, hevidence.signed,
    hevidence.bound⟩, ?_⟩
  intro release hrelease hanswered
  obtain hold | hunnamed := hreleases release hrelease
  · have hsame : ReleaseInEvidence R q release :=
      ⟨hdelegation ▸ hanswered.evidence.delegation, hanswered.evidence.type, hanswered.evidence.signed,
        hanswered.evidence.bound, hinstant ▸ hanswered.evidence.issued⟩
    exact hnone release hold ⟨hsame, hanswered.names, hanswered.notBefore, hanswered.answer⟩
  · exact hunnamed hanswered.names

/-- The pause state is a fold over sets. No order of the records changes it; whether a cause is outstanding or
unresolved is decided by that cause and the releases that name it; and the verdict is read off the two sets. -/
theorem pause_state_fold {input : PauseStateInput} {e : PauseStateExplanation}
    (he : explainPauseState R input = .ok e) :
    ∃ q s, readInput input = .ok q ∧ pauseSets R q = .ok s ∧
      (∀ input', Rearranged input input' → ∃ e', explainPauseState R input' = .ok e' ∧
        e'.state.verdict = e.state.verdict ∧ e'.state.reason_code = e.state.reason_code ∧
        e'.outstanding = e.outstanding) ∧
      (∀ cause ∈ q.causes,
        (Open s cause ↔ InEvidence R q cause ∧ ¬ ∃ release ∈ q.releases, ReleaseInEvidence R q release ∧
          cause.cause_id ∈ release.cause_ids ∧ ¬ release.issued_at < cause.issued_at ∧
          resolveStanding R release cause = .ok .has_standing) ∧
        (Open s cause ↔ (finalCause R q s.releasedBy cause).disposition = .CAUSE_IN_EVIDENCE)) ∧
      e.causes = q.causes.map (finalCause R q s.releasedBy) ∧
      (∀ input' q' s', readInput input' = .ok q' → pauseSets R q' = .ok s' → q'.delegationId = q.delegationId →
        q'.atInstant = q.atInstant → q'.causes = q.causes → ∀ cause ∈ q.causes,
        (∀ release ∈ q'.releases, release ∈ q.releases ∨ cause.cause_id ∉ release.cause_ids) →
        Open s cause → Open s' cause) ∧
      (e.state.verdict = .valid ↔ ∀ cause ∈ q.causes, ¬ Open s cause) ∧
      (s.unresolved = [] → (∃ cause ∈ s.remaining, cause.kind = .suspension) → e.state.verdict = .suspended) ∧
      e.outstanding = if s.unresolved = [] then s.remaining.map outstandingOf else [] := by
  obtain ⟨q, s, hq, hs, hexplain⟩ := explainPauseState_ok.mp he
  have hdistinct := readInput_ok hq
  have hdescribes := pauseSets_describes hdistinct hs
  obtain ⟨hstate, houtstanding, hcauses⟩ := explain_ok hexplain
  have hverdict := pauseState_verdict hstate
  refine ⟨q, s, hq, hs, ?_, ?_, hcauses, ?_, ?_, ?_, ?_⟩
  · intro input' hinput
    obtain ⟨q', hq', hreordered⟩ := readInput_rearranged hq hinput
    obtain ⟨s', hs', hremaining, hunresolved⟩ := hreordered.pauseSets hdistinct hs
    have hstate' : pauseState R q' s' = .ok e.state := by
      rw [hreordered.pauseState_eq hdistinct hremaining hunresolved, hstate]
    obtain ⟨e', he', hsame, hlist⟩ := explain_of_state hstate'
    refine ⟨e', explainPauseState_ok.mpr ⟨q', s', hq', hs', he'⟩, ?_, ?_, ?_⟩
    · rw [hsame]
    · rw [hsame]
    · rw [hlist, houtstanding]
  · intro cause hcause
    rw [hdescribes.open_iff hdistinct hcause, finalCause_iff hdescribes hcause]
    refine ⟨and_congr_right ?_, Iff.rfl⟩
    intro _
    constructor
    · intro hnone hcleared
      obtain ⟨release, hrelease, hevidence, hnames, hbefore, hstanding⟩ := hcleared
      exact hnone release hrelease ⟨hevidence, hnames, hbefore, hstanding⟩
    · intro hnone release hrelease hanswered
      exact hnone ⟨release, hrelease, hanswered.evidence, hanswered.names, hanswered.notBefore, hanswered.answer⟩
  · intro input' q' s' hq' hs' hdelegation hinstant hsame cause hcause hreleases hopen
    have hdistinct' := readInput_ok hq'
    have hholds := (hdescribes.open_iff hdistinct hcause).mp hopen
    exact ((pauseSets_describes hdistinct' hs').open_iff hdistinct' (hsame ▸ hcause)).mpr
      (hholds.of_releases hdelegation hinstant hreleases)
  · have hopen : (∀ cause ∈ q.causes, ¬ Open s cause) ↔ s.remaining = [] := by
      rw [List.eq_nil_iff_forall_not_mem]
      constructor
      · intro hnone cause hmem
        exact hnone cause ((hdescribes.remaining cause).mp hmem).1 (.inl hmem)
      · intro hnone cause hcause hmem
        exact hnone cause ((hdescribes.remaining cause).mpr
          ⟨hcause, (hdescribes.open_iff hdistinct hcause).mp hmem⟩)
    rw [hopen]
    obtain ⟨hunresolved, hv, -⟩ | ⟨-, hremaining, hv, -⟩ | ⟨-, hremaining, -, hv⟩ := hverdict
    · rw [hv]
      constructor
      · intro h
        cases h
      · intro hremaining
        exact absurd (hdescribes.unresolved_nil hremaining) hunresolved
    · exact ⟨fun _ => hremaining, fun _ => hv⟩
    · rw [hv]
      constructor
      · intro h
        split at h
        · cases h
        · cases h
      · intro h
        exact absurd h hremaining
  · intro hunresolved hsuspension
    obtain ⟨cause, hmem, hkind⟩ := hsuspension
    obtain ⟨hsome, -⟩ | ⟨-, hremaining, -⟩ | ⟨-, -, -, hv⟩ := hverdict
    · exact absurd hunresolved hsome
    · rw [hremaining] at hmem
      cases hmem
    · rw [hv, if_pos]
      exact List.any_eq_true.mpr ⟨cause, hmem, by simpa using hkind⟩
  · rw [houtstanding]
    obtain ⟨hsome, -, hlist⟩ | ⟨hnil, hremaining, -, hlist⟩ | ⟨hnil, -, hlist, -⟩ := hverdict
    · rw [hlist, if_neg hsome]
    · rw [hlist, if_pos hnil, hremaining]
      rfl
    · rw [hlist, if_pos hnil]

def sampleKey : Str := lit "8a88e3dd7409f195fd52db2d3cba5d72ca6709bf1d94121bf3748801b40f6f5c"

def suspensionText : Str := lit (
    "\x7b\"cause_id\":\"c1\",\"delegation_id\":\"d\",\"imposed_by\":\"did:a\",\"issued_at\":\"2026-01-01\",\"kind\":" ++
    "\"suspension\",\"reason_code\":\"AUDIT\",\"record_type\":\"proposed:aps:suspension-cause:v0\",\"verif" ++
    "ication_method\":\"did:a#k\"\x7d")

def suspensionSignature : Str := lit (
    "125a820c1c09d5af2fb92ab13e543aabce0057d0b909bef0f1c2f1a2e4532bcd" ++
    "4d64c27ba5b7f1efdc9a9dbf0ac6f7a62a66660648f40abb1162888d48250805")

def restrictionText : Str := lit (
    "\x7b\"cause_id\":\"c2\",\"delegation_id\":\"d\",\"imposed_by\":\"did:a\",\"issued_at\":\"2026-01-02\",\"kind\":" ++
    "\"restriction\",\"reason_code\":\"LIMIT\",\"record_type\":\"proposed:aps:suspension-cause:v0\",\"veri" ++
    "fication_method\":\"did:a#k\"\x7d")

def restrictionSignature : Str := lit (
    "3bd41f307c92ca1aef4fadbe249a452900d41c7fc0a296161271b1f57228a6d2" ++
    "2d50e433dd3ea0c91939a80a6c969fbfa6e8d6fc3ad9045e378deb16cd406a0e")

def releaseText : Str := lit (
    "\x7b\"cause_ids\":[\"c1\"],\"delegation_id\":\"d\",\"issued_at\":\"2026-01-03\",\"issuer\":\"did:a\",\"record_" ++
    "type\":\"proposed:aps:cause-release:v0\",\"release_id\":\"r1\",\"verification_method\":\"did:a#k\"\x7d")

def releaseSignature : Str := lit (
    "f34dd5884ff16fc77df663484e61c7117c6648caef2f0d000d1dcd5297b02128" ++
    "e0b03556f056e9d0770b26c8abc233b3359150ee49fa7b7288bb7abe8eec7d0c")

/-- Ed25519 on the three signed records; the imposer has standing over every cause. -/
def sampleResolvers : Resolvers where
  resolveReleaseStanding _ _ := .ok (.str (lit "has_standing"))
  resolveVerificationKey _ _ := .ok (.str sampleKey)
  numText _ := []
  verifyEd25519 message signature publicKey := publicKey = sampleKey &&
    ((message = suspensionText && signature = suspensionSignature) ||
      (message = restrictionText && signature = restrictionSignature) ||
      (message = releaseText && signature = releaseSignature))

def sampleCause (id issued_at reason kind : String) (signature : Str) : JsValue :=
  .obj [(lit "record_type", .str SUSPENSION_CAUSE_TYPE), (lit "cause_id", .str (lit id)),
    (lit "delegation_id", .str (lit "d")), (lit "imposed_by", .str (lit "did:a")),
    (lit "issued_at", .str (lit issued_at)), (lit "reason_code", .str (lit reason)),
    (lit "verification_method", .str (lit "did:a#k")), (lit "kind", .str (lit kind)),
    (lit "signature", .str signature)]

def sampleRelease : JsValue :=
  .obj [(lit "record_type", .str SUSPENSION_RELEASE_TYPE), (lit "release_id", .str (lit "r1")),
    (lit "delegation_id", .str (lit "d")), (lit "issuer", .str (lit "did:a")),
    (lit "issued_at", .str (lit "2026-01-03")), (lit "verification_method", .str (lit "did:a#k")),
    (lit "cause_ids", .arr [.str (lit "c1")]), (lit "signature", .str releaseSignature)]

def sampleCauses : List JsValue :=
  [sampleCause "c1" "2026-01-01" "AUDIT" "suspension" suspensionSignature,
    sampleCause "c2" "2026-01-02" "LIMIT" "restriction" restrictionSignature]

def sampleInput (causes : List JsValue) : PauseStateInput :=
  ⟨.str (lit "d"), .arr causes, .arr [sampleRelease], .str (lit "2026-01-04")⟩

/-- A suspension that was released and a restriction that was not; the other order says the same. -/
theorem pause_state_fold_restricted :
    ∃ e, explainPauseState sampleResolvers (sampleInput sampleCauses) = .ok e ∧ e.state.verdict = .restricted ∧
      e.outstanding = [⟨lit "c2", lit "restriction", lit "LIMIT"⟩] ∧
      ∃ e', explainPauseState sampleResolvers (sampleInput sampleCauses.reverse) = .ok e' ∧
        e'.state.verdict = .restricted ∧ e'.outstanding = e.outstanding := by
  have hreturns : (explainPauseState sampleResolvers (sampleInput sampleCauses)).toOption.map
      (fun e => (e.state.verdict, e.outstanding)) =
      some (.restricted, [⟨lit "c2", lit "restriction", lit "LIMIT"⟩]) := by
    rw [sampleInput, sampleCauses, sampleCause, sampleCause, sampleRelease, sampleResolvers, sampleKey, suspensionText,
      suspensionSignature, restrictionText, restrictionSignature, releaseText, releaseSignature]
    repeat rw [lit_append]
    repeat rw [lit_ofList]
    decide +kernel
  obtain ⟨e, he, hfields⟩ := exists_ok_of_map hreturns
  obtain ⟨hverdict, houtstanding⟩ := Prod.mk.inj hfields
  have hrearranged : Rearranged (sampleInput sampleCauses) (sampleInput sampleCauses.reverse) :=
    ⟨rfl, rfl, ⟨_, _, rfl, rfl, (List.reverse_perm _).symm⟩, ⟨_, _, rfl, rfl, List.Perm.refl _⟩⟩
  obtain ⟨q, s, -, -, horder, -⟩ := pause_state_fold he
  obtain ⟨e', he', hverdict', -, houtstanding'⟩ := horder _ hrearranged
  exact ⟨e, he, hverdict, houtstanding, e', he', hverdict'.trans hverdict, houtstanding'⟩

end AgentPassport.PauseState
