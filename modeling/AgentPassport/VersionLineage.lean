import AgentPassport.DelegationChain
import AgentPassport.DelegationVersions
import AgentPassport.MapLoops
import AgentPassport.Rfc3339

/-! The law of a supersession lineage: at most one active version, and none once the newest
version is revoked. It holds of every run in which no superseded version is superseded again;
`supersedeV2Delegation` itself only refuses a revoked original. -/
namespace AgentPassport.VersionLineage
open JsText Js Outcome LinkedVersions DelegationVersions
open Relation (EqvGen)

/-- A stored version names another as the one it supersedes. -/
def Supersedes (s : DelegationStore) (child parent : Str) : Prop :=
  ∃ d, s.get child = some d ∧ d.supersedes = some parent

/-- Connected by supersedes links. -/
def SameLineage (s : DelegationStore) (a b : Str) : Prop := EqvGen (Supersedes s) a b

def HasStatus (s : DelegationStore) (id : Str) (status : V2DelegationStatus) : Prop :=
  ∃ d, s.get id = some d ∧ d.status = status

def IsNewest (s : DelegationStore) (id : Str) : Prop :=
  ∃ d, s.get id = some d ∧ ∀ id' d', s.get id' = some d' → SameLineage s id id' → d'.version ≤ d.version

/-- In every state a run reaches a lineage has at most one active version, and from a state
where its newest version is revoked on it has none. -/
def LineageLaw (R : Runtime) (calls : List Call) : Prop :=
  (∀ before later, calls = before ++ later → ∀ a b, SameLineage (run R before) a b →
    HasStatus (run R before) a .active → HasStatus (run R before) b .active → a = b) ∧
  (∀ before between later, calls = before ++ between ++ later → ∀ newest, IsNewest (run R before) newest →
    HasStatus (run R before) newest .revoked → ∀ b, SameLineage (run R (before ++ between)) newest b →
    ¬ HasStatus (run R (before ++ between)) b .active)

/-- The identifiers `uuidv4` gives in a run are distinct. -/
def DistinctIds (calls : List Call) : Prop := (calls.filterMap Call.uuid?).Nodup

/-- The call asks, with every other check passed, to supersede a version that is superseded. -/
def supersedesAgain (s : DelegationStore) : Call → Bool
  | .supersede _ params => (s.get params.original_delegation_id).any fun original =>
      original.status = .superseded && (checkSupersession original params).isOk
  | .renew _ params => (s.get params.original_delegation_id).any fun original =>
      original.status = .superseded && !isBlank params.renewal_reason
  | _ => false

/-- The statuses of a version whose time has passed. -/
def Aged (d d' : V2Delegation) : Prop :=
  d' = { d with status := d'.status } ∧
    (d'.status = d.status ∨ d.status = .active ∧ (d'.status = .grace_period ∨ d'.status = .expired))

/-- Everything a call can do. -/
inductive Effect (s : DelegationStore) (uuid : Option Str) : DelegationStore → Prop
  | nothing : Effect s uuid s
  | created {d : V2Delegation} (id : uuid = some d.id) (first : d.supersedes = none) : Effect s uuid (s.set d.id d)
  | superseded {k : Str} {original d : V2Delegation} (stored : s.get k = some original)
      (live : original.status ≠ .revoked ∧ original.status ≠ .superseded) (id : uuid = some d.id)
      (version : d.version = original.version + 1) (link : d.supersedes = some original.id) :
      Effect s uuid ((s.set original.id { original with status := .superseded }).set d.id d)
  | revoked {k : Str} {d : V2Delegation} (stored : s.get k = some d) :
      Effect s uuid (s.set k { d with status := .revoked })
  | aged {s' : DelegationStore} (none : ∀ k, s.get k = none → s'.get k = none)
      (some : ∀ k d, s.get k = some d → ∃ d', s'.get k = some d' ∧ Aged d d') : Effect s uuid s'

variable {R : Runtime}

variable {d : V2Delegation}

theorem create_effect {s s' : DelegationStore} {uuid : Str} {params : CreateV2DelegationParams}
    (h : createV2Delegation R s uuid params = .ok (d, s')) : Effect s (some uuid) s' := by
  rw [createV2Delegation] at h
  obtain ⟨signature, -, h⟩ := bind_eq_ok.mp h
  cases h
  exact .created rfl rfl

theorem supersede_effect {s s' : DelegationStore} {uuid : Str} {params : SupersedeV2DelegationParams}
    (h : supersedeV2Delegation R s uuid params = .ok (d, s'))
    (hagain : ∀ original, s.get params.original_delegation_id = some original → checkSupersession original params = .ok () → original.status ≠ .superseded) :
    Effect s (some uuid) s' := by
  rw [supersedeV2Delegation] at h
  split at h
  · cases h
  rename_i original horiginal
  split at h
  · cases h
  rename_i hrevoked
  obtain ⟨hcheck, h⟩ := bind_unit_eq_ok.mp h
  obtain ⟨signature, -, h⟩ := bind_eq_ok.mp h
  obtain ⟨review, -, h⟩ := bind_eq_ok.mp h
  cases h
  exact .superseded horiginal ⟨hrevoked, hagain original horiginal hcheck⟩ rfl rfl rfl

theorem renew_effect {s s' : DelegationStore} {uuid : Str} {params : RenewV2DelegationParams}
    (h : renewV2Delegation R s uuid params = .ok (d, s'))
    (hagain : ∀ original, s.get params.original_delegation_id = some original → isBlank params.renewal_reason = false → original.status ≠ .superseded) :
    Effect s (some uuid) s' := by
  rw [renewV2Delegation] at h
  split at h
  · cases h
  rename_i hblank
  split at h
  · cases h
  · rename_i original horiginal
    refine supersede_effect h ?_
    intro original' horiginal' _
    exact hagain original' horiginal' (Bool.eq_false_iff.mpr hblank)

variable {uuid : Option Str}

variable {id : Str}

theorem revoke_effect {s s' : DelegationStore} (h : revokeV2Delegation s id = .ok (d, s')) : Effect s uuid s' := by
  rw [revokeV2Delegation] at h
  split at h
  · cases h
  · rename_i d hd
    cases h
    exact .revoked hd

theorem validate_none {now : JsNumber} (h : validateV2Delegation R d now = .ok none) : d.status ≠ .superseded := by
  rw [validateV2Delegation] at h
  split at h
  · cases h
  split at h
  · cases h
  · rename_i hsuperseded
    exact hsuperseded

theorem refresh_effect {s s' : DelegationStore} {uuid : Str} {params : RefreshParams} {outcome : RefreshOutcome}
    (hkeyed : ∀ k d, s.get k = some d → d.id = k)
    (h : refreshDelegation R s uuid params = .ok (outcome, s')) : Effect s (some uuid) s' := by
  rw [refreshDelegation] at h
  split at h
  · cases h
    exact .nothing
  rename_i original horiginal
  split at h
  · cases h
    exact .nothing
  obtain ⟨reason, hreason, h⟩ := bind_eq_ok.mp h
  split at h
  · cases h
    exact .nothing
  · cases h
    exact .nothing
  · cases h
    exact .nothing
  · obtain ⟨reissued, hrenew, h⟩ := bind_eq_ok.mp h
    cases h
    refine renew_effect hrenew ?_
    intro original' horiginal' _
    have hid : original.id = params.token_delegation_id := hkeyed _ _ horiginal
    have heq : original' = original := by
      have hget : s.get original.id = some original := hid ▸ horiginal
      exact Option.some.inj (horiginal'.symm.trans hget)
    exact heq ▸ validate_none hreason

theorem Aged.refl (d : V2Delegation) : Aged d d := ⟨rfl, .inl rfl⟩

theorem expireOne_aged (gracePeriodMs now : JsNumber) (expired graced : List Str) {s : DelegationStore}
    (hd : s.get id = some d) :
    ∃ d', Aged d d' ∧ (∀ k, (expireOne R gracePeriodMs now (s, expired, graced) (id, d)).1.get k =
      if k = id then some d' else s.get k) := by
  have hkeep : ∀ k, s.get k = if k = id then some d else s.get k := by
    intro k
    split
    · rename_i hk
      rw [hk, hd]
    · rfl
  have hset : ∀ (d' : V2Delegation) (k : Str), (s.set id d').get k = if k = id then some d' else s.get k := by
    intro d' k
    rw [OrderedMap.get_set]
    by_cases hk : k = id
    · rw [if_pos hk, if_pos hk.symm]
    · rw [if_neg hk, if_neg (Ne.symm hk)]
  unfold expireOne
  simp only
  split
  · exact ⟨d, Aged.refl d, hkeep⟩
  rename_i hactive
  split
  · split
    · exact ⟨{ d with status := .grace_period }, ⟨rfl, .inr ⟨not_not.mp hactive, .inl rfl⟩⟩, hset _⟩
    · exact ⟨{ d with status := .expired }, ⟨rfl, .inr ⟨not_not.mp hactive, .inr rfl⟩⟩, hset _⟩
  · exact ⟨d, Aged.refl d, hkeep⟩

theorem expire_fold (gracePeriodMs now : JsNumber) (entries : List (Str × V2Delegation)) :
    ∀ (s : DelegationStore) (expired graced : List Str), (entries.map Prod.fst).Nodup →
      (∀ e ∈ entries, s.get e.1 = some e.2) →
      ∀ k, (k ∉ entries.map Prod.fst →
          (entries.foldl (expireOne R gracePeriodMs now) (s, expired, graced)).1.get k = s.get k) ∧
        (∀ d, (k, d) ∈ entries →
          ∃ d', (entries.foldl (expireOne R gracePeriodMs now) (s, expired, graced)).1.get k = some d' ∧
            Aged d d') := by
  induction entries with
  | nil =>
    intro s expired graced _ _ k
    exact ⟨fun _ => rfl, fun d hd => by cases hd⟩
  | cons entry rest ih =>
    intro s expired graced hnodup hentries k
    obtain ⟨id, d⟩ := entry
    obtain ⟨hfresh, hrest⟩ := List.nodup_cons.mp hnodup
    obtain ⟨d', haged, hget⟩ := expireOne_aged (R := R) gracePeriodMs now expired graced
      (hentries _ List.mem_cons_self)
    rcases hacc : expireOne R gracePeriodMs now (s, expired, graced) (id, d) with ⟨s₁, expired₁, graced₁⟩
    rw [hacc] at hget
    have hrest_get : ∀ e ∈ rest, s₁.get e.1 = some e.2 := by
      intro e he
      rw [hget, if_neg, hentries e (List.mem_cons_of_mem _ he)]
      intro heq
      exact hfresh (heq ▸ List.mem_map_of_mem he)
    obtain ⟨hout, hin⟩ := ih s₁ expired₁ graced₁ hrest hrest_get k
    rw [List.foldl_cons, hacc]
    constructor
    · intro hk
      obtain ⟨hne, hk⟩ := not_or.mp (fun h => hk (List.mem_cons.mpr h))
      rw [hout hk, hget, if_neg hne]
    · intro d₁ hd₁
      obtain heq | hd₁ := List.mem_cons.mp hd₁
      · cases heq
        exact ⟨d', by rw [hout hfresh, hget, if_pos rfl], haged⟩
      · exact hin d₁ hd₁

theorem expire_effect {s : DelegationStore} (gracePeriodMs now : JsNumber) :
    Effect s uuid (processV2Expirations R s gracePeriodMs now).1 := by
  have hfold := expire_fold (R := R) gracePeriodMs now s.entries s [] [] s.distinct
    (fun e he => OrderedMap.mem_entries.mp he)
  refine .aged ?_ ?_
  · intro k hk
    rw [processV2Expirations, (hfold k).1, hk]
    intro hmem
    obtain ⟨⟨k', d⟩, hentry, rfl⟩ := List.mem_map.mp hmem
    rw [OrderedMap.mem_entries.mp hentry] at hk
    cases hk
  · intro k d hd
    exact (hfold k).2 d (OrderedMap.mem_entries.mpr hd)

theorem step_effect {s : DelegationStore} (hkeyed : ∀ k d, s.get k = some d → d.id = k) {call : Call}
    (hagain : supersedesAgain s call = false) : Effect s call.uuid? (step R s call) := by
  cases call with
  | create uuid params =>
    rw [step]
    cases h : createV2Delegation R s uuid params with
    | error e => exact .nothing
    | ok r => exact create_effect h
  | supersede uuid params =>
    rw [step]
    cases h : supersedeV2Delegation R s uuid params with
    | error e => exact .nothing
    | ok r =>
      refine supersede_effect h fun original horiginal hcheck hstatus => ?_
      simp [supersedesAgain, horiginal, hcheck, hstatus, Except.isOk, Except.toBool] at hagain
  | renew uuid params =>
    rw [step]
    cases h : renewV2Delegation R s uuid params with
    | error e => exact .nothing
    | ok r =>
      refine renew_effect h fun original horiginal hblank hstatus => ?_
      simp [supersedesAgain, horiginal, hblank, hstatus] at hagain
  | refresh uuid params =>
    rw [step]
    cases h : refreshDelegation R s uuid params with
    | error e => exact .nothing
    | ok r => exact refresh_effect hkeyed h
  | revoke id =>
    rw [step]
    cases h : revokeV2Delegation s id with
    | error e => exact .nothing
    | ok r => exact revoke_effect h
  | processExpirations gracePeriodMs now => exact expire_effect gracePeriodMs now

/-- A version is stored under its id; the one it supersedes is stored, one version lower and no
longer live; and no version is superseded by two. -/
structure WellLinked (s : DelegationStore) : Prop where
  keyed : ∀ k d, s.get k = some d → d.id = k
  parent : ∀ k d p, s.get k = some d → d.supersedes = some p →
    ∃ e, s.get p = some e ∧ d.version = e.version + 1 ∧ (e.status = .superseded ∨ e.status = .revoked)
  child : ∀ k k' d d' p, s.get k = some d → s.get k' = some d' → d.supersedes = some p → d'.supersedes = some p →
    k = k'

def Closed (s : DelegationStore) (id : Str) : Prop := HasStatus s id .revoked ∧ ∀ c, ¬ Supersedes s c id

variable {s s' : DelegationStore}

theorem WellLinked.linear (h : WellLinked s) : Linear (Supersedes s) where
  next := by
    rintro a b c ⟨d, hd, hb⟩ ⟨d', hd', hc⟩
    obtain rfl := Option.some.inj (hd.symm.trans hd')
    exact Option.some.inj (hb.symm.trans hc)
  prev := by
    rintro a b c ⟨d, hd, hc⟩ ⟨d', hd', hc'⟩
    exact h.child a b d d' c hd hd' hc hc'

theorem WellLinked.last_of_live (h : WellLinked s) (hd : s.get id = some d)
    (hlive : d.status ≠ .revoked ∧ d.status ≠ .superseded) (c : Str) : ¬ Supersedes s c id := by
  rintro ⟨e, he, hlink⟩
  obtain ⟨d', hd', -, hstatus⟩ := h.parent c e id he hlink
  obtain rfl := Option.some.inj (hd.symm.trans hd')
  obtain hstatus | hstatus := hstatus
  · exact hlive.2 hstatus
  · exact hlive.1 hstatus

theorem WellLinked.last_of_active (h : WellLinked s) (hactive : HasStatus s id .active) (c : Str) :
    ¬ Supersedes s c id := by
  obtain ⟨d, hd, hstatus⟩ := hactive
  exact h.last_of_live hd (by rw [hstatus]; decide) c

theorem WellLinked.active_unique (h : WellLinked s) {a b : Str} (hab : SameLineage s a b)
    (ha : HasStatus s a .active) (hb : HasStatus s b .active) : a = b :=
  last_unique h.linear (h.last_of_active ha) (h.last_of_active hb) hab

theorem WellLinked.none_active (h : WellLinked s) {n b : Str} (hn : Closed s n) (hb : SameLineage s n b) :
    ¬ HasStatus s b .active := by
  intro hactive
  obtain rfl := last_unique h.linear hn.2 (h.last_of_active hactive) hb
  obtain ⟨d, hd, hrevoked⟩ := hn.1
  obtain ⟨d', hd', hstatus⟩ := hactive
  obtain rfl := Option.some.inj (hd.symm.trans hd')
  rw [hrevoked] at hstatus
  cases hstatus

theorem WellLinked.closed_of_newest (h : WellLinked s) {n : Str} (hn : IsNewest s n)
    (hrevoked : HasStatus s n .revoked) : Closed s n := by
  refine ⟨hrevoked, ?_⟩
  rintro c ⟨e, he, hlink⟩
  obtain ⟨d, hd, hmax⟩ := hn
  obtain ⟨d', hd', hversion, -⟩ := h.parent c e n he hlink
  obtain rfl := Option.some.inj (hd.symm.trans hd')
  have hle := hmax c e he (.symm _ _ (.rel _ _ ⟨e, he, hlink⟩))
  omega

theorem WellLinked.of_statuses (h : WellLinked s)
    (hback : ∀ k d', s'.get k = some d' → ∃ d, s.get k = some d ∧ d' = { d with status := d'.status } ∧
      (d'.status = d.status ∨ d'.status = .revoked ∨ d.status ≠ .revoked ∧ d.status ≠ .superseded))
    (hforth : ∀ k d, s.get k = some d → ∃ d', s'.get k = some d') : WellLinked s' where
  keyed := by
    intro k d' hd'
    obtain ⟨d, hd, heq, -⟩ := hback k d' hd'
    rw [heq]
    exact h.keyed k d hd
  parent := by
    intro k d' p hd' hlink
    obtain ⟨d, hd, heq, -⟩ := hback k d' hd'
    rw [heq] at hlink
    obtain ⟨e, he, hversion, hstatus⟩ := h.parent k d p hd hlink
    obtain ⟨e', he'⟩ := hforth p e he
    obtain ⟨e₁, he₁, heq', hchange⟩ := hback p e' he'
    obtain rfl := Option.some.inj (he.symm.trans he₁)
    refine ⟨e', he', ?_, ?_⟩
    · rw [heq, heq']
      exact hversion
    · obtain hsame | hrevoked | hlive := hchange
      · rw [hsame]
        exact hstatus
      · exact .inr hrevoked
      · obtain hstatus | hstatus := hstatus
        · exact absurd hstatus hlive.2
        · exact absurd hstatus hlive.1
  child := by
    intro k k' d d' p hd hd' hlink hlink'
    obtain ⟨e, he, heq, -⟩ := hback k d hd
    obtain ⟨e', he', heq', -⟩ := hback k' d' hd'
    rw [heq] at hlink
    rw [heq'] at hlink'
    exact h.child k k' e e' p he he' hlink hlink'

theorem get_set_cases {k k' : Str} {d d' : V2Delegation} (h : (s.set k d).get k' = some d') :
    k' = k ∧ d' = d ∨ k' ≠ k ∧ s.get k' = some d' := by
  rw [OrderedMap.get_set] at h
  split at h
  · rename_i hk
    exact .inl ⟨hk.symm, (Option.some.inj h).symm⟩
  · rename_i hk
    exact .inr ⟨Ne.symm hk, h⟩

theorem WellLinked.add (h : WellLinked s) {d : V2Delegation} (hfresh : s.get d.id = none)
    (hparent : ∀ p, d.supersedes = some p → (∃ e, s.get p = some e ∧ d.version = e.version + 1 ∧
      (e.status = .superseded ∨ e.status = .revoked)) ∧ ∀ c, ¬ Supersedes s c p) :
    WellLinked (s.set d.id d) where
  keyed := by
    intro k e he
    obtain ⟨rfl, rfl⟩ | ⟨-, he⟩ := get_set_cases he
    · rfl
    · exact h.keyed k e he
  parent := by
    have hold : ∀ p e, s.get p = some e → (s.set d.id d).get p = some e := by
      intro p e he
      rw [OrderedMap.get_set_ne, he]
      intro heq
      rw [← heq, hfresh] at he
      cases he
    intro k e p he hlink
    obtain ⟨rfl, rfl⟩ | ⟨-, he⟩ := get_set_cases he
    · obtain ⟨⟨f, hf, hversion, hstatus⟩, -⟩ := hparent p hlink
      exact ⟨f, hold p f hf, hversion, hstatus⟩
    · obtain ⟨f, hf, hversion, hstatus⟩ := h.parent k e p he hlink
      exact ⟨f, hold p f hf, hversion, hstatus⟩
  child := by
    intro k k' e e' p he he' hlink hlink'
    obtain ⟨hk, hed⟩ | ⟨-, hold⟩ := get_set_cases he
    · obtain ⟨hk', -⟩ | ⟨-, hold'⟩ := get_set_cases he'
      · exact hk.trans hk'.symm
      · exact absurd ⟨e', hold', hlink'⟩ ((hparent p (hed ▸ hlink)).2 k')
    · obtain ⟨-, hed'⟩ | ⟨-, hold'⟩ := get_set_cases he'
      · exact absurd ⟨e, hold, hlink⟩ ((hparent p (hed' ▸ hlink')).2 k)
      · exact h.child k k' e e' p hold hold' hlink hlink'

theorem WellLinked.set_status (h : WellLinked s) {k : Str} (hd : s.get k = some d) {status : V2DelegationStatus}
    (hstatus : status = .revoked ∨ d.status ≠ .revoked ∧ d.status ≠ .superseded) :
    WellLinked (s.set k { d with status := status }) := by
  refine h.of_statuses ?_ ?_
  · intro k' d' hd'
    obtain ⟨hk, rfl⟩ | ⟨-, hd'⟩ := get_set_cases hd'
    · exact ⟨d, hk ▸ hd, rfl, .inr hstatus⟩
    · exact ⟨d', hd', rfl, .inl rfl⟩
  · intro k' d' hd'
    by_cases hk : k = k'
    · exact ⟨_, by rw [hk, OrderedMap.get_set_self]⟩
    · exact ⟨d', by rw [OrderedMap.get_set_ne _ _ hk, hd']⟩

theorem supersedes_set_status {k : Str} (hd : s.get k = some d) {status : V2DelegationStatus} {a b : Str} :
    Supersedes (s.set k { d with status := status }) a b → Supersedes s a b := by
  rintro ⟨e, he, hlink⟩
  obtain ⟨rfl, rfl⟩ | ⟨-, he⟩ := get_set_cases he
  · exact ⟨d, hd, hlink⟩
  · exact ⟨e, he, hlink⟩

theorem effect_wellLinked (h : WellLinked s) (hfresh : ∀ id, uuid = some id → s.get id = none) (he : Effect s uuid s') :
    WellLinked s' := by
  cases he with
  | nothing => exact h
  | created hid hfirst =>
    refine h.add (hfresh _ hid) ?_
    intro p hp
    rw [hfirst] at hp
    cases hp
  | @superseded k original d hstored hlive hid hversion hlink =>
    have hk : original.id = k := h.keyed k original hstored
    have hstored' : s.get original.id = some original := hk ▸ hstored
    refine (h.set_status hstored' (.inr hlive)).add ?_ ?_
    · rw [OrderedMap.get_set_ne, hfresh d.id hid]
      intro heq
      rw [heq, hfresh d.id hid] at hstored'
      cases hstored'
    · intro p hp
      obtain rfl := Option.some.inj (hlink.symm.trans hp)
      refine ⟨⟨_, OrderedMap.get_set_self _ _ _, hversion, .inl rfl⟩, ?_⟩
      intro c hc
      exact h.last_of_live hstored' hlive c (supersedes_set_status hstored' hc)
  | revoked hstored => exact h.set_status hstored (.inl rfl)
  | aged hnone hsome =>
    refine h.of_statuses ?_ ?_
    · intro k d' hd'
      cases hd : s.get k with
      | none =>
        rw [hnone k hd] at hd'
        cases hd'
      | some d =>
        obtain ⟨d₁, hd₁, heq, hstatus⟩ := hsome k d hd
        obtain rfl := Option.some.inj (hd'.symm.trans hd₁)
        refine ⟨d, rfl, heq, ?_⟩
        obtain hsame | ⟨hactive, -⟩ := hstatus
        · exact .inl hsame
        · exact .inr (.inr (by rw [hactive]; decide))
    · intro k d hd
      obtain ⟨d', hd', -⟩ := hsome k d hd
      exact ⟨d', hd'⟩

theorem effect_closed (h : WellLinked s) (hfresh : ∀ id, uuid = some id → s.get id = none) (he : Effect s uuid s')
    {n : Str} (hn : Closed s n) : Closed s' n := by
  obtain ⟨⟨e, hstored, hrevoked⟩, hlast⟩ := hn
  cases he with
  | nothing => exact ⟨⟨e, hstored, hrevoked⟩, hlast⟩
  | @created d hid hfirst =>
    refine ⟨⟨e, ?_, hrevoked⟩, ?_⟩
    · rw [OrderedMap.get_set_ne, hstored]
      intro heq
      rw [← heq, hfresh _ hid] at hstored
      cases hstored
    · rintro c ⟨f, hf, hlink⟩
      obtain ⟨-, rfl⟩ | ⟨-, hf⟩ := get_set_cases hf
      · rw [hfirst] at hlink
        cases hlink
      · exact hlast c ⟨f, hf, hlink⟩
  | @superseded k original d hk hlive hid hversion hlink =>
    have hstored' : s.get original.id = some original := (h.keyed k original hk).symm ▸ hk
    -- the original is live, so it is not the closed version
    have hne : original.id ≠ n := by
      intro heq
      rw [heq, hstored] at hstored'
      cases hstored'
      exact hlive.1 hrevoked
    refine ⟨⟨e, ?_, hrevoked⟩, ?_⟩
    · rw [OrderedMap.get_set_ne, OrderedMap.get_set_ne _ _ hne, hstored]
      intro heq
      rw [← heq, hfresh _ hid] at hstored
      cases hstored
    · rintro c ⟨f, hf, hlink'⟩
      obtain ⟨-, rfl⟩ | ⟨-, hf⟩ := get_set_cases hf
      · exact hne (Option.some.inj (hlink.symm.trans hlink'))
      · exact hlast c (supersedes_set_status hstored' ⟨f, hf, hlink'⟩)
  | @revoked k d hk =>
    refine ⟨?_, fun c hc => hlast c (supersedes_set_status hk hc)⟩
    by_cases hkn : k = n
    · exact ⟨_, by rw [hkn, OrderedMap.get_set_self], rfl⟩
    · exact ⟨e, by rw [OrderedMap.get_set_ne _ _ hkn, hstored], hrevoked⟩
  | aged hnone hsome =>
    constructor
    · obtain ⟨e', he', -, hstatus⟩ := hsome n e hstored
      refine ⟨e', he', ?_⟩
      obtain hsame | ⟨hactive, -⟩ := hstatus
      · rw [hsame, hrevoked]
      · rw [hrevoked] at hactive
        cases hactive
    · rintro c ⟨f, hf, hlink⟩
      cases hd : s.get c with
      | none =>
        rw [hnone c hd] at hf
        cases hf
      | some d =>
        obtain ⟨d', hd', heq, -⟩ := hsome c d hd
        obtain rfl := Option.some.inj (hf.symm.trans hd')
        rw [heq] at hlink
        exact hlast c ⟨d, hd, hlink⟩

theorem effect_keys (h : WellLinked s) (he : Effect s uuid s') {k : Str} (hd : s'.get k = some d) :
    (∃ e, s.get k = some e) ∨ uuid = some k := by
  cases he with
  | nothing => exact .inl ⟨d, hd⟩
  | created hid =>
    obtain ⟨rfl, -⟩ | ⟨-, hd⟩ := get_set_cases hd
    · exact .inr hid
    · exact .inl ⟨d, hd⟩
  | @superseded k₀ original new hstored _ hid =>
    obtain ⟨rfl, -⟩ | ⟨-, hd⟩ := get_set_cases hd
    · exact .inr hid
    obtain ⟨rfl, -⟩ | ⟨-, hd⟩ := get_set_cases hd
    · exact .inl ⟨original, (h.keyed _ _ hstored).symm ▸ hstored⟩
    · exact .inl ⟨d, hd⟩
  | revoked hstored =>
    obtain ⟨rfl, -⟩ | ⟨-, hd⟩ := get_set_cases hd
    · exact .inl ⟨_, hstored⟩
    · exact .inl ⟨d, hd⟩
  | aged hnone hsome =>
    cases he : s.get k with
    | none =>
      rw [hnone k he] at hd
      cases hd
    | some e => exact .inl ⟨e, rfl⟩

theorem run_snoc (calls : List Call) (call : Call) : run R (calls ++ [call]) = step R (run R calls) call :=
  List.foldl_concat _ _ _ _

/-- The condition on a run: no call supersedes a superseded version again. -/
def NeverAgain (R : Runtime) (calls : List Call) : Prop :=
  ∀ i (h : i < calls.length), supersedesAgain (run R (calls.take i)) calls[i] = false

theorem NeverAgain.front {before later : List Call} (h : NeverAgain R (before ++ later)) : NeverAgain R before := by
  intro i hi
  have hcall := h i (by rw [List.length_append]; omega)
  rwa [List.take_append_of_le_length hi.le, List.getElem_append_left hi] at hcall

theorem NeverAgain.last {calls : List Call} {call : Call} (h : NeverAgain R (calls ++ [call])) :
    supersedesAgain (run R calls) call = false := by
  have hlast := h calls.length (by rw [List.length_append, List.length_singleton]; omega)
  rwa [List.take_left, List.getElem_concat_length rfl] at hlast

theorem distinct_front {before later : List Call} (h : DistinctIds (before ++ later)) : DistinctIds before := by
  rw [DistinctIds, List.filterMap_append, List.nodup_append] at h
  exact h.1

theorem fresh_of_distinct {calls : List Call} {call : Call} (h : DistinctIds (calls ++ [call]))
    (hkeys : ∀ k d, s.get k = some d → k ∈ calls.filterMap Call.uuid?) :
    ∀ id, call.uuid? = some id → s.get id = none := by
  rw [DistinctIds, List.filterMap_append, List.nodup_append] at h
  intro id hid
  cases hd : s.get id with
  | none => rfl
  | some d =>
    refine absurd rfl (h.2.2 id (hkeys id d hd) id ?_)
    rw [List.filterMap_cons, hid]
    exact List.mem_cons_self

theorem run_wellLinked (calls : List Call) (hids : DistinctIds calls) (hagain : NeverAgain R calls) :
    WellLinked (run R calls) ∧ ∀ k d, (run R calls).get k = some d → k ∈ calls.filterMap Call.uuid? := by
  induction calls using List.reverseRecOn with
  | nil =>
    refine ⟨⟨?_, ?_, ?_⟩, ?_⟩
    · exact fun k d hd => by cases hd
    · exact fun k d p hd => by cases hd
    · exact fun k k' d d' p hd => by cases hd
    · exact fun k d hd => by cases hd
  | append_singleton calls call ih =>
    obtain ⟨hlinked, hkeys⟩ := ih (distinct_front hids) hagain.front
    have heffect := step_effect (R := R) hlinked.keyed hagain.last
    rw [run_snoc]
    refine ⟨effect_wellLinked hlinked (fresh_of_distinct hids hkeys) heffect, ?_⟩
    intro k d hd
    rw [List.filterMap_append, List.mem_append]
    obtain ⟨e, he⟩ | hid := effect_keys hlinked heffect hd
    · exact .inl (hkeys k e he)
    · refine .inr ?_
      rw [List.filterMap_cons, hid]
      exact List.mem_cons_self

theorem run_closed {before : List Call} {n : Str} (hn : Closed (run R before) n) (between : List Call) :
    DistinctIds (before ++ between) → NeverAgain R (before ++ between) → Closed (run R (before ++ between)) n := by
  induction between using List.reverseRecOn with
  | nil => exact fun _ _ => by rwa [List.append_nil]
  | append_singleton between call ih =>
    rw [← List.append_assoc]
    intro hids hagain
    have hinit := distinct_front hids
    obtain ⟨hlinked, hkeys⟩ := run_wellLinked _ hinit hagain.front
    rw [run_snoc]
    exact effect_closed hlinked (fresh_of_distinct hids hkeys) (step_effect hlinked.keyed hagain.last)
      (ih hinit hagain.front)

/-- Where no call supersedes a superseded version again, every state reached keeps the law. -/
theorem lineage_law (R : Runtime) (calls : List Call) (hids : DistinctIds calls) (hagain : NeverAgain R calls) :
    LineageLaw R calls := by
  constructor
  · intro before later hcalls a b hab ha hb
    rw [hcalls] at hids hagain
    obtain ⟨hlinked, -⟩ := run_wellLinked before (distinct_front hids) hagain.front
    exact hlinked.active_unique hab ha hb
  · intro before between later hcalls newest hnewest hrevoked b hb
    rw [hcalls] at hids hagain
    have hids' := distinct_front hids
    have hagain' := hagain.front
    obtain ⟨hlinked, -⟩ := run_wellLinked before (distinct_front hids') hagain'.front
    obtain ⟨hlinked', -⟩ := run_wellLinked (before ++ between) hids' hagain'
    exact hlinked'.none_active (run_closed (hlinked.closed_of_newest hnewest hrevoked) between hids' hagain') hb

/-! ### Two successors of one version

Digests and signatures are those of SHA-256 and Ed25519 on the three texts, told apart by their
lengths. -/
section Sample
open Rfc3339 CanonicalInjective DelegationChain

def firstId : Str := lit "11111111-1111-4111-8111-111111111111"
def secondId : Str := lit "22222222-2222-4222-8222-222222222222"
def thirdId : Str := lit "33333333-3333-4333-8333-333333333333"

def firstHash : Str :=
  ["fc3e66bdb2ca70af", "65139a659b50a85d", "766397cf77e0a5e7", "23aeef9338ce57d5"].flatMap lit

def secondHash : Str :=
  ["9812e925ade4f82e", "c70b51583e9aae1e", "550f5467c2042410", "df051f935d50c896"].flatMap lit

def thirdHash : Str :=
  ["a6d785093abb2195", "f2e25d65859d3d88", "5769b3601b35004b", "1f1810ab41bd6c47"].flatMap lit

def firstSignature : Str :=
  ["6cca8f04d3791d61", "d194bc0f7f12ec94", "6b9a4742b88c69d7", "f3e094787a6432ff",
    "6b2e8cce19e38983", "c65394765be820c0", "eed8f3bfe76e7c7d", "e8fef7a480a12100"].flatMap lit

def secondSignature : Str :=
  ["ceb3bfd7dea9b4a6", "4b2e598c5ad6f6b0", "50d9d1575aac1eb6", "1335dad2b3e9cf57",
    "1860cb74c21feba8", "2ec5704bf1f8b471", "e1c3eb7179cbd956", "021edcace36e9c06"].flatMap lit

def thirdSignature : Str :=
  ["fd6e882d0b202f3c", "169cf708e7ed07e5", "6b1d4f770b56ba4d", "ef3bcd3ee736bd72",
    "6e6af5bfb2f55eb0", "afca197b09bdc806", "ac1dcdd1db9bc624", "26733430467c720e"].flatMap lit

def delegatorPrivateKey : Str := List.replicate 32 (lit "01") |>.flatten

def sampleRuntime : Runtime where
  numText := integerText
  sha256 m := if m.length = 483 then firstHash else if m.length = 573 then secondHash else thirdHash
  sign hash key :=
    if key ≠ delegatorPrivateKey then none
    else if hash = firstHash then some firstSignature
    else if hash = secondHash then some secondSignature
    else some thirdSignature
  verify hash signature key := key = rootKey && ((hash = firstHash && signature = firstSignature) ||
    (hash = secondHash && signature = secondSignature) || (hash = thirdHash && signature = thirdSignature))
  getTime text :=
    match parseRfc3339 (.str text) with
    | .ok ms => .ofInt ms
    | .error _ => .nan

def sampleContext : PolicyContext where
  policy_version := lit "1"
  values_floor_version := lit "1"
  trust_epoch := .finite .one
  issuer_id := lit "issuer"
  created_at := lit "2026-01-01T00:00:00.000Z"
  valid_from := lit "2026-01-01T00:00:00.000Z"
  valid_until := lit "2026-02-01T00:00:00.000Z"

def sampleScope : V2ScopeDefinition := ⟨[lit "read"], none, []⟩

def supersedeFirst (uuid : Str) (justification : String) : Call :=
  .supersede uuid ⟨firstId, sampleScope, lit justification, sampleContext, delegatorPrivateKey, none, none, none, none⟩

def createFirst : Call := .create firstId ⟨rootKey, lit "agent", sampleScope, sampleContext, delegatorPrivateKey, none⟩

def forkCalls : List Call := [createFirst, supersedeFirst secondId "rotate", supersedeFirst thirdId "once more"]

theorem stored_of_map {s : DelegationStore} {k p : Str} {status : V2DelegationStatus}
    (h : (s.get k).map (fun d => (d.supersedes, d.status)) = some (some p, status)) :
    Supersedes s k p ∧ HasStatus s k status := by
  obtain ⟨d, hd, heq⟩ := Option.map_eq_some_iff.mp h
  obtain ⟨hlink, hstatus⟩ := Prod.mk.inj heq
  exact ⟨⟨d, hd, hlink⟩, ⟨d, hd, hstatus⟩⟩

/-- The first version, superseded already, is superseded once more. -/
theorem fork_breaks_lineage_law : DistinctIds forkCalls ∧ ¬ LineageLaw sampleRuntime forkCalls := by
  refine ⟨by unfold DistinctIds; decide, ?_⟩
  intro hlaw
  obtain ⟨hsecond, hactive⟩ := @stored_of_map (run sampleRuntime forkCalls) secondId firstId .active
    (by decide +kernel)
  obtain ⟨hthird, hactive'⟩ := @stored_of_map (run sampleRuntime forkCalls) thirdId firstId .active
    (by decide +kernel)
  have hlineage : SameLineage (run sampleRuntime forkCalls) secondId thirdId :=
    .trans _ firstId _ (.rel _ _ hsecond) (.symm _ _ (.rel _ _ hthird))
  have heq := hlaw.1 forkCalls [] (List.append_nil _).symm secondId thirdId hlineage hactive hactive'
  exact absurd heq (by decide)

def revokedCalls : List Call := [createFirst, supersedeFirst secondId "rotate", .revoke secondId]

theorem lineage_law_revoked : DistinctIds revokedCalls ∧ NeverAgain sampleRuntime revokedCalls ∧
    HasStatus (run sampleRuntime revokedCalls) secondId .revoked ∧ LineageLaw sampleRuntime revokedCalls := by
  have hids : DistinctIds revokedCalls := by
    unfold DistinctIds
    decide
  have hagain : NeverAgain sampleRuntime revokedCalls := by
    unfold NeverAgain
    decide +kernel
  obtain ⟨-, hrevoked⟩ := @stored_of_map (run sampleRuntime revokedCalls) secondId firstId .revoked
    (by decide +kernel)
  exact ⟨hids, hagain, hrevoked, lineage_law sampleRuntime revokedCalls hids hagain⟩

end Sample

end AgentPassport.VersionLineage
