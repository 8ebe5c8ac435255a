import AgentPassport.AuthorityState
import AgentPassport.RevocationStore

/-! Reading presented state views under a retained mark: when a view that went back is noticed. -/

namespace AgentPassport.AuthorityViews
open JsText PlainData CanonicalJcs DelegationVerify RevocationRecord AuthorityState
open RevocationStore (RevocationResolution revocationPrimitives revocationOptions)

inductive UnplaceableDisposition where
  | read_presented | refuse
  deriving DecidableEq

/-- The records a verifier kept, if any, and the newest marker it has established. -/
structure RetainedAuthorityState where
  records : Option (List CallerValue)
  highWaterMark : Option StateMarker

/-- `presented` answers none where the caller's callback throws. -/
structure MonotonicRevocationResolverOptions where
  presented : CallerValue → Option RevocationResolution
  presentedMarker : Option StateMarker
  retained : Option RetainedAuthorityState
  verification : AuthorityRevocationVerificationOptions
  onUnplaceable : UnplaceableDisposition

structure MonotonicRevocationResolver where
  resolve : CallerValue → RevocationResolution
  monotonicity : MonotonicityOutcome
  highWaterMarkAfter : Option StateMarker

variable (P : Primitives)

def anyRevokes (options : AuthorityRevocationVerificationOptions) (delegation : CallerValue) :
    List CallerValue → Except JcsError RevocationResolution
  | [] => .ok .unknown
  | record :: rest => do
    let verification ← verifyAuthorityRevocation P options record delegation
    if verification.state = .valid then return .revoked
    anyRevokes options delegation rest

def resolveUnderRetainedState (delegation : CallerValue) (retained : Option RetainedAuthorityState)
    (options : AuthorityRevocationVerificationOptions) : RevocationResolution :=
  match anyRevokes P options delegation ((retained.bind (·.records)).getD []) with
  | .ok resolution => resolution
  | .error _ => .unknown

def createMonotonicRevocationResolver (options : MonotonicRevocationResolverOptions) :
    MonotonicRevocationResolver :=
  let established := options.retained.bind (·.highWaterMark)
  let monotonicity := compareStateMarker established options.presentedMarker
  { resolve := fun delegation =>
      if monotonicity = .regressed then
        resolveUnderRetainedState P delegation options.retained options.verification
      else if monotonicity = .unplaceable ∧ options.onUnplaceable = .refuse then .unknown
      else (options.presented delegation).getD .unknown
    monotonicity := monotonicity
    highWaterMarkAfter := advanceHighWaterMark established options.presentedMarker }

/-- What one read brings; the mark comes from the read before. -/
structure StateView where
  presented : CallerValue → Option RevocationResolution
  presentedMarker : Option StateMarker
  records : Option (List CallerValue)
  verification : AuthorityRevocationVerificationOptions
  onUnplaceable : UnplaceableDisposition

def StateView.options (v : StateView) (mark : Option StateMarker) : MonotonicRevocationResolverOptions :=
  ⟨v.presented, v.presentedMarker, some ⟨v.records, mark⟩, v.verification, v.onUnplaceable⟩

def StateView.generation (v : StateView) : Option Nat := v.presentedMarker.bind StateMarker.reading

def readViews (mark : Option StateMarker) : List StateView → List (StateView × MonotonicRevocationResolver)
  | [] => []
  | v :: rest =>
    let resolver := createMonotonicRevocationResolver P (v.options mark)
    (v, resolver) :: readViews resolver.highWaterMarkAfter rest

/-- A view below an earlier one is placed as regressed and never answers active. -/
def Detects (earlier later : StateView × MonotonicRevocationResolver) : Prop :=
  ∀ m n, earlier.1.generation = some m → later.1.generation = some n → n < m →
    later.2.monotonicity = .regressed ∧ ∀ delegation, later.2.resolve delegation ≠ .active

def NeverRollsBack (established : Option StateMarker) (views : List StateView) : Prop :=
  (readViews P established views).Pairwise Detects

/-- The markers that can be read, the initial mark among them, are of the scope of `home`. -/
def OneScope (home : StateMarker) (established : Option StateMarker) (views : List StateView) : Prop :=
  ∀ marker, (established = some marker ∨ ∃ v ∈ views, v.presentedMarker = some marker) →
    marker.reading.isSome → sameScope home marker = true

/-- The mark the verifier starts from: the one it has, or the first one presented to it. -/
def firstMark (established : Option StateMarker) (views : List StateView) : Option StateMarker :=
  established.or (views.findSome? StateView.presentedMarker)

def NonDescending (views : List StateView) : Prop :=
  views.Pairwise (fun a b => ∀ m n, a.generation = some m → b.generation = some n → m ≤ n)

/-- What the log of fenced writes keeps, after any run from an empty log. -/
structure NeverGoesBack {T : Type} (writes : List (Option (FencedWrite T))) : Prop where
  ordered : ((FencedAuthorityStateLog.empty.run writes).1.filterMap FencedAuthorityStateLog.acceptance).Pairwise
    (fun a b => a.1.Upto b.1)
  readable : ∀ a ∈ (FencedAuthorityStateLog.empty.run writes).1.filterMap FencedAuthorityStateLog.acceptance,
    a.1.Upto a.1
  newest : (FencedAuthorityStateLog.empty.run writes).2.Holds
    ((FencedAuthorityStateLog.empty.run writes).1.filterMap FencedAuthorityStateLog.acceptance).getLast?
  refused : ∀ w code published, ((FencedAuthorityStateLog.empty.run writes).2.write w).1 = .refused code published →
    ((FencedAuthorityStateLog.empty.run writes).2.write w).2 = (FencedAuthorityStateLog.empty.run writes).2

variable {P}

theorem anyRevokes_ne_active {options : AuthorityRevocationVerificationOptions} {delegation : CallerValue}
    (records : List CallerValue) : anyRevokes P options delegation records ≠ .ok .active := by
  induction records with
  | nil => simp [anyRevokes]
  | cons record rest ih =>
    intro h
    obtain ⟨verification, _, h⟩ := Outcome.bind_eq_ok.mp h
    by_cases hvalid : verification.state = .valid
    · simp [hvalid, pure, Except.pure] at h
    · simp only [hvalid, if_false] at h
      exact ih h

theorem retained_ne_active (delegation : CallerValue) (retained : Option RetainedAuthorityState)
    (options : AuthorityRevocationVerificationOptions) :
    resolveUnderRetainedState P delegation retained options ≠ .active := by
  intro h
  cases hany : anyRevokes P options delegation ((retained.bind (·.records)).getD []) with
  | error e => simp [resolveUnderRetainedState, hany] at h
  | ok resolution =>
    simp only [resolveUnderRetainedState, hany] at h
    exact anyRevokes_ne_active _ (h ▸ hany)

theorem resolve_regressed {options : MonotonicRevocationResolverOptions}
    (h : (createMonotonicRevocationResolver P options).monotonicity = .regressed) (delegation : CallerValue) :
    (createMonotonicRevocationResolver P options).resolve delegation ≠ .active := by
  have hmono : compareStateMarker (options.retained.bind (·.highWaterMark)) options.presentedMarker = .regressed := h
  simp only [createMonotonicRevocationResolver, hmono, if_true]
  exact retained_ne_active delegation options.retained options.verification

@[simp] theorem read_monotonicity (v : StateView) (mark : Option StateMarker) :
    (createMonotonicRevocationResolver P (v.options mark)).monotonicity =
      compareStateMarker mark v.presentedMarker := rfl

@[simp] theorem read_mark (v : StateView) (mark : Option StateMarker) :
    (createMonotonicRevocationResolver P (v.options mark)).highWaterMarkAfter =
      advanceHighWaterMark mark v.presentedMarker := rfl

variable {e : StateMarker} {v : StateView}

theorem advance_unreadable (hn : v.generation = none) : advanceHighWaterMark (some e) v.presentedMarker = some e := by
  cases hp : v.presentedMarker with
  | none => rfl
  | some p =>
    have hread : p.reading = none := by simpa [StateView.generation, hp] using hn
    have hcompare : compareStateMarker (some e) (some p) ≠ .forward := by
      intro hforward
      obtain ⟨_, _, n, _, hpn, _⟩ := compare_forward.mp hforward
      rw [hread] at hpn
      cases hpn
    simp [advanceHighWaterMark, hcompare]

variable {home : StateMarker}

theorem OneScope.tail {mark mark' : Option StateMarker} {rest : List StateView} (h : OneScope home mark (v :: rest))
    (hmark : mark' = mark ∨ mark' = v.presentedMarker) : OneScope home mark' rest := by
  intro marker hmarker hread
  refine h marker ?_ hread
  rcases hmarker with rfl | ⟨w, hw, hpresented⟩
  · rcases hmark with rfl | hmark
    · exact .inl rfl
    · exact .inr ⟨v, List.mem_cons_self, hmark.symm⟩
  · exact .inr ⟨w, List.mem_cons_of_mem _ hw, hpresented⟩

/-- A read under a readable mark: the next mark is readable, at or above both the old one and the
view, and a view below the old one is placed as regressed. -/
theorem read_under_mark {home e : StateMarker} {k : Nat} (he : e.reading = some k) {rest : List StateView}
    (h : OneScope home (some e) (v :: rest)) :
    ∃ e' k', advanceHighWaterMark (some e) v.presentedMarker = some e' ∧ e'.reading = some k' ∧ k ≤ k' ∧
      OneScope home (some e') rest ∧
      ∀ n, v.generation = some n → n ≤ k' ∧ (n < k → compareStateMarker (some e) v.presentedMarker = .regressed) := by
  have hkept : OneScope home (some e) rest := h.tail (.inl rfl)
  cases hn : v.generation with
  | none => exact ⟨e, k, advance_unreadable hn, he, le_refl k, hkept, by simp⟩
  | some n =>
    obtain ⟨p, hp, hpn⟩ := Option.bind_eq_some_iff.mp hn
    have hhome : sameScope home e = true := h e (.inl rfl) (by simp [he])
    have hhome' : sameScope home p = true := h p (.inr ⟨v, List.mem_cons_self, hp⟩) (by simp [hpn])
    have hscope : sameScope e p = true := by
      rw [sameScope_iff] at hhome hhome' ⊢
      exact ⟨hhome.1.symm.trans hhome'.1, hhome.2.symm.trans hhome'.2⟩
    rcases Nat.lt_or_ge n k with hlt | hle
    · have hregressed := compare_regressed hscope he hpn hlt
      refine ⟨e, k, by simp [advanceHighWaterMark, hp, hregressed], he, le_refl k, hkept, ?_⟩
      intro m hm
      have hmn : n = m := Option.some.inj hm
      exact ⟨by omega, fun _ => by rw [hp, hregressed]⟩
    · have hforward := compare_forward.mpr ⟨hscope, k, n, he, hpn, hle⟩
      refine ⟨p, n, by simp [advanceHighWaterMark, hp, hforward], hpn, hle, h.tail (.inr hp.symm), ?_⟩
      intro m hm
      have hmn : n = m := Option.some.inj hm
      exact ⟨by omega, fun hlt => absurd hlt (by omega)⟩

/-- Every view of a run below `k` is placed as regressed. -/
def RegressedBelow (reads : List (StateView × MonotonicRevocationResolver)) (k : Nat) : Prop :=
  ∀ read ∈ reads, ∀ n, read.1.generation = some n → n < k →
    read.2.monotonicity = .regressed ∧ ∀ delegation, read.2.resolve delegation ≠ .active

theorem reads_under_mark (views : List StateView) : ∀ {e : StateMarker} {k : Nat},
    e.reading = some k → OneScope home (some e) views →
    RegressedBelow (readViews P (some e) views) k ∧ NeverRollsBack P (some e) views := by
  induction views with
  | nil =>
    intro e k _ _
    exact ⟨by simp [RegressedBelow, readViews], List.Pairwise.nil⟩
  | cons v rest ih =>
    intro e k he hscope
    obtain ⟨e', k', hmark, he', hle, hscope', hv⟩ := read_under_mark he hscope
    obtain ⟨hbelow, hpairs⟩ := ih he' hscope'
    rw [NeverRollsBack, readViews, read_mark, hmark]
    constructor
    · intro read hread n hn hlt
      rcases List.mem_cons.mp hread with rfl | hread
      · have hregressed := (hv n hn).2 hlt
        exact ⟨hregressed, resolve_regressed hregressed⟩
      · exact hbelow read hread n hn (by omega)
    · refine List.pairwise_cons.mpr ⟨?_, hpairs⟩
      intro read hread m n hm hn hlt
      have hle' := (hv m hm).1
      exact hbelow read hread n hn (by omega)

theorem detects_of_readable (views : List StateView) {established : Option StateMarker}
    (hscope : OneScope home established views) (hfirst : ∀ e, firstMark established views = some e → e.reading.isSome) :
    NeverRollsBack P established views := by
  cases established with
  | some e =>
    obtain ⟨k, hk⟩ := Option.isSome_iff_exists.mp (hfirst e rfl)
    exact (reads_under_mark views hk hscope).2
  | none =>
    induction views with
    | nil => exact List.Pairwise.nil
    | cons v rest ih =>
      cases hp : v.presentedMarker with
      | none =>
        rw [NeverRollsBack, readViews, read_mark, hp]
        refine List.pairwise_cons.mpr ⟨?_, ih (hscope.tail (.inl rfl)) ?_⟩
        · intro read _ m n hm
          simp [StateView.generation, hp] at hm
        · intro e he
          exact hfirst e (by simpa [firstMark, hp] using he)
      | some e =>
        obtain ⟨k, hk⟩ := Option.isSome_iff_exists.mp (hfirst e (by simp [firstMark, hp]))
        obtain ⟨hbelow, hpairs⟩ := reads_under_mark (P := P) rest hk (hscope.tail (.inr hp.symm))
        rw [NeverRollsBack, readViews, read_mark, hp]
        refine List.pairwise_cons.mpr ⟨?_, hpairs⟩
        intro read hread m n hm hn hlt
        have hmk : m = k := by
          rw [StateView.generation, hp] at hm
          exact Option.some.inj (hm.symm.trans hk)
        exact hbelow read hread n hn (by omega)

theorem unplaceable_of_unreadable (he : e.reading = none) (views : List StateView) :
    ∀ read ∈ readViews P (some e) views, read.2.monotonicity = .unplaceable := by
  induction views with
  | nil => simp [readViews]
  | cons v rest ih =>
    have hmark : advanceHighWaterMark (some e) v.presentedMarker = some e := by
      cases hp : v.presentedMarker with
      | none => rfl
      | some p => simp [advanceHighWaterMark, compare_unreadable he]
    rw [readViews, read_mark, hmark]
    intro read hread
    rcases List.mem_cons.mp hread with rfl | hread
    · exact compare_unreadable he v.presentedMarker
    · exact ih read hread

theorem unplaceable_of_first {established : Option StateMarker} {views : List StateView}
    (hfirst : firstMark established views = some e) (he : e.reading = none) :
    ∀ read ∈ readViews P established views, read.2.monotonicity = .unplaceable := by
  cases established with
  | some e' =>
    have heq : e' = e := Option.some.inj hfirst
    exact unplaceable_of_unreadable (heq ▸ he) views
  | none =>
    induction views with
    | nil => simp [readViews]
    | cons v rest ih =>
      intro read hread
      rw [readViews, read_mark] at hread
      rcases List.mem_cons.mp hread with rfl | hread
      · exact compare_none v.presentedMarker
      · cases hp : v.presentedMarker with
        | none =>
          rw [hp] at hread
          exact ih (by simpa [firstMark, hp] using hfirst) read hread
        | some e' =>
          have heq : e' = e := by simpa [firstMark, hp] using hfirst
          rw [hp] at hread
          exact unplaceable_of_unreadable (heq ▸ he) rest read hread

theorem views_of_reads (views : List StateView) : ∀ mark : Option StateMarker,
    (readViews P mark views).map Prod.fst = views := by
  induction views with
  | nil =>
    intro mark
    rfl
  | cons v rest ih =>
    intro mark
    rw [readViews, List.map_cons, ih]

theorem state_never_rolls_back (P : Primitives) {T : Type} (writes : List (Option (FencedWrite T)))
    (home : StateMarker) (established : Option StateMarker) (views : List StateView)
    (hscope : OneScope home established views) :
    NeverGoesBack writes ∧
    (NeverRollsBack P established views ↔
      (∀ e, firstMark established views = some e → e.reading.isSome) ∨ NonDescending views) := by
  constructor
  · have hempty : (FencedAuthorityStateLog.empty : FencedAuthorityStateLog T).Holds none := ⟨rfl, rfl, rfl⟩
    obtain ⟨hordered, hreadable, hnewest⟩ := FencedAuthorityStateLog.run_spec writes hempty
    refine ⟨hordered, hreadable, hnewest, ?_⟩
    intro w code published hw
    obtain ⟨token, payload, _, _, _, hwrite⟩ | ⟨code', hwrite⟩ :=
      (FencedAuthorityStateLog.empty.run writes).2.write_cases w
    · rw [hwrite] at hw
      cases hw
    · rw [hwrite]
  · constructor
    · intro h
      by_cases hfirst : ∀ e, firstMark established views = some e → e.reading.isSome
      · exact .inl hfirst
      · right
        simp only [not_forall] at hfirst
        obtain ⟨e, he, hread⟩ := hfirst
        have hunplaceable := unplaceable_of_first (P := P) he (by simpa using hread)
        rw [NonDescending, ← views_of_reads (P := P) views established, List.pairwise_map]
        refine List.Pairwise.imp_of_mem ?_ h
        intro earlier later _ hlater hdetects m n hm hn
        by_contra hlt
        have hregressed := (hdetects m n hm hn (by omega)).1
        rw [hunplaceable later hlater] at hregressed
        cases hregressed
    · intro h
      rcases h with hfirst | hascending
      · exact detects_of_readable views hscope hfirst
      · rw [NonDescending, ← views_of_reads (P := P) views established, List.pairwise_map] at hascending
        refine hascending.imp ?_
        intro earlier later hle m n hm hn hlt
        have := hle m n hm hn
        omega

section Sample

def globalMarker (value : String) : StateMarker := ⟨.str (lit value), lit "global", none⟩

/-- A view that answers active for everything, from a verifier that keeps no records. -/
def activeView (marker : Option StateMarker) : StateView :=
  ⟨fun _ => some .active, marker, none, revocationOptions, .read_presented⟩

/-- A token goes up, then back; two views do the same. -/
theorem state_never_rolls_back_sample :
    NeverGoesBack [some ⟨some (globalMarker "9"), 1⟩, none, some ⟨some (globalMarker "10"), 2⟩,
      some ⟨some (globalMarker "9"), 3⟩] ∧
    NeverRollsBack revocationPrimitives none
      [activeView none, activeView (some (globalMarker "10")), activeView (some (globalMarker "5"))] := by
  have hscope : OneScope (globalMarker "0") none
      [activeView none, activeView (some (globalMarker "10")), activeView (some (globalMarker "5"))] := by
    intro marker hmarker _
    have hcases : marker = globalMarker "10" ∨ marker = globalMarker "5" := by
      simpa [activeView, eq_comm] using hmarker
    rcases hcases with rfl | rfl
    · decide
    · decide
  obtain ⟨hwrites, hviews⟩ := state_never_rolls_back revocationPrimitives
    [some ⟨some (globalMarker "9"), 1⟩, none, some ⟨some (globalMarker "10"), 2⟩,
      some ⟨some (globalMarker "9"), 3⟩] (globalMarker "0") none _ hscope
  refine ⟨hwrites, hviews.mpr (.inl ?_)⟩
  intro e he
  have heq : globalMarker "10" = e := by simpa [firstMark, activeView] using he
  subst heq
  decide

/-- The first marker presented is adopted although it cannot be read; after it a view at 5 is read
as current behind one at 10. -/
theorem unreadable_mark_adopted :
    OneScope (globalMarker "0") none [activeView (some (globalMarker "x")),
      activeView (some (globalMarker "10")), activeView (some (globalMarker "5"))] ∧
    ¬ NeverRollsBack revocationPrimitives none [activeView (some (globalMarker "x")),
      activeView (some (globalMarker "10")), activeView (some (globalMarker "5"))] := by
  constructor
  · intro marker hmarker _
    have hcases : marker = globalMarker "x" ∨ marker = globalMarker "10" ∨ marker = globalMarker "5" := by
      simpa [activeView, eq_comm] using hmarker
    rcases hcases with rfl | rfl | rfl
    · decide
    · decide
    · decide
  · intro h
    have hpair := (List.pairwise_cons.mp (List.pairwise_cons.mp h).2).1
    obtain ⟨hregressed, _⟩ := hpair _ List.mem_cons_self 10 5 (by decide) (by decide) (by decide)
    revert hregressed
    decide

end Sample

end AgentPassport.AuthorityViews
