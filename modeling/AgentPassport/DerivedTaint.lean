import AgentPassport.FlowGate

/-! Trees of derived objects, and what a derived label keeps of its leaves: their principals, their
expiry and what the gate blocks. Exactly when each call of a tree keeps all three is read off the
labels and the expiries of its sources. -/
namespace AgentPassport.DerivedTaint
open JsText Js Rfc3339 CrossChain FlowGate Outcome Utf8
open LegacyDelegation (toISOString)

structure DeriveCall where
  draw : Draw
  data : Str
  monitorPrivateKey : Str
  monitorPublicKey : Str
  expiresInMinutes : JsNumber

/-- A source object, or a call over derivations with the object it returned. -/
inductive Derivation where
  | source (sao : SignedAuthorityObject)
  | derive (call : DeriveCall) (sources : List Derivation) (sao : SignedAuthorityObject)

def Derivation.object : Derivation → SignedAuthorityObject
  | .source sao => sao
  | .derive _ _ sao => sao

mutual
def Derivation.leaves : Derivation → List SignedAuthorityObject
  | .source sao => [sao]
  | .derive _ sources _ => Derivation.leavesOf sources

def Derivation.leavesOf : List Derivation → List SignedAuthorityObject
  | [] => []
  | t :: rest => t.leaves ++ Derivation.leavesOf rest
end

mutual
/-- The derivation itself and those it was made from. -/
def Derivation.subtrees : Derivation → List Derivation
  | .source sao => [.source sao]
  | .derive call sources sao => .derive call sources sao :: Derivation.subtreesOf sources

def Derivation.subtreesOf : List Derivation → List Derivation
  | [] => []
  | t :: rest => t.subtrees ++ Derivation.subtreesOf rest
end

theorem Derivation.induction {P : Derivation → Prop} (source : ∀ sao, P (.source sao))
    (derive : ∀ call sources sao, (∀ s ∈ sources, P s) → P (.derive call sources sao)) (t : Derivation) : P t := by
  refine @Derivation.rec P (fun sources => ∀ s ∈ sources, P s) source derive ?_ ?_ t
  · intro s hs
    cases hs
  · intro s rest hs hrest
    exact List.forall_mem_cons.mpr ⟨hs, hrest⟩

theorem leavesOf_eq (sources : List Derivation) : Derivation.leavesOf sources = sources.flatMap Derivation.leaves := by
  induction sources with
  | nil => rfl
  | cons t rest ih => rw [Derivation.leavesOf, ih, List.flatMap_cons]

theorem subtreesOf_eq (sources : List Derivation) :
    Derivation.subtreesOf sources = sources.flatMap Derivation.subtrees := by
  induction sources with
  | nil => rfl
  | cons t rest ih => rw [Derivation.subtreesOf, ih, List.flatMap_cons]

theorem mem_subtrees_self (t : Derivation) : t ∈ t.subtrees := by
  cases t with
  | source sao => exact List.mem_singleton_self _
  | derive call sources sao => exact List.mem_cons_self

section
variable (R : Runtime)

/-- Every call of the tree returned its object from those of its sources. -/
def Returned (t : Derivation) : Prop :=
  ∀ call sources sao, .derive call sources sao ∈ t.subtrees →
    deriveSAO R call.draw call.data (sources.map Derivation.object) call.monitorPrivateKey call.monitorPublicKey
      call.expiresInMinutes = .ok sao

def NamesLeaves (t : Derivation) : Prop :=
  ∀ q, q ∈ namedBy t.object.taint ↔ ∃ leaf ∈ t.leaves, q ∈ namedBy leaf.taint

/-- No source that can be read expires earlier. -/
def ExpiresFirst : Derivation → Prop
  | .source _ => True
  | .derive _ sources sao => ∀ s ∈ sources, ∀ ms, parseRfc3339 (.str s.object.expiresAt) = .ok ms →
      ∃ expiry, parseRfc3339 (.str sao.expiresAt) = .ok expiry ∧ expiry ≤ ms

/-- The gate blocks the action on data under these labels. -/
def Blocks (now : Int) (actionPrincipalId actionScope : Str) (permits : List CrossChainPermit)
    (labels : List TaintLabel) : Prop :=
  (checkDataFlow R now ⟨mergeTaints labels, actionPrincipalId, actionScope, permits, none⟩).verdict = .blocked

/-- What is blocked for the leaves together is blocked for the label alone. -/
def BlocksLikeLeaves (t : Derivation) : Prop :=
  ∀ now actionPrincipalId actionScope permits, actionPrincipalId ≠ MULTI_PRINCIPAL →
    Blocks R now actionPrincipalId actionScope permits (t.leaves.map (·.taint)) →
    Blocks R now actionPrincipalId actionScope permits [t.object.taint]

structure Faithful (t : Derivation) : Prop where
  names : NamesLeaves t
  expires : ExpiresFirst t
  blocks : BlocksLikeLeaves R t

end

/-- The principals the gate takes a foreign label for. -/
def expanded (label : TaintLabel) : List Str :=
  match label.sourcePrincipals with
  | some (source :: rest) => source :: rest
  | _ => [label.principalId]

/-- `q` is the principalId of a source. -/
def IsSource (sources : List SignedAuthorityObject) (q : Str) : Prop := ∃ s ∈ sources, s.taint.principalId = q

/-- The principals the sources name are the principalIds of the sources. -/
def NamesCarried (sources : List SignedAuthorityObject) : Prop :=
  ∀ q, IsSource sources q ↔ ∃ s ∈ sources, q ∈ namedBy s.taint

/-- No source is read-only and whatever they list are principalIds of sources; or the sources have one
principalId and the first is read-only. -/
def UsageCarried (sources : List SignedAuthorityObject) : Prop :=
  (∃ primary rest, sources = primary :: rest ∧ primary.taint.usage = .readOnly ∧
    ∀ s ∈ sources, s.taint.principalId = primary.taint.principalId) ∨
  (∀ s ∈ sources, s.taint.usage ≠ .readOnly) ∧ ∀ s ∈ sources, ∀ q ∈ expanded s.taint, IsSource sources q

/-- The expiries of all sources can be read, or those that can are not long past. -/
def ExpiryCarried (now : Int) (sources : List SignedAuthorityObject) : Prop :=
  (∀ s ∈ sources, ∃ ms, parseRfc3339 (.str s.expiresAt) = .ok ms) ∨
  ∀ s ∈ sources, ∀ ms, parseRfc3339 (.str s.expiresAt) = .ok ms → now - 1 ≤ ms

def SourcesCarried : Derivation → Prop
  | .source _ => True
  | .derive call sources _ =>
    NamesCarried (sources.map Derivation.object) ∧ UsageCarried (sources.map Derivation.object) ∧
      ExpiryCarried call.draw.now (sources.map Derivation.object)

theorem eraseDups_const {α : Type*} [BEq α] [LawfulBEq α] {l : List α} {a : α} (hne : l ≠ []) (h : ∀ x ∈ l, x = a) :
    l.eraseDups = [a] := by
  cases l with
  | nil => exact absurd rfl hne
  | cons b rest =>
    obtain ⟨rfl, hrest⟩ := List.forall_mem_cons.mp h
    have hnil : rest.filter (fun x => !x == b) = [] := by
      rw [List.filter_eq_nil_iff]
      intro x hx
      rw [hrest x hx, beq_self_eq_true]
      decide
    rw [List.eraseDups_cons, hnil, List.eraseDups_nil]

theorem isCrossChain_iff {labels : List TaintLabel} {first : TaintLabel} (hfirst : first ∈ labels) :
    (mergeTaints labels).isCrossChain = true ↔ ∃ label ∈ labels, label.principalId ≠ first.principalId := by
  have hcross : (mergeTaints labels).isCrossChain = true ↔ 1 < (mergeTaints labels).principals.length :=
    decide_eq_true_iff
  rw [hcross]
  constructor
  · intro hlength
    by_contra hnone
    have hconst : (mergeTaints labels).principals = [first.principalId] := by
      apply eraseDups_const
      · exact List.ne_nil_of_mem (List.mem_map_of_mem (List.mem_eraseDups.mpr hfirst))
      · intro q hq
        obtain ⟨label, hlabel, rfl⟩ := List.mem_map.mp hq
        by_contra hother
        exact hnone ⟨label, List.mem_eraseDups.mp hlabel, hother⟩
    rw [hconst] at hlength
    exact Nat.lt_irrefl 1 hlength
  · intro h
    obtain ⟨label, hlabel, hother⟩ := h
    have hmem : label.principalId ∈ (mergeTaints labels).principals := mem_principals.mpr ⟨label, hlabel, rfl⟩
    have hmem' : first.principalId ∈ (mergeTaints labels).principals := mem_principals.mpr ⟨first, hfirst, rfl⟩
    by_contra hshort
    match hprincipals : (mergeTaints labels).principals with
    | [] =>
      rw [hprincipals] at hmem
      exact List.not_mem_nil hmem
    | [q] =>
      rw [hprincipals] at hmem hmem'
      exact hother ((List.mem_singleton.mp hmem).trans (List.mem_singleton.mp hmem').symm)
    | _ :: _ :: _ =>
      rw [hprincipals] at hshort
      simp at hshort

theorem mem_foreignSources {actionPrincipalId q : Str} {label : TaintLabel} (h : label.principalId ≠ actionPrincipalId) :
    q ∈ foreignSources actionPrincipalId label ↔ q ∈ expanded label ∧ q ≠ actionPrincipalId := by
  have hself : q ∈ [label.principalId] ↔ q ∈ [label.principalId] ∧ q ≠ actionPrincipalId := by
    refine ⟨fun hq => ⟨hq, ?_⟩, And.left⟩
    rw [List.mem_singleton.mp hq]
    exact h
  rw [foreignSources, expanded]
  cases label.sourcePrincipals with
  | none => exact hself
  | some sources =>
    cases sources with
    | nil => exact hself
    | cons source rest => exact List.mem_filter.trans (and_congr_right' decide_eq_true_iff)

theorem namedBy_eq {label : TaintLabel} (h : label.principalId = MULTI_PRINCIPAL) : namedBy label = expanded label := by
  rw [namedBy, if_pos h]
  rfl

theorem namedBy_expanded {label : TaintLabel} (h : label.principalId = MULTI_PRINCIPAL ∨ label.sourcePrincipals = none) :
    namedBy label = expanded label := by
  by_cases hmulti : label.principalId = MULTI_PRINCIPAL
  · exact namedBy_eq hmulti
  · rw [namedBy, if_neg hmulti, expanded, h.resolve_left hmulti]

section
variable {draw : Draw} {primary : SignedAuthorityObject} {rest : List SignedAuthorityObject}

theorem sources_cross_iff :
    (mergeTaints ((primary :: rest).map (·.taint))).isCrossChain = true ↔
      ∃ s ∈ primary :: rest, s.taint.principalId ≠ primary.taint.principalId := by
  rw [isCrossChain_iff (List.mem_map_of_mem List.mem_cons_self)]
  simp only [List.mem_map, exists_exists_and_eq_and]

theorem derivedLabel_cross (h : (mergeTaints ((primary :: rest).map (·.taint))).isCrossChain = true) :
    derivedLabel draw primary.taint (primary :: rest) = ⟨draw.ref, MULTI_PRINCIPAL, primary.taint.chainId,
      primary.taint.delegationId, .exportWithPermit, toISOString draw.now,
      some (((primary :: rest).map (·.taint.principalId)).eraseDups)⟩ := by
  rw [derivedLabel]
  simp only [h, if_true]

theorem derivedLabel_single (h : (mergeTaints ((primary :: rest).map (·.taint))).isCrossChain = false) :
    derivedLabel draw primary.taint (primary :: rest) = ⟨draw.ref, primary.taint.principalId, primary.taint.chainId,
      primary.taint.delegationId, primary.taint.usage, toISOString draw.now, none⟩ := by
  rw [derivedLabel]
  simp only [h, Bool.false_eq_true, if_false]

theorem derivedLabel_proper : (derivedLabel draw primary.taint (primary :: rest)).principalId = MULTI_PRINCIPAL ∨
    (derivedLabel draw primary.taint (primary :: rest)).sourcePrincipals = none := by
  cases hcross : (mergeTaints ((primary :: rest).map (·.taint))).isCrossChain with
  | true => exact .inl (by rw [derivedLabel_cross hcross])
  | false => exact .inr (by rw [derivedLabel_single hcross])

theorem expanded_derivedLabel (q : Str) :
    q ∈ expanded (derivedLabel draw primary.taint (primary :: rest)) ↔ IsSource (primary :: rest) q := by
  cases hcross : (mergeTaints ((primary :: rest).map (·.taint))).isCrossChain with
  | true =>
    rw [derivedLabel_cross hcross, expanded, List.map_cons, List.eraseDups_cons]
    simp only
    rw [← List.eraseDups_cons]
    exact List.mem_eraseDups.trans (@List.mem_map _ _ _ (fun s => s.taint.principalId) (primary :: rest))
  | false =>
    have hall : ∀ s ∈ primary :: rest, s.taint.principalId = primary.taint.principalId := by
      by_contra hnot
      rw [not_forall] at hnot
      obtain ⟨s, hs⟩ := hnot
      rw [Classical.not_imp] at hs
      rw [sources_cross_iff.mpr ⟨s, hs⟩] at hcross
      cases hcross
    rw [derivedLabel_single hcross, expanded, List.mem_singleton]
    constructor
    · intro h
      exact ⟨primary, List.mem_cons_self, h.symm⟩
    · intro h
      obtain ⟨s, hs, hname⟩ := h
      rw [← hname, hall s hs]

theorem namedBy_derivedLabel (q : Str) :
    q ∈ namedBy (derivedLabel draw primary.taint (primary :: rest)) ↔ IsSource (primary :: rest) q := by
  rw [namedBy_expanded derivedLabel_proper, expanded_derivedLabel]

theorem readOnly_derivedLabel :
    (derivedLabel draw primary.taint (primary :: rest)).usage = .readOnly ↔
      primary.taint.usage = .readOnly ∧ ∀ s ∈ primary :: rest, s.taint.principalId = primary.taint.principalId := by
  cases hcross : (mergeTaints ((primary :: rest).map (·.taint))).isCrossChain with
  | true =>
    obtain ⟨s, hs, hother⟩ := sources_cross_iff.mp hcross
    rw [derivedLabel_cross hcross]
    exact iff_of_false (fun h => nomatch h) (fun h => hother (h.2 s hs))
  | false =>
    rw [derivedLabel_single hcross]
    refine (and_iff_left ?_).symm
    intro s hs
    by_contra hother
    rw [sources_cross_iff.mpr ⟨s, hs, hother⟩] at hcross
    cases hcross

end

theorem trunc_le {d : Double} {ms : Int} (h : d.scaled ≤ ms * scaleOne) : d.trunc ≤ ms := by
  rw [Double.trunc]
  by_cases hneg : 0 ≤ d.scaled
  · rw [Int.tdiv_eq_ediv_of_nonneg hneg]
    exact Int.ediv_le_of_le_mul scaleOne_pos h
  · have hflip : d.scaled.tdiv scaleOne = -((-d.scaled) / scaleOne) := by
      rw [← Int.tdiv_eq_ediv_of_nonneg (by omega), Int.neg_tdiv, Int.neg_neg]
    have hle : -ms ≤ -d.scaled / scaleOne := by
      apply Int.le_ediv_of_mul_le scaleOne_pos
      rw [Int.neg_mul]
      omega
    omega

theorem parse_of_formatNumber {x : JsNumber} {text : Str} (h : formatNumber x = .ok text) :
    ∃ d, x = .finite d ∧ formatRfc3339 d.trunc = .ok text ∧ parseRfc3339 (.str text) = .ok d.trunc := by
  cases x with
  | nan => cases h
  | infinite neg => cases h
  | finite d =>
    cases hformat : formatRfc3339 d.trunc with
    | error e =>
      simp only [formatNumber, hformat] at h
      cases h
    | ok s =>
      simp only [formatNumber, hformat] at h
      cases h
      exact ⟨d, rfl, hformat, parse_of_format hformat⟩

theorem trunc_of_ofInt {z : Int} {d : Double} (hd : JsNumber.ofInt z = .finite d) {text : Str}
    (h : formatRfc3339 d.trunc = .ok text) : d.trunc = z := by
  by_cases hsmall : z.natAbs < 2 ^ 53
  · obtain ⟨e, he, hexact⟩ := ofInt_exact_int hsmall
    have hsame : d = e := JsNumber.finite.inj (hd.symm.trans he)
    rw [Double.trunc, hsame, hexact]
    exact Int.mul_tdiv_cancel z scaleOne_pos.ne'
  · have hlarge := ofInt_large (Nat.not_lt.mp hsmall) hd
    have hrange := range_of_format h
    have htrunc : d.trunc.natAbs = d.scaled.natAbs / 2 ^ 1074 := by
      rw [Double.trunc, Int.natAbs_tdiv, scaleOne, Int.natAbs_pow]
      rfl
    have hge : 2 ^ 53 ≤ d.trunc.natAbs := by
      rw [htrunc, Nat.le_div_iff_mul_le (by positivity)]
      exact hlarge
    rw [MIN_INSTANT, MAX_INSTANT] at hrange
    omega

theorem natAbs_of_parse {text : Str} {ms : Int} (h : parseRfc3339 (.str text) = .ok ms) : ms.natAbs < 2 ^ 53 := by
  rw [parseRfc3339] at h
  cases hexec : exec text with
  | none =>
    rw [hexec] at h
    cases h
  | some m =>
    rw [hexec] at h
    have hm : instant m = .ok ms := h
    obtain ⟨e, -, he⟩ | ⟨offset, ms', hoffset, hnames, heq⟩ := instant_cases m
    · rw [he] at hm
      cases hm
    · rw [heq] at hm
      by_cases hsafe : ms'.natAbs ≤ 2 ^ 53 - 1
      · rw [if_pos hsafe] at hm
        cases hm
        omega
      · rw [if_neg hsafe] at hm
        cases hm

theorem ofInt_instant {text : Str} {ms : Int} (h : parseRfc3339 (.str text) = .ok ms) :
    ∃ d, JsNumber.ofInt ms = .finite d ∧ d.scaled = ms * scaleOne :=
  ofInt_exact_int (natAbs_of_parse h)

theorem readExpiries_some {earliestExpiry bound : JsNumber} {sources : List SignedAuthorityObject}
    (hstart : earliestExpiry = .infinite false ∨ ∃ d, earliestExpiry = .finite d)
    (h : readExpiries earliestExpiry sources = some bound) :
    (∀ d, earliestExpiry = .finite d → ∃ e, bound = .finite e ∧ e.scaled ≤ d.scaled) ∧
    ∀ s ∈ sources, ∃ ms e, parseRfc3339 (.str s.expiresAt) = .ok ms ∧ bound = .finite e ∧
      e.scaled ≤ ms * scaleOne := by
  induction sources generalizing earliestExpiry with
  | nil =>
    cases h
    exact ⟨fun d hd => ⟨d, hd, Int.le_refl _⟩, fun s hs => absurd hs List.not_mem_nil⟩
  | cons s rest ih =>
    rw [readExpiries] at h
    cases hparse : parseRfc3339 (.str s.expiresAt) with
    | error e =>
      rw [hparse] at h
      cases h
    | ok ms =>
      rw [hparse] at h
      simp only at h
      obtain ⟨d, hd, hexact⟩ := ofInt_instant hparse
      -- after this source the loop holds a finite number not above it
      have hnext : ∃ e, (if (JsNumber.ofInt ms).lt earliestExpiry then JsNumber.ofInt ms else earliestExpiry) =
          .finite e ∧ e.scaled ≤ ms * scaleOne ∧ ∀ d', earliestExpiry = .finite d' → e.scaled ≤ d'.scaled := by
        obtain hinfinite | ⟨d', hfinite⟩ := hstart
        · rw [hinfinite, hd]
          exact ⟨d, rfl, Int.le_of_eq hexact, fun d' h => nomatch h⟩
        · rw [hfinite, hd, JsNumber.lt]
          by_cases hlt : d.scaled < d'.scaled
          · refine ⟨d, if_pos (decide_eq_true hlt), Int.le_of_eq hexact, ?_⟩
            intro d'' h
            cases h
            exact Int.le_of_lt hlt
          · refine ⟨d', if_neg (fun h => hlt (of_decide_eq_true h)), ?_, ?_⟩
            · rw [← hexact]
              exact Int.not_lt.mp hlt
            · intro d'' h
              cases h
              exact Int.le_refl _
      obtain ⟨e, he, hsource, hbefore⟩ := hnext
      rw [he] at h
      obtain ⟨hkept, hrest⟩ := ih (.inr ⟨e, rfl⟩) h
      obtain ⟨f, hf, hle⟩ := hkept e rfl
      refine ⟨fun d' hd' => ⟨f, hf, Int.le_trans hle (hbefore d' hd')⟩, ?_⟩
      exact List.forall_mem_cons.mpr ⟨⟨ms, f, hparse, hf, Int.le_trans hle hsource⟩, hrest⟩

theorem readExpiries_none {earliestExpiry : JsNumber} {sources : List SignedAuthorityObject}
    (h : readExpiries earliestExpiry sources = none) :
    ∃ s ∈ sources, ∀ ms, parseRfc3339 (.str s.expiresAt) ≠ .ok ms := by
  induction sources generalizing earliestExpiry with
  | nil => cases h
  | cons s rest ih =>
    rw [readExpiries] at h
    cases hparse : parseRfc3339 (.str s.expiresAt) with
    | error e =>
      refine ⟨s, List.mem_cons_self, ?_⟩
      intro ms hms
      rw [hparse] at hms
      cases hms
    | ok ms =>
      rw [hparse] at h
      obtain ⟨t, ht, hunreadable⟩ := ih h
      exact ⟨t, List.mem_cons_of_mem _ ht, hunreadable⟩

theorem jsMin_le {d e : Double} {x : JsNumber} (h : jsMin (.finite d) x = .finite e) : e.scaled ≤ d.scaled := by
  cases x with
  | nan => cases h
  | infinite neg =>
    cases neg with
    | true => cases h
    | false =>
      cases h
      exact Int.le_refl _
  | finite c =>
    rw [jsMin, JsNumber.lt] at h
    · by_cases hlt : c.scaled < d.scaled
      · rw [if_pos (decide_eq_true hlt)] at h
        cases h
        exact Int.le_of_lt hlt
      · rw [if_neg (fun h => hlt (of_decide_eq_true h))] at h
        cases h
        exact Int.le_refl _
    · exact fun h => by cases h
    · exact fun h => by cases h

theorem expires_iff {now : Int} {expiresInMinutes : JsNumber} {sources : List SignedAuthorityObject} {text : Str}
    (h : formatNumber (derivedExpiry now expiresInMinutes sources) = .ok text) :
    (∀ s ∈ sources, ∀ ms, parseRfc3339 (.str s.expiresAt) = .ok ms →
      ∃ expiry, parseRfc3339 (.str text) = .ok expiry ∧ expiry ≤ ms) ↔ ExpiryCarried now sources := by
  obtain ⟨d, hd, hformat, hparse⟩ := parse_of_formatNumber h
  rw [derivedExpiry] at hd
  cases hread : readExpiries (.infinite false) sources with
  | none =>
    rw [hread] at hd
    have hpast : d.trunc = now - 1 := trunc_of_ofInt hd hformat
    obtain ⟨s, hs, hunreadable⟩ := readExpiries_none hread
    have hcond : ExpiryCarried now sources ↔
        ∀ s ∈ sources, ∀ ms, parseRfc3339 (.str s.expiresAt) = .ok ms → now - 1 ≤ ms := by
      refine or_iff_right ?_
      intro hall
      obtain ⟨ms, hms⟩ := hall s hs
      exact hunreadable ms hms
    rw [hcond]
    refine forall_congr' (fun s => forall_congr' (fun _ => forall_congr' (fun ms => forall_congr' (fun _ => ?_))))
    constructor
    · intro hexpiry
      obtain ⟨expiry, hexpiry, hle⟩ := hexpiry
      rw [hparse] at hexpiry
      cases hexpiry
      rw [← hpast]
      exact hle
    · intro hle
      exact ⟨d.trunc, hparse, hpast ▸ hle⟩
  | some bound =>
    rw [hread] at hd
    obtain ⟨-, hall⟩ := readExpiries_some (.inl rfl) hread
    refine iff_of_true ?_ (.inl ?_)
    · intro s hs ms hms
      obtain ⟨ms', e, hms', hbound, hle⟩ := hall s hs
      rw [hms] at hms'
      cases hms'
      rw [hbound] at hd
      exact ⟨d.trunc, hparse, trunc_le (Int.le_trans (jsMin_le hd) hle)⟩
    · intro s hs
      obtain ⟨ms, e, hms, -⟩ := hall s hs
      exact ⟨ms, hms⟩

/-- A signer: under its key some signature verifies for every text. -/
def Signable (R : Runtime) : Prop :=
  ∃ publicKey, ∀ message, ∃ signature, signature ≠ [] ∧ R.verify message signature publicKey = true

/-- The label is read-only, or no leaf is and it stands for all the leaves do. -/
def Summarises (label : TaintLabel) (leaves : List TaintLabel) : Prop :=
  label.usage = .readOnly ∨
  (∀ leaf ∈ leaves, leaf.usage ≠ .readOnly) ∧ ∀ leaf ∈ leaves, ∀ q ∈ expanded leaf, q ∈ expanded label

section
variable {R : Runtime}

theorem blocks_iff {now : Int} {actionPrincipalId actionScope : Str} {permits : List CrossChainPermit}
    {labels : List TaintLabel} :
    Blocks R now actionPrincipalId actionScope permits labels ↔
      (∃ label ∈ labels, label.usage = .readOnly) ∨
      ∃ label ∈ labels, label.principalId ≠ actionPrincipalId ∧ ∃ q ∈ expanded label, q ≠ actionPrincipalId ∧
        ¬ Permitted R now ⟨⟨[], [], false⟩, actionPrincipalId, actionScope, permits, none⟩ q := by
  have hlabels : effectiveLabels ⟨mergeTaints labels, actionPrincipalId, actionScope, permits, none⟩ =
      (mergeTaints labels).labels := rfl
  rw [Blocks, blocked_iff, hlabels]
  simp only [mem_mergeTaints]
  refine or_congr_right (exists_congr (fun label => and_congr_right' (and_congr_right (fun hother => ?_))))
  simp only [mem_foreignSources hother, and_assoc]
  rfl

theorem blocks_of_summarises {now : Int} {actionPrincipalId actionScope : Str} {permits : List CrossChainPermit}
    {label : TaintLabel} {leaves : List TaintLabel} (hsentinel : actionPrincipalId ≠ MULTI_PRINCIPAL)
    (hproper : label.principalId = MULTI_PRINCIPAL ∨ label.sourcePrincipals = none) (h : Summarises label leaves)
    (hblocks : Blocks R now actionPrincipalId actionScope permits leaves) :
    Blocks R now actionPrincipalId actionScope permits [label] := by
  rw [blocks_iff] at hblocks ⊢
  obtain hread | ⟨hopen, hcovered⟩ := h
  · exact .inl ⟨label, List.mem_singleton_self _, hread⟩
  · obtain ⟨leaf, hleaf, hread⟩ | ⟨leaf, hleaf, hother, q, hq, hforeign, hnot⟩ := hblocks
    · exact absurd hread (hopen leaf hleaf)
    · refine .inr ⟨label, List.mem_singleton_self _, ?_, q, hcovered leaf hleaf q hq, hforeign, hnot⟩
      intro hown
      have hnone := hproper.resolve_left (fun hmulti => hsentinel (hown.symm.trans hmulti))
      have hself := hcovered leaf hleaf q hq
      rw [expanded, hnone] at hself
      exact hforeign ((List.mem_singleton.mp hself).trans hown)

def farExpiry : Str := lit "9999-12-31T23:59:59.999Z"

theorem permitPayload_signed (permit : CrossChainPermit) (source destination : Str) :
    permitPayload R { permit with sourceSignature := source, destinationSignature := destination } =
      permitPayload R permit := by
  have hbody : permitBody { permit with sourceSignature := source, destinationSignature := destination } =
      permitBody permit := rfl
  rw [permitPayload, hbody, permitPayload]

theorem exists_permit (hsign : Signable R) (opts : FlowRequest) (q : Str) : ∃ permit, Authorizes R 0 opts q permit := by
  obtain ⟨publicKey, hkey⟩ := hsign
  obtain ⟨draft, hdraft⟩ : ∃ draft : CrossChainPermit, draft =
      ⟨[], ⟨q, publicKey, []⟩, ⟨opts.actionPrincipalId, publicKey, [lit "*"]⟩, [], none, [], farExpiry, false, [], []⟩ :=
    ⟨_, rfl⟩
  have hsource : publicKey = draft.sourceContext.principalPublicKey := by rw [hdraft]
  have hdestination : publicKey = draft.destinationContext.principalPublicKey := by rw [hdraft]
  obtain ⟨signature, hsigned, hverify⟩ := hkey (permitPayload R draft)
  have hparse : parseRfc3339 (.str farExpiry) = .ok 253402300799999 := by decide
  refine ⟨{ draft with sourceSignature := signature, destinationSignature := signature }, ?_⟩
  constructor
  case unrevoked => rw [hdraft]
  case unexpired =>
    rw [hdraft]
    exact ⟨_, hparse, by decide⟩
  case source => rw [hdraft]
  case destination => rw [hdraft]
  case scope =>
    rw [hdraft]
    exact ⟨lit "*", List.mem_singleton_self _, rfl⟩
  case sourceSigned =>
    rw [permitPayload_signed]
    exact hsource ▸ hverify
  case countersigned =>
    rw [permitPayload_signed]
    exact ⟨hsigned, hdestination ▸ hverify⟩

theorem exists_permits (hsign : Signable R) (actionPrincipalId actionScope : Str) (names : List Str) :
    ∃ permits : List CrossChainPermit, ∀ q,
      Permitted R 0 ⟨⟨[], [], false⟩, actionPrincipalId, actionScope, permits, none⟩ q ↔ q ∈ names := by
  induction names with
  | nil => exact ⟨[], fun q => iff_of_false (fun ⟨_, hpermit, _⟩ => List.not_mem_nil hpermit) List.not_mem_nil⟩
  | cons name rest ih =>
    obtain ⟨permits, hpermits⟩ := ih
    obtain ⟨permit, hpermit⟩ := exists_permit hsign ⟨⟨[], [], false⟩, actionPrincipalId, actionScope, [], none⟩ name
    refine ⟨permit :: permits, ?_⟩
    intro q
    have hfirst : selectsPermit R 0 ⟨⟨[], [], false⟩, actionPrincipalId, actionScope, permit :: permits, none⟩ q permit =
        true ↔ q = name := by
      rw [selectsPermit_iff]
      constructor
      · intro h
        exact h.source.symm.trans hpermit.source
      · intro h
        rw [h]
        exact ⟨hpermit.unrevoked, hpermit.unexpired, hpermit.source, hpermit.destination, hpermit.scope,
          hpermit.sourceSigned, hpermit.countersigned⟩
    rw [Permitted, List.exists_mem_cons_iff, hfirst, List.mem_cons, ← hpermits q]
    rfl

theorem exists_fresh (names : List Str) : ∃ name, name ∉ names := by
  obtain ⟨name, hname⟩ := Infinite.exists_notMem_finset names.toFinset
  exact ⟨name, fun h => hname (List.mem_toFinset.mpr h)⟩

/-- A label that blocks with its leaves summarises them: else some stranger with permits from all the
label stands for would be let through with the label and not with the leaves. -/
theorem summarises_of_blocks (hsign : Signable R) {label : TaintLabel} {leaves : List TaintLabel}
    (h : ∀ now actionPrincipalId actionScope permits, actionPrincipalId ≠ MULTI_PRINCIPAL →
      Blocks R now actionPrincipalId actionScope permits leaves →
      Blocks R now actionPrincipalId actionScope permits [label]) : Summarises label leaves := by
  by_cases hread : label.usage = .readOnly
  · exact .inl hread
  · obtain ⟨stranger, hstranger⟩ := exists_fresh
      (MULTI_PRINCIPAL :: (leaves.map (·.principalId) ++ leaves.flatMap expanded))
    obtain ⟨hsentinel, hleaves⟩ := not_or.mp (mt List.mem_cons.mpr hstranger)
    obtain ⟨hids, hnames⟩ := not_or.mp (mt List.mem_append.mpr hleaves)
    obtain ⟨permits, hpermits⟩ := exists_permits hsign stranger [] (expanded label)
    have hopen : ¬ Blocks R 0 stranger [] permits [label] := by
      intro hblocks
      obtain ⟨l, hl, husage⟩ | ⟨l, hl, -, q, hq, -, hnot⟩ := blocks_iff.mp hblocks
      · rw [List.mem_singleton.mp hl] at husage
        exact hread husage
      · rw [List.mem_singleton.mp hl] at hq
        exact hnot ((hpermits q).mpr hq)
    have hleavesOpen := mt (h 0 stranger [] permits hsentinel) hopen
    refine .inr ⟨?_, ?_⟩
    · intro leaf hleaf husage
      exact hleavesOpen (blocks_iff.mpr (.inl ⟨leaf, hleaf, husage⟩))
    · intro leaf hleaf q hq
      by_contra hmissing
      refine hleavesOpen (blocks_iff.mpr (.inr ⟨leaf, hleaf, ?_, q, hq, ?_, mt (hpermits q).mp hmissing⟩))
      · intro hown
        exact hids (List.mem_map.mpr ⟨leaf, hleaf, hown⟩)
      · intro hown
        exact hnames (List.mem_flatMap.mpr ⟨leaf, hleaf, hown ▸ hq⟩)

theorem deriveSAO_cases {draw : Draw} {data monitorPrivateKey monitorPublicKey : Str} {expiresInMinutes : JsNumber}
    {sources : List SignedAuthorityObject} {sao : SignedAuthorityObject}
    (h : deriveSAO R draw data sources monitorPrivateKey monitorPublicKey expiresInMinutes = .ok sao) :
    ∃ primary rest, sources = primary :: rest ∧ sao.taint = derivedLabel draw primary.taint (primary :: rest) ∧
      formatNumber (derivedExpiry draw.now expiresInMinutes sources) = .ok sao.expiresAt := by
  cases sources with
  | nil => cases h
  | cons primary rest =>
    simp only [deriveSAO] at h
    obtain ⟨payload, -, hsigned⟩ := bind_eq_ok.mp h
    obtain ⟨signature, -, hwritten⟩ := bind_eq_ok.mp hsigned
    obtain ⟨expiresAt, hexpires, hresult⟩ := bind_eq_ok.mp hwritten
    have hsao := Except.ok.inj hresult
    refine ⟨primary, rest, rfl, ?_, ?_⟩
    · rw [← hsao]
    · rw [hexpires, ← hsao]

theorem Returned.source_of {call : DeriveCall} {sources : List Derivation} {sao : SignedAuthorityObject}
    (h : Returned R (.derive call sources sao)) {s : Derivation} (hs : s ∈ sources) : Returned R s := by
  intro call' sources' sao' hmem
  refine h call' sources' sao' ?_
  rw [Derivation.subtrees, subtreesOf_eq]
  exact List.mem_cons_of_mem _ (List.mem_flatMap.mpr ⟨s, hs, hmem⟩)

theorem mem_leaves_derive {call : DeriveCall} {sources : List Derivation} {sao leaf : SignedAuthorityObject} :
    leaf ∈ (Derivation.derive call sources sao).leaves ↔ ∃ s ∈ sources, leaf ∈ s.leaves := by
  rw [Derivation.leaves, leavesOf_eq, List.mem_flatMap]

theorem Returned.label {call : DeriveCall} {sources : List Derivation} {sao : SignedAuthorityObject}
    (h : Returned R (.derive call sources sao)) :
    ∃ primary rest, sources.map Derivation.object = primary :: rest ∧
      sao.taint = derivedLabel call.draw primary.taint (primary :: rest) ∧
      formatNumber (derivedExpiry call.draw.now call.expiresInMinutes (sources.map Derivation.object)) =
        .ok sao.expiresAt :=
  deriveSAO_cases (h call sources sao (mem_subtrees_self _))

theorem readOnly_leaf {t : Derivation} (h : Returned R t) (husage : t.object.taint.usage = .readOnly) :
    ∃ leaf ∈ t.leaves, leaf.taint.usage = .readOnly := by
  induction t using Derivation.induction with
  | source sao => exact ⟨sao, List.mem_singleton_self _, husage⟩
  | derive call sources sao ih =>
    obtain ⟨primary, rest, hsources, hlabel, -⟩ := h.label
    have hread : sao.taint.usage = .readOnly := husage
    rw [hlabel, readOnly_derivedLabel] at hread
    have hprimary : primary ∈ sources.map Derivation.object := hsources ▸ List.mem_cons_self
    obtain ⟨s, hs, rfl⟩ := List.mem_map.mp hprimary
    obtain ⟨leaf, hleaf, hreadLeaf⟩ := ih s hs (h.source_of hs) hread.1
    exact ⟨leaf, mem_leaves_derive.mpr ⟨s, hs, hleaf⟩, hreadLeaf⟩

section
variable {call : DeriveCall} {sources : List Derivation} {sao : SignedAuthorityObject}

theorem names_iff (h : Returned R (.derive call sources sao)) (hbelow : ∀ s ∈ sources, NamesLeaves s) :
    NamesLeaves (.derive call sources sao) ↔ NamesCarried (sources.map Derivation.object) := by
  obtain ⟨primary, rest, hsources, hlabel, -⟩ := h.label
  refine forall_congr' (fun q => ?_)
  have hnamed : q ∈ namedBy sao.taint ↔ IsSource (sources.map Derivation.object) q := by
    rw [hlabel, namedBy_derivedLabel, hsources]
  have hleaves : (∃ leaf ∈ (Derivation.derive call sources sao).leaves, q ∈ namedBy leaf.taint) ↔
      ∃ s ∈ sources.map Derivation.object, q ∈ namedBy s.taint := by
    constructor
    · intro hleaf
      obtain ⟨leaf, hleaf, hq⟩ := hleaf
      obtain ⟨s, hs, hmem⟩ := mem_leaves_derive.mp hleaf
      exact ⟨s.object, List.mem_map_of_mem hs, (hbelow s hs q).mpr ⟨leaf, hmem, hq⟩⟩
    · intro hsource
      obtain ⟨o, ho, hq⟩ := hsource
      obtain ⟨s, hs, rfl⟩ := List.mem_map.mp ho
      obtain ⟨leaf, hleaf, hq⟩ := (hbelow s hs q).mp hq
      exact ⟨leaf, mem_leaves_derive.mpr ⟨s, hs, hleaf⟩, hq⟩
  exact iff_congr hnamed hleaves

theorem summarises_iff (h : Returned R (.derive call sources sao))
    (hbelow : ∀ s ∈ sources, Summarises s.object.taint (s.leaves.map (·.taint)))
    (hnames : NamesCarried (sources.map Derivation.object)) :
    Summarises sao.taint ((Derivation.derive call sources sao).leaves.map (·.taint)) ↔
      UsageCarried (sources.map Derivation.object) := by
  obtain ⟨primary, rest, hsources, hlabel, -⟩ := h.label
  have hstands : ∀ q, q ∈ expanded sao.taint ↔ IsSource (sources.map Derivation.object) q := by
    intro q
    rw [hlabel, expanded_derivedLabel, hsources]
  have hread : sao.taint.usage = .readOnly ↔ primary.taint.usage = .readOnly ∧
      ∀ s ∈ sources.map Derivation.object, s.taint.principalId = primary.taint.principalId := by
    rw [hlabel, readOnly_derivedLabel, hsources]
  constructor
  · intro hsummary
    obtain hreadOnly | ⟨hopen, hcovered⟩ := hsummary
    · obtain ⟨husage, hsame⟩ := hread.mp hreadOnly
      exact .inl ⟨primary, rest, hsources, husage, hsame⟩
    · refine .inr ⟨?_, ?_⟩
      · intro o ho husage
        obtain ⟨s, hs, rfl⟩ := List.mem_map.mp ho
        obtain ⟨leaf, hleaf, hreadLeaf⟩ := readOnly_leaf (h.source_of hs) husage
        exact hopen leaf.taint (List.mem_map_of_mem (mem_leaves_derive.mpr ⟨s, hs, hleaf⟩)) hreadLeaf
      · intro o ho q hq
        obtain ⟨s, hs, rfl⟩ := List.mem_map.mp ho
        cases s with
        | source leaf =>
          have hleaf : leaf ∈ (Derivation.derive call sources sao).leaves :=
            mem_leaves_derive.mpr ⟨_, hs, List.mem_singleton_self leaf⟩
          exact (hstands q).mp (hcovered leaf.taint (List.mem_map_of_mem hleaf) q hq)
        | derive call' sources' sao' =>
          obtain ⟨primary', rest', -, hlabel', -⟩ := (h.source_of hs).label
          refine (hnames q).mpr ⟨sao', ho, ?_⟩
          rw [hlabel', namedBy_expanded derivedLabel_proper, ← hlabel']
          exact hq
  · intro husage
    obtain ⟨primary', rest', hsources', hreadOnly, hsame⟩ | ⟨hopen, hlisted⟩ := husage
    · rw [hsources] at hsources'
      cases hsources'
      exact .inl (hread.mpr ⟨hreadOnly, hsame⟩)
    · have hleaf : ∀ l ∈ (Derivation.derive call sources sao).leaves.map (·.taint), ∃ s ∈ sources,
          l ∈ s.leaves.map (·.taint) := by
        intro l hl
        obtain ⟨leaf, hleaf, rfl⟩ := List.mem_map.mp hl
        obtain ⟨s, hs, hmem⟩ := mem_leaves_derive.mp hleaf
        exact ⟨s, hs, List.mem_map_of_mem hmem⟩
      have hsource : ∀ s ∈ sources, (∀ l ∈ s.leaves.map (·.taint), l.usage ≠ .readOnly) ∧
          ∀ l ∈ s.leaves.map (·.taint), ∀ q ∈ expanded l, q ∈ expanded s.object.taint := by
        intro s hs
        exact (hbelow s hs).resolve_left (hopen s.object (List.mem_map_of_mem hs))
      refine .inr ⟨?_, ?_⟩
      · intro l hl
        obtain ⟨s, hs, hmem⟩ := hleaf l hl
        exact (hsource s hs).1 l hmem
      · intro l hl q hq
        obtain ⟨s, hs, hmem⟩ := hleaf l hl
        exact (hstands q).mpr (hlisted s.object (List.mem_map_of_mem hs) q ((hsource s hs).2 l hmem q hq))

theorem call_iff (hsign : Signable R) (h : Returned R (.derive call sources sao))
    (hbelow : ∀ s ∈ sources, Faithful R s) :
    Faithful R (.derive call sources sao) ↔ SourcesCarried (.derive call sources sao) := by
  obtain ⟨primary, rest, hsources, hlabel, hexpires⟩ := h.label
  have hnames := names_iff h (fun s hs => (hbelow s hs).names)
  have hexpiry : ExpiresFirst (.derive call sources sao) ↔
      ExpiryCarried call.draw.now (sources.map Derivation.object) := by
    rw [← expires_iff hexpires, ExpiresFirst, List.forall_mem_map]
  have hblocks : NamesCarried (sources.map Derivation.object) →
      (BlocksLikeLeaves R (.derive call sources sao) ↔ UsageCarried (sources.map Derivation.object)) := by
    intro hcarried
    rw [← summarises_iff h (fun s hs => summarises_of_blocks hsign (hbelow s hs).blocks) hcarried]
    constructor
    · exact summarises_of_blocks hsign
    · intro hsummary now actionPrincipalId actionScope permits hsentinel
      have hproper : sao.taint.principalId = MULTI_PRINCIPAL ∨ sao.taint.sourcePrincipals = none := by
        rw [hlabel]
        exact derivedLabel_proper
      exact blocks_of_summarises hsentinel hproper hsummary
  constructor
  · intro hfaithful
    have hcarried := hnames.mp hfaithful.names
    exact ⟨hcarried, (hblocks hcarried).mp hfaithful.blocks, hexpiry.mp hfaithful.expires⟩
  · intro hcarried
    exact ⟨hnames.mpr hcarried.1, hexpiry.mpr hcarried.2.2, (hblocks hcarried.1).mpr hcarried.2.1⟩

end

theorem faithful_source (sao : SignedAuthorityObject) : Faithful R (.source sao) where
  names := by
    intro q
    rw [Derivation.leaves]
    simp only [List.mem_singleton, exists_eq_left]
    rfl
  expires := trivial
  blocks := fun _ _ _ _ _ h => h

/-- Every derivation of a tree keeps the principals, the expiry and the blocks of its leaves if and
only if every call carries them over from its sources. -/
theorem derivations_faithful_iff (hsign : Signable R) {t : Derivation} (h : Returned R t) :
    (∀ u ∈ t.subtrees, Faithful R u) ↔ ∀ u ∈ t.subtrees, SourcesCarried u := by
  induction t using Derivation.induction with
  | source sao =>
    simp only [Derivation.subtrees, List.forall_mem_singleton]
    exact iff_of_true (faithful_source sao) trivial
  | derive call sources sao ih =>
    rw [Derivation.subtrees, subtreesOf_eq, List.forall_mem_cons, List.forall_mem_cons]
    have hsources : (∀ u ∈ sources.flatMap Derivation.subtrees, Faithful R u) ↔
        ∀ u ∈ sources.flatMap Derivation.subtrees, SourcesCarried u := by
      simp only [List.mem_flatMap]
      constructor
      · intro hall u hu
        obtain ⟨s, hs, hmem⟩ := hu
        exact (ih s hs (h.source_of hs)).mp (fun v hv => hall v ⟨s, hs, hv⟩) u hmem
      · intro hall u hu
        obtain ⟨s, hs, hmem⟩ := hu
        exact (ih s hs (h.source_of hs)).mpr (fun v hv => hall v ⟨s, hs, hv⟩) u hmem
    rw [hsources]
    refine and_congr_left (fun hcarried => ?_)
    apply call_iff hsign h
    intro s hs
    exact hsources.mpr hcarried s (List.mem_flatMap.mpr ⟨s, hs, mem_subtrees_self s⟩)

end

/-! Data of alice, read-only and not, and data of bob. -/

def sampleObject (ref : Nat) (principalId : Str) (usage : TaintUsage) : SignedAuthorityObject where
  saoId := lit "sao-1"
  data := lit "data"
  taint := ⟨ref, principalId, lit "chain", lit "del", usage, lit "2026-01-01T00:00:00.000Z", none⟩
  dataHash := []
  monitorSignature := []
  monitorPublicKey := []
  createdAt := lit "2026-01-01T00:00:00.000Z"
  expiresAt := lit "2026-01-01T01:00:00.000Z"

def samplePrivateKey : Str := (List.replicate 32 (lit "01")).flatten

def samplePublicKey : Str := lit "8a88e3dd7409f195fd52db2d3cba5d72ca6709bf1d94121bf3748801b40f6f5c"

def sampleDigest : Str := lit "761b7ad8ad439b2855fcbb611331c646ef0870b0631247bba3f3025cb6df5a53"

def aliceLabel : TaintLabel := (sampleObject 3 (lit "alice") .sameContextOnly).taint

def mixedLabel : TaintLabel := { aliceLabel with
  ref := 4
  principalId := MULTI_PRINCIPAL
  usage := .exportWithPermit
  sourcePrincipals := some [lit "alice", lit "bob"] }

def samplePayload (label : TaintLabel) : Str :=
  let body : JsValue := .obj [(lit "dataHash", .str sampleDigest), (lit "taint", labelValue label),
    (lit "monitorPublicKey", .str samplePublicKey), (lit "createdAt", .str (lit "2026-01-01T00:00:00.000Z"))]
  ((LegacyCanonical.canonicalizeForWrite (fun _ => []) (lit "$") body).toOption.bind id).getD []

def aliceSignature : Str :=
  lit "4ae939c64532db0eae43760c26968ed6c6c2a939f65755d0bfef19a3b7eed0cc" ++
    lit "9d0d31cf741d5e292c0cfa1a1707f69aa8a03b8ab7ab7e0763e92b835b42680e"

def mixedSignature : Str :=
  lit "4195cb243d790dfd1f0d7413ee51f45afd058ca7697a48ef67c4e50ff00b9834" ++
    lit "f9e9568e9e524145f870d169e607af6e5792d3e6dbcce570cb3b690e5305ba0d"

def sampleSignature (message : Str) : Str :=
  if message = samplePayload aliceLabel then aliceSignature
  else if message = samplePayload mixedLabel then mixedSignature
  else 0x53 :: message

def sampleRuntime : Runtime where
  numText _ := []
  sha256 := Sha256.ofTable [(utf8 (lit "summary"), sampleDigest)]
  sign message key := if key = samplePrivateKey then some (sampleSignature message) else none
  verify message signature key := key = samplePublicKey ∧ signature = sampleSignature message

def sampleCall (ref : Nat) (saoId : Str) : DeriveCall :=
  ⟨⟨ref, saoId, 1767225600000⟩, lit "summary", samplePrivateKey, samplePublicKey, .ofInt (60 : Nat)⟩

def sampleDerived (saoId : Str) (taint : TaintLabel) (monitorSignature : Str) : SignedAuthorityObject where
  saoId
  data := lit "summary"
  taint
  dataHash := sampleDigest
  monitorSignature
  monitorPublicKey := samplePublicKey
  createdAt := lit "2026-01-01T00:00:00.000Z"
  expiresAt := lit "2026-01-01T01:00:00.000Z"

theorem sample_signable : Signable sampleRuntime := by
  refine ⟨samplePublicKey, fun message => ⟨sampleSignature message, ?_, decide_eq_true ⟨rfl, rfl⟩⟩⟩
  rw [sampleSignature]
  split
  · decide
  · split
    · decide
    · exact List.cons_ne_nil _ _

theorem returned_source (R : Runtime) (sao : SignedAuthorityObject) : Returned R (.source sao) := by
  intro call sources sao' hmem
  cases List.mem_singleton.mp hmem

theorem returned_derive {R : Runtime} {call : DeriveCall} {sources : List Derivation} {sao : SignedAuthorityObject}
    (hcall : deriveSAO R call.draw call.data (sources.map Derivation.object) call.monitorPrivateKey
      call.monitorPublicKey call.expiresInMinutes = .ok sao)
    (h : ∀ s ∈ sources, Returned R s) : Returned R (.derive call sources sao) := by
  intro call' sources' sao' hmem
  rw [Derivation.subtrees, subtreesOf_eq, List.mem_cons, List.mem_flatMap] at hmem
  obtain hroot | ⟨s, hs, hmem⟩ := hmem
  · cases hroot
    exact hcall
  · exact h s hs _ _ _ hmem

def aliceDerivation (usage usage' : TaintUsage) : Derivation :=
  .derive (sampleCall 3 (lit "sao-derived-1"))
    [.source (sampleObject 1 (lit "alice") usage), .source (sampleObject 2 (lit "alice") usage')]
    (sampleDerived (lit "sao-derived-1") aliceLabel aliceSignature)

def mixedDerivation : Derivation :=
  .derive (sampleCall 4 (lit "sao-derived-2"))
    [aliceDerivation .sameContextOnly .unrestricted, .source (sampleObject 5 (lit "bob") .unrestricted)]
    (sampleDerived (lit "sao-derived-2") mixedLabel mixedSignature)

theorem alice_returned {usage' : TaintUsage} (h : usage' = .unrestricted ∨ usage' = .readOnly) :
    Returned sampleRuntime (aliceDerivation .sameContextOnly usage') := by
  refine returned_derive ?_ ?_
  · obtain rfl | rfl := h <;> decide +kernel
  · rw [List.forall_mem_cons, List.forall_mem_singleton]
    exact ⟨returned_source _ _, returned_source _ _⟩

theorem mixed_returned : Returned sampleRuntime mixedDerivation := by
  refine returned_derive (by decide +kernel) ?_
  rw [List.forall_mem_cons, List.forall_mem_singleton]
  exact ⟨alice_returned (.inl rfl), returned_source _ _⟩

/-- Over objects that are not read-only, name one principal each and have one readable expiry, a call
carries everything over. -/
theorem sample_carried {sources : List SignedAuthorityObject} (now : Int)
    (hnames : ∀ s ∈ sources, namedBy s.taint = [s.taint.principalId] ∧ expanded s.taint = [s.taint.principalId])
    (husage : ∀ s ∈ sources, s.taint.usage ≠ .readOnly)
    (hexpires : ∀ s ∈ sources, s.expiresAt = lit "2026-01-01T01:00:00.000Z") :
    NamesCarried sources ∧ UsageCarried sources ∧ ExpiryCarried now sources := by
  have hread : parseRfc3339 (.str (lit "2026-01-01T01:00:00.000Z")) = .ok 1767229200000 := by decide
  refine ⟨?_, .inr ⟨husage, ?_⟩, .inl ?_⟩
  · intro q
    rw [IsSource]
    refine exists_congr fun s => and_congr_right fun hs => ?_
    rw [(hnames s hs).1, List.mem_singleton, eq_comm]
  · intro s hs q hq
    rw [(hnames s hs).2, List.mem_singleton] at hq
    exact ⟨s, hs, hq.symm⟩
  · intro s hs
    exact ⟨_, hexpires s hs ▸ hread⟩

/-- Over what was derived from data of alice, and data of bob, a call keeps everything, as did the call
before it. -/
theorem derivation_faithful_mixed : Faithful sampleRuntime mixedDerivation ∧
    Faithful sampleRuntime (aliceDerivation .sameContextOnly .unrestricted) := by
  have hcarried : ∀ u ∈ mixedDerivation.subtrees, SourcesCarried u := by
    simp only [mixedDerivation, aliceDerivation, Derivation.subtrees, Derivation.subtreesOf, List.append_nil,
      List.cons_append, List.nil_append, List.forall_mem_cons, List.not_mem_nil, false_implies, implies_true,
      SourcesCarried, and_true, List.map_cons, List.map_nil, Derivation.object]
    constructor
    · apply sample_carried <;> decide
    · apply sample_carried <;> decide
  have hfaithful := (derivations_faithful_iff sample_signable mixed_returned).mpr hcarried
  refine ⟨hfaithful _ (mem_subtrees_self _), hfaithful _ ?_⟩
  exact List.mem_cons_of_mem _ List.mem_cons_self

/-- Read-only data of alice put behind other data of hers loses its mark: alice may act on the
derived object, and not on the two it was made from. -/
theorem derivation_launders :
    ¬ ∀ (R : Runtime) (t : Derivation), Signable R → Returned R t → ∀ u ∈ t.subtrees, Faithful R u := by
  intro h
  have hfaithful := h sampleRuntime _ sample_signable (alice_returned (.inr rfl)) _ (mem_subtrees_self _)
  have hblocked : Blocks sampleRuntime 0 (lit "alice") (lit "email:send") []
      [(sampleObject 1 (lit "alice") .sameContextOnly).taint, (sampleObject 2 (lit "alice") .readOnly).taint] :=
    blocks_iff.mpr (.inl ⟨_, List.mem_cons_of_mem _ (List.mem_singleton_self _), rfl⟩)
  have hallowed : (checkDataFlow sampleRuntime 0 ⟨mergeTaints [aliceLabel], lit "alice", lit "email:send", [],
      none⟩).verdict = .allowed := by
    decide
  have hderived := hfaithful.blocks 0 (lit "alice") (lit "email:send") [] (by decide) hblocked
  exact absurd (hallowed.symm.trans hderived) (by decide)

end AgentPassport.DerivedTaint
