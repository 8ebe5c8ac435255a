import AgentPassport.DecisionBinding

/-! The canonical constraints of a decision output (`v2/receipt-core/decision-ref.ts`): what the verifying side accepts
is what the issuing side leaves as it is. -/
namespace AgentPassport.NormalizedConstraints
open JsText Js Utf8 StrictRoundTrip Outcome ReceiptStage ReceiptVerify ReceiptEnvelope ReceiptReport
open DecisionRef DecisionBinding IssuedReceipt

theorem sortUtf8_perm (values : List Str) : (sortUtf8 values).Perm values := List.perm_insertionSort _ values

theorem sortUtf8_pairwise (values : List Str) : (sortUtf8 values).Pairwise (fun a b => utf8 a ≤ utf8 b) := by
  have : IsTrans Str (fun a b => utf8 a ≤ utf8 b) := ⟨fun _ _ _ => List.le_trans⟩
  have : Std.Total (fun a b : Str => utf8 a ≤ utf8 b) := ⟨fun a b => List.le_total (utf8 a) (utf8 b)⟩
  exact List.pairwise_insertionSort _ values

theorem sortUtf8_ascending {values : List Str} (hnodup : values.Nodup) (hwf : ∀ v ∈ values, WellFormed v) :
    (sortUtf8 values).Pairwise (fun a b => utf8 a < utf8 b) := by
  have hne : (sortUtf8 values).Pairwise (· ≠ ·) := (sortUtf8_perm values).nodup_iff.mpr hnodup
  refine List.Pairwise.imp_of_mem (fun {a b} ha hb hle => ?_) ((sortUtf8_pairwise values).and hne)
  have hwf' : ∀ v ∈ sortUtf8 values, WellFormed v := fun v hv => hwf v ((sortUtf8_perm values).mem_iff.mp hv)
  by_contra hnot
  exact hle.2 (utf8_inj (hwf' a ha) (hwf' b hb) (List.le_antisymm hle.1 (List.not_lt.mp hnot)))

theorem ascending_unique {xs ys : List Str} (hxs : xs.Pairwise (fun a b => utf8 a < utf8 b))
    (hys : ys.Pairwise (fun a b => utf8 a < utf8 b)) (hmem : ∀ v, v ∈ xs ↔ v ∈ ys) : xs = ys := by
  refine List.Perm.eq_of_pairwise (fun a b _ _ hab hba => ?_) hxs hys
    ((List.perm_ext_iff_of_nodup (nodup_of_ascending hxs) (nodup_of_ascending hys)).mpr hmem)
  exact absurd (List.lt_trans hab hba) (List.lt_irrefl _)

variable {cs : List Str}

theorem checkConstraints_ok {T : TextRuntime} : ∀ {i : Nat} {previous : Option Str},
    (∀ c ∈ cs, T.nfc c = c) → cs.Pairwise (fun a b => utf8 a < utf8 b) → (∀ p ∈ previous, ∀ c ∈ cs, utf8 p < utf8 c) →
      checkConstraints T i previous cs = .ok () := by
  induction cs with
  | nil => exact fun _ _ _ => rfl
  | cons c rest ih =>
    intro i previous hnfc hpairs hprevious
    obtain ⟨hnext, hrest⟩ := List.pairwise_cons.mp hpairs
    have hless : previous.all (fun p => utf8 p < utf8 c) = true := by
      cases previous with
      | none => rfl
      | some p => exact decide_eq_true (hprevious p rfl c List.mem_cons_self)
    have hother : previous.all (fun p => utf8 p ≠ utf8 c) = true := by
      cases previous with
      | none => rfl
      | some p => exact decide_eq_true (fun heq => List.lt_irrefl _ (heq ▸ hprevious p rfl c List.mem_cons_self))
    refine bind_unit_eq_ok.mpr ⟨?_, ih (fun d hd => hnfc d (List.mem_cons_of_mem c hd)) hrest ?_⟩
    · exact bind_unit_eq_ok.mpr ⟨checkNfc_eq_ok.mpr (hnfc c List.mem_cons_self),
        bind_unit_eq_ok.mpr ⟨require_eq_ok.mpr hother, require_eq_ok.mpr hless⟩⟩
    · exact fun p hp => Option.some.inj hp ▸ hnext

/-- The constraints as they are written for signing. -/
def canonical (nfc : Str → Str) (constraints : List Str) : List Str := sortUtf8 (distinct (constraints.map nfc))

section
variable {nfc : Str → Str} (hidem : ∀ s, nfc (nfc s) = nfc s) (hwf : ∀ s, WellFormed s → WellFormed (nfc s))

theorem mem_canonical (cs : List Str) (c : Str) : c ∈ canonical nfc cs ↔ ∃ d ∈ cs, nfc d = c := by
  rw [canonical, (sortUtf8_perm _).mem_iff, mem_distinct, List.mem_map]

include hidem in
theorem canonical_nfc (cs : List Str) : ∀ c ∈ canonical nfc cs, nfc c = c := by
  intro c hc
  obtain ⟨d, _, rfl⟩ := (mem_canonical cs c).mp hc
  exact hidem d

include hwf in
theorem canonical_wellFormed (h : ∀ c ∈ cs, WellFormed c) : ∀ c ∈ canonical nfc cs, WellFormed c := by
  intro c hc
  obtain ⟨d, hd, rfl⟩ := (mem_canonical cs c).mp hc
  exact hwf d (h d hd)

include hwf in
theorem canonical_ascending (h : ∀ c ∈ cs, WellFormed c) :
    (canonical nfc cs).Pairwise (fun a b => utf8 a < utf8 b) := by
  refine sortUtf8_ascending (nodup_distinct _) (fun v hv => ?_)
  obtain ⟨d, hd, rfl⟩ := List.mem_map.mp (mem_distinct.mp hv)
  exact hwf d (h d hd)

include hwf in
theorem canonical_congr {cs ds : List Str} (h : ∀ c ∈ cs, WellFormed c) (hsame : ∀ c, c ∈ ds ↔ c ∈ cs) :
    canonical nfc ds = canonical nfc cs := by
  refine ascending_unique (canonical_ascending hwf (fun c hc => h c ((hsame c).mp hc))) (canonical_ascending hwf h)
    (fun v => ?_)
  rw [mem_canonical, mem_canonical]
  exact exists_congr fun d => and_congr_left fun _ => hsame d

include hidem hwf in

end

/-- `{ ...x, constraints }`. -/
def withConstraints (constraints : List Str) (x : JsValue) : JsValue :=
  setField "constraints" (.arr (constraints.map .str)) x

theorem constraintsOf_arr {members : List (Str × JsValue)}
    (h : (JsValue.obj members).get (lit "constraints") = .arr (cs.map .str)) : constraintsOf (.obj members) = cs := by
  rw [constraintsOf, h]
  exact (List.map_map ..).trans (List.map_id cs)

theorem normalize_ok {R : Runtime} {x : JsValue} (hshape : assertCoreDecisionOutputShapeV1 R.toTextRuntime x = .ok ()) :
    normalizeCoreDecisionOutputV1 R x = .ok (withConstraints (canonical R.nfc (constraintsOf x)) x) :=
  bind_unit_eq_ok.mpr ⟨hshape, rfl⟩

section
variable {R : Runtime} {x : JsValue} (hkeyed : keyed x = true)
  (hshape : assertCoreDecisionOutputShapeV1 R.toTextRuntime x = .ok ())

include hkeyed hshape

theorem shape_spec : ∃ members, x = .obj members ∧ lit "constraints" ∈ members.map Prod.fst ∧
    ∀ c ∈ constraintsOf x, WellFormed c := by
  obtain ⟨hkeys, hrest⟩ := bind_unit_eq_ok.mp hshape
  obtain ⟨hstrict, hrest⟩ := bind_unit_eq_ok.mp hrest
  obtain ⟨-, hrest⟩ := bind_unit_eq_ok.mp hrest
  obtain ⟨-, hrest⟩ := bind_unit_eq_ok.mp hrest
  obtain ⟨-, hrest⟩ := bind_unit_eq_ok.mp hrest
  have hstrings := strings_eq (require_eq_ok.mp (bind_unit_eq_ok.mp hrest).1)
  obtain ⟨members, rfl, -, hrequired⟩ := (assertExactKeys_eq_ok (by decide)).mp hkeys
  refine ⟨members, rfl, hrequired _ (by decide), fun c hc => ?_⟩
  have hthere : (JsValue.obj members).get (lit "constraints") ≠ .undefined := by
    rw [hstrings]
    exact fun heq => JsValue.noConfusion heq
  have hvalue := (iJson_obj.mp ((assertStrict_eq_ok hkeyed).mp hstrict) _ (mem_of_get hthere)).2
  rw [hstrings] at hvalue
  exact iJson_str.mp (iJson_arr.mp hvalue _ (List.mem_map_of_mem hc))

theorem shape_with (hcs : ∀ c ∈ cs, WellFormed c) : keyed (withConstraints cs x) = true ∧
      assertCoreDecisionOutputShapeV1 R.toTextRuntime (withConstraints cs x) = .ok () ∧
      constraintsOf (withConstraints cs x) = cs := by
  obtain ⟨members, rfl, hmem, -⟩ := shape_spec hkeyed hshape
  obtain ⟨hkeys, hrest⟩ := bind_unit_eq_ok.mp hshape
  obtain ⟨hstrict, hrest⟩ := bind_unit_eq_ok.mp hrest
  obtain ⟨hprofile, hrest⟩ := bind_unit_eq_ok.mp hrest
  obtain ⟨hverdict, hrest⟩ := bind_unit_eq_ok.mp hrest
  obtain ⟨hauthority, hrest⟩ := bind_unit_eq_ok.mp hrest
  have huntil := (bind_unit_eq_ok.mp hrest).2
  obtain ⟨_, hsame, hallowed, hrequired⟩ := (assertExactKeys_eq_ok (by decide)).mp hkeys
  obtain rfl := JsValue.obj.inj hsame
  have hstrs : ∀ v ∈ cs.map JsValue.str, IJson v ∧ keyed v = true ∧ isStr v = true := by
    intro v hv
    obtain ⟨c, hc, rfl⟩ := List.mem_map.mp hv
    exact ⟨iJson_str.mpr (hcs c hc), rfl, rfl⟩
  have hkeyed' : keyed (withConstraints cs (.obj members)) = true :=
    keyed_setField hkeyed (keyedItems_iff.mpr (fun v hv => (hstrs v hv).2.1))
  have hself : (withConstraints cs (.obj members)).get (lit "constraints") = .arr (cs.map .str) := get_setMember_self
  have hother : ∀ {name : Str}, name ≠ lit "constraints" →
      (withConstraints cs (.obj members)).get name = (JsValue.obj members).get name := fun h => get_setMember_ne h
  refine ⟨hkeyed', ?_, constraintsOf_arr hself⟩
  refine bind_unit_eq_ok.mpr ⟨?_, bind_unit_eq_ok.mpr ⟨?_, bind_unit_eq_ok.mpr ⟨?_, bind_unit_eq_ok.mpr ⟨?_,
    bind_unit_eq_ok.mpr ⟨?_, bind_unit_eq_ok.mpr ⟨?_, ?_⟩⟩⟩⟩⟩⟩
  · have hname : lit "constraints" ∈ DECISION_OUTPUT_MEMBERS := by decide
    refine (assertExactKeys_eq_ok (by decide)).mpr ⟨_, rfl, forall_setMember hallowed hname, fun key hkey => ?_⟩
    rw [setMember_names hmem]
    exact hrequired key hkey
  · have hname : WellFormed (lit "constraints") := by decide
    refine (assertStrict_eq_ok hkeyed').mpr (iJson_obj.mpr (forall_setMember ?_ ⟨hname, iJson_arr.mpr ?_⟩))
    · exact iJson_obj.mp ((assertStrict_eq_ok hkeyed).mp hstrict)
    · exact fun v hv => (hstrs v hv).1
  · rw [hother (by decide)]
    exact hprofile
  · rw [hother (by decide)]
    exact hverdict
  · rw [checkAuthorityRef, hother (by decide), hother (by decide)]
    exact hauthority
  · rw [hself]
    exact require_eq_ok.mpr (List.all_eq_true.mpr (fun v hv => (hstrs v hv).2.2))
  · rw [checkValidUntil, hother (by decide), hother (by decide)]
    exact huntil

theorem with_with (cs ds : List Str) : withConstraints ds (withConstraints cs x) = withConstraints ds x := by
  obtain ⟨members, rfl, hmem, -⟩ := shape_spec hkeyed hshape
  exact congrArg JsValue.obj (setMember_setMember hmem)

end

/-- What the verifying side says of an output and its normal form. -/
structure FixedPoint (R : Runtime) (x y : JsValue) : Prop where
  accepted : validateCoreDecisionOutputV1 R.toTextRuntime x = .ok () ↔ constraintsOf y = constraintsOf x
  fixed : validateCoreDecisionOutputV1 R.toTextRuntime x = .ok () ↔ y = x
  valid : validateCoreDecisionOutputV1 R.toTextRuntime y = .ok ()
  idempotent : normalizeCoreDecisionOutputV1 R y = .ok y
  unordered : ∀ cs, (∀ c, c ∈ cs ↔ c ∈ constraintsOf x) → normalizeCoreDecisionOutputV1 R (withConstraints cs x) = .ok y

/-- The verifying side accepts the fixed points of the issuing side: normalizing gives one, the same for every order and
multiplicity of the constraints. NFC is any idempotent function that makes no lone surrogates. -/
theorem validate_iff_fixed {R : Runtime} (hidem : ∀ s, R.nfc (R.nfc s) = R.nfc s)
    (hwf : ∀ s, WellFormed s → WellFormed (R.nfc s)) {x : JsValue} (hkeyed : keyed x = true)
    (hshape : assertCoreDecisionOutputShapeV1 R.toTextRuntime x = .ok ()) :
    ∃ y, normalizeCoreDecisionOutputV1 R x = .ok y ∧ FixedPoint R x y := by
  obtain ⟨-, -, -, hconstraints⟩ := shape_spec hkeyed hshape
  have hcanonical := canonical_wellFormed hwf hconstraints
  obtain ⟨hkeyed', hshape', hof⟩ := shape_with hkeyed hshape hcanonical
  have hnormal := normalize_ok hshape
  have hvalid : ∀ {z : JsValue}, assertCoreDecisionOutputShapeV1 R.toTextRuntime z = .ok () →
      constraintsOf z = canonical R.nfc (constraintsOf x) → validateCoreDecisionOutputV1 R.toTextRuntime z = .ok () := by
    intro z hz heq
    refine bind_unit_eq_ok.mpr ⟨hz, ?_⟩
    rw [heq]
    exact checkConstraints_ok (canonical_nfc hidem _) (canonical_ascending hwf hconstraints) nofun
  have hnormalize : ∀ {z : JsValue}, keyed z = true → validateCoreDecisionOutputV1 R.toTextRuntime z = .ok () →
      normalizeCoreDecisionOutputV1 R z = .ok z := fun hz h => (normalize_eq hz h).1
  refine ⟨_, hnormal, ⟨fun h => ?_, fun h => ?_⟩, ⟨fun h => ?_, fun h => ?_⟩, hvalid hshape' hof, ?_, fun cs hcs => ?_⟩
  · rw [Except.ok.inj (hnormal.symm.trans (hnormalize hkeyed h))]
  · exact hvalid hshape (h.symm.trans hof)
  · exact Except.ok.inj (hnormal.symm.trans (hnormalize hkeyed h))
  · exact hvalid hshape ((congrArg constraintsOf h).symm.trans hof)
  · exact hnormalize hkeyed' (hvalid hshape' hof)
  · have hcswf : ∀ c ∈ cs, WellFormed c := fun c hc => hconstraints c ((hcs c).mp hc)
    obtain ⟨hkeyed'', hshape'', hof'⟩ := shape_with hkeyed hshape hcswf
    rw [normalize_ok hshape'', hof', canonical_congr hwf hconstraints hcs, with_with hkeyed hshape]

/-- A denial with its constraints out of order and one of them twice. -/
def sampleOutput : JsValue :=
  .obj [(lit "profile", .str (lit "aps-core-decision-output-v1")), (lit "verdict", .str (lit "deny")),
    (lit "effective_authority_ref", .null), (lit "constraints", .arr [.str (lit "b"), .str (lit "a"), .str (lit "b")]),
    (lit "valid_until", .null)]

theorem validate_iff_fixed_sample :
    ∃ y, normalizeCoreDecisionOutputV1 permitRuntime sampleOutput = .ok y ∧ FixedPoint permitRuntime sampleOutput y :=
  validate_iff_fixed (fun _ => rfl) (fun _ h => h) (by decide) (by rfl)

end AgentPassport.NormalizedConstraints
