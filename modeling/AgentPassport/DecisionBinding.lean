import AgentPassport.CanonicalBytes
import AgentPassport.DecisionRef
import AgentPassport.SpelledReceipt
import AgentPassport.UtcMilliseconds

/-! A decision reference binds the decision, and what a valid receipt with its decision establishes. -/
namespace AgentPassport.DecisionBinding
open JsText Js Utf8 Sha256
open CanonicalInjective CanonicalBytes StrictRoundTrip Outcome ReceiptSchema ReceiptStage ReceiptVerify
open ReceiptEnvelope ReceiptReport SpelledReceipt DecisionRef UtcMilliseconds

section
variable {T : TextRuntime}

theorem checkNfc_eq_ok {i : Nat} {c : Str} : checkNfc T i c = .ok () ↔ T.nfc c = c := by
  rw [checkNfc]
  constructor
  · intro h
    by_contra hne
    rw [if_pos hne] at h
    cases h
  · intro h
    rw [if_neg (not_not.mpr h)]
    rfl

theorem checkConstraints_eq_ok {cs : List Str} : ∀ {i : Nat} {previous : Option Str},
    checkConstraints T i previous cs = .ok () →
      (∀ c ∈ cs, T.nfc c = c) ∧ cs.Pairwise (fun a b => utf8 a < utf8 b) ∧
        ∀ p ∈ previous, ∀ c ∈ cs, utf8 p < utf8 c := by
  induction cs with
  | nil =>
    intro i previous _
    exact ⟨List.forall_mem_nil _, .nil, fun _ _ => List.forall_mem_nil _⟩
  | cons c rest ih =>
    intro i previous h
    obtain ⟨hc, hrest⟩ := bind_unit_eq_ok.mp h
    obtain ⟨hnfc, hc⟩ := bind_unit_eq_ok.mp hc
    obtain ⟨-, hsorted⟩ := bind_unit_eq_ok.mp hc
    obtain ⟨hnfcs, hpairs, hafter⟩ := ih hrest
    have hnext := hafter c rfl
    have hprevious : ∀ p ∈ previous, utf8 p < utf8 c := by
      intro p hp
      rw [Option.mem_def] at hp
      rw [hp, require_eq_ok, Option.all_some, decide_eq_true_eq] at hsorted
      exact hsorted
    refine ⟨List.forall_mem_cons.mpr ⟨checkNfc_eq_ok.mp hnfc, hnfcs⟩, List.pairwise_cons.mpr ⟨hnext, hpairs⟩, ?_⟩
    intro p hp
    refine List.forall_mem_cons.mpr ⟨hprevious p hp, fun d hd => ?_⟩
    exact List.lt_trans (hprevious p hp) (hnext d hd)

variable {values : List Str}

theorem distinct_eq (h : values.Nodup) : distinct values = values := by
  rw [distinct]
  induction values with
  | nil => rfl
  | cons v rest ih =>
    obtain ⟨hv, hrest⟩ := List.nodup_cons.mp h
    have hkeep : rest.filter (fun b => !b == v) = rest := by
      refine List.filter_eq_self.mpr (fun b hb => ?_)
      have hne : b ≠ v := fun heq => hv (heq ▸ hb)
      simp [hne]
    rw [List.eraseDups_cons, hkeep, ih hrest]

theorem sortUtf8_eq (h : values.Pairwise (fun a b => utf8 a < utf8 b)) : sortUtf8 values = values := by
  refine List.Pairwise.insertionSort_eq (h.imp ?_)
  intro a b hab
  exact List.le_of_lt hab

theorem nodup_of_ascending (h : values.Pairwise (fun a b => utf8 a < utf8 b)) : values.Nodup := by
  refine h.imp ?_
  intro a b hab heq
  rw [heq] at hab
  exact List.lt_irrefl _ hab

theorem strings_eq {v : JsValue} (h : isStrings v = true) : v = .arr (((items v).map text).map .str) := by
  cases v with
  | arr list =>
    rw [isStrings, List.all_eq_true] at h
    have htexts : (list.map text).map JsValue.str = list := by
      rw [List.map_map]
      refine (List.map_congr_left ?_).trans (List.map_id list)
      intro item hitem
      have hstr := h item hitem
      cases item with
      | str s => rfl
      | _ => cases hstr
    exact congrArg JsValue.arr htexts.symm
  | _ => cases h

theorem setMember_get {members : List (Str × JsValue)} {name : Str} (hnames : (members.map Prod.fst).Nodup)
    (hthere : (JsValue.obj members).get name ≠ .undefined) :
    setMember name ((JsValue.obj members).get name) members = members := by
  have hmem := mem_of_get hthere
  rw [setMember_present (List.mem_map_of_mem hmem)]
  refine (List.map_congr_left ?_).trans (List.map_id members)
  intro m hm
  by_cases hname : m.1 = name
  · rw [if_pos hname]
    exact List.inj_on_of_nodup_map hnames hmem hm hname.symm
  · rw [if_neg hname]
    rfl

variable {R : Runtime} {out : JsValue}

theorem normalize_eq (hkeyed : keyed out = true) (h : validateCoreDecisionOutputV1 R.toTextRuntime out = .ok ()) :
    normalizeCoreDecisionOutputV1 R out = .ok out ∧ IJson out := by
  obtain ⟨hshape, hconstraints⟩ := bind_unit_eq_ok.mp h
  obtain ⟨hnfc, hpairs, -⟩ := checkConstraints_eq_ok hconstraints
  obtain ⟨hkeys, hrest⟩ := bind_unit_eq_ok.mp hshape
  obtain ⟨hstrict, hrest⟩ := bind_unit_eq_ok.mp hrest
  obtain ⟨-, hrest⟩ := bind_unit_eq_ok.mp hrest
  obtain ⟨-, hrest⟩ := bind_unit_eq_ok.mp hrest
  obtain ⟨-, hrest⟩ := bind_unit_eq_ok.mp hrest
  have hstrings := require_eq_ok.mp (bind_unit_eq_ok.mp hrest).1
  obtain ⟨members, rfl, -⟩ := (assertExactKeys_eq_ok (by decide)).mp hkeys
  have hmap : (constraintsOf (.obj members)).map R.nfc = constraintsOf (.obj members) :=
    (List.map_congr_left hnfc).trans (List.map_id _)
  have hnodup := nodup_of_ascending hpairs
  have hget := strings_eq hstrings
  have hthere : (JsValue.obj members).get (lit "constraints") ≠ .undefined := by
    rw [hget]
    exact fun heq => JsValue.noConfusion heq
  refine ⟨?_, (assertStrict_eq_ok hkeyed).mp hstrict⟩
  refine bind_unit_eq_ok.mpr ⟨hshape, ?_⟩
  rw [hmap, distinct_eq hnodup, sortUtf8_eq hpairs, constraintsOf]
  dsimp only
  rw [← hget]
  exact congrArg (fun ms => Except.ok (JsValue.obj ms)) (setMember_get (keyed_obj.mp hkeyed).1 hthere)

end

section
variable (R : Runtime)

/-- The decision evidence is made of JavaScript objects, whose names differ. -/
def Keyed (d : DecisionEvidenceV1) : Prop :=
  keyed d.authority_state = true ∧ keyed d.policy_input = true ∧ keyed d.decision_context = true ∧
    keyed d.decision_output = true

def componentText (component : Component) (v : JsValue) : Str := tagged component.tag (emit R.numText v)

def refInputOf (action_ref : Str) (d : DecisionEvidenceV1) : DecisionRefInputV1 where
  action_ref
  authority_state_ref := sha256Hex R (componentText R .authority d.authority_state)
  policy_ref := sha256Hex R (componentText R .policy d.policy_input)
  context_ref := sha256Hex R (componentText R .context d.decision_context)
  decision_output_ref := sha256Hex R (componentText R .output d.decision_output)

def refText (action_ref : Str) (d : DecisionEvidenceV1) : Str :=
  tagged DECISION_REF_TAG (emit R.numText (refInputOf R action_ref d).toJs)

def decisionInputs (action_ref : Str) (d : DecisionEvidenceV1) : List (List UInt8) :=
  [utf8 (componentText R .authority d.authority_state), utf8 (componentText R .policy d.policy_input),
    utf8 (componentText R .context d.decision_context), utf8 (componentText R .output d.decision_output),
    utf8 (refText R action_ref d)]

/-- The four parts are I-JSON. -/
structure PlainDecision (d : DecisionEvidenceV1) : Prop where
  authority_state : Plain d.authority_state
  policy_input : Plain d.policy_input
  decision_context : Plain d.decision_context
  decision_output : Plain d.decision_output

variable {R} {action_ref : Str} {d : DecisionEvidenceV1}

theorem computeComponent_eq_ok {component : Component} {v : JsValue} {ref : Str} (hkeyed : keyed v = true)
    (h : computeDecisionComponentRefV1 R component v = .ok ref) :
    Plain v ∧ ref = sha256Hex R (componentText R component v) := by
  obtain ⟨canonical, hcanonical, hpure⟩ := bind_eq_ok.mp h
  obtain ⟨hijson, rfl⟩ := (IssuedReceipt.strictText_eq_ok hkeyed).mp hcanonical
  cases hpure
  exact ⟨⟨hijson, hkeyed⟩, rfl⟩

theorem keyed_toJs (input : DecisionRefInputV1) : keyed input.toJs = true := by
  have hnames : DECISION_REF_MEMBERS.Nodup := by decide
  refine IssuedReceipt.keyed_texts hnames ?_
  simp only [List.forall_mem_cons]
  exact ⟨rfl, rfl, rfl, rfl, rfl, rfl, List.forall_mem_nil _⟩

theorem recompute_eq_ok {receipt : JsValue} {ref : Str} (hkeyed : Keyed d) (h : recomputeDecisionRef R receipt d = .ok ref) :
    PlainDecision d ∧ Plain (refInputOf R (text (receipt.get (lit "action_ref"))) d).toJs ∧
      ref = sha256Hex R (refText R (text (receipt.get (lit "action_ref"))) d) := by
  obtain ⟨hvalid, hbuild⟩ := bind_unit_eq_ok.mp h
  obtain ⟨-, hbuild⟩ := bind_unit_eq_ok.mp hbuild
  obtain ⟨refInput, hinput, href⟩ := bind_eq_ok.mp hbuild
  obtain ⟨hnormal, hijson⟩ := normalize_eq hkeyed.2.2.2 hvalid
  obtain ⟨normalized, hnormalized, hinput⟩ := bind_eq_ok.mp hinput
  rw [hnormal] at hnormalized
  cases hnormalized
  obtain ⟨authority, hauthority, hinput⟩ := bind_eq_ok.mp hinput
  obtain ⟨policy, hpolicy, hinput⟩ := bind_eq_ok.mp hinput
  obtain ⟨context, hcontext, hinput⟩ := bind_eq_ok.mp hinput
  obtain ⟨output, houtput, hinput⟩ := bind_eq_ok.mp hinput
  cases hinput
  obtain ⟨hauthorityPlain, rfl⟩ := computeComponent_eq_ok hkeyed.1 hauthority
  obtain ⟨hpolicyPlain, rfl⟩ := computeComponent_eq_ok hkeyed.2.1 hpolicy
  obtain ⟨hcontextPlain, rfl⟩ := computeComponent_eq_ok hkeyed.2.2.1 hcontext
  obtain ⟨houtputPlain, rfl⟩ := computeComponent_eq_ok hkeyed.2.2.2 houtput
  obtain ⟨-, href⟩ := bind_unit_eq_ok.mp href
  obtain ⟨canonical, hcanonical, hpure⟩ := bind_eq_ok.mp href
  obtain ⟨hrefJson, rfl⟩ := (IssuedReceipt.strictText_eq_ok (keyed_toJs _)).mp hcanonical
  cases hpure
  exact ⟨⟨hauthorityPlain, hpolicyPlain, hcontextPlain, houtputPlain⟩, ⟨hrefJson, keyed_toJs _⟩, rfl⟩

theorem tagged_text {tag t : Str} (htag : WellFormed tag) (ht : WellFormed t) : WellFormed (tagged tag t) := by
  have hzero : WellFormed [0] := by decide
  exact wellFormed_append htag (wellFormed_append hzero ht)

theorem tag_text (component : Component) : WellFormed component.tag := by
  cases component <;> decide

theorem tagged_inj {tag t u : Str} (h : tagged tag t = tagged tag u) : t = u :=
  List.cons.inj (List.append_cancel_left h) |>.2

theorem sha256Hex_inj {inputs : List (List UInt8)} (hfree : CollisionFree R.sha256 inputs) {s t : Str}
    (hs : utf8 s ∈ inputs) (ht : utf8 t ∈ inputs) (hsText : WellFormed s) (htText : WellFormed t)
    (h : sha256Hex R s = sha256Hex R t) : s = t :=
  utf8_inj hsText htText (hfree _ hs _ ht (hex_inj h))

theorem mem_decisionInputs (action_ref : Str) (d : DecisionEvidenceV1) :
    utf8 (componentText R .authority d.authority_state) ∈ decisionInputs R action_ref d ∧
      utf8 (componentText R .policy d.policy_input) ∈ decisionInputs R action_ref d ∧
      utf8 (componentText R .context d.decision_context) ∈ decisionInputs R action_ref d ∧
      utf8 (componentText R .output d.decision_output) ∈ decisionInputs R action_ref d ∧
      utf8 (refText R action_ref d) ∈ decisionInputs R action_ref d := by
  simp only [decisionInputs, List.mem_cons, true_or, or_true, and_self]

section
variable (hnum : NumberRendering R.numText)
include hnum

theorem component_inj {inputs : List (List UInt8)} (hfree : CollisionFree R.sha256 inputs) {component : Component}
    {v w : JsValue} (hv : Plain v) (hw : Plain w) (hvin : utf8 (componentText R component v) ∈ inputs)
    (hwin : utf8 (componentText R component w) ∈ inputs)
    (h : sha256Hex R (componentText R component v) = sha256Hex R (componentText R component w)) :
    emit R.numText v = emit R.numText w := by
  have htext : ∀ {u : JsValue}, Plain u → WellFormed (componentText R component u) :=
    fun hu => tagged_text (tag_text component) (emit_text hnum hu.isJson)
  exact tagged_inj (sha256Hex_inj hfree hvin hwin (htext hv) (htext hw) h)

theorem decisions_agree {e : DecisionEvidenceV1} (hd : PlainDecision d) (he : PlainDecision e)
    (hdRef : Plain (refInputOf R action_ref d).toJs) (heRef : Plain (refInputOf R action_ref e).toJs)
    (hfree : CollisionFree R.sha256 (decisionInputs R action_ref d ++ decisionInputs R action_ref e))
    (h : sha256Hex R (refText R action_ref d) = sha256Hex R (refText R action_ref e)) :
    emit R.numText d.authority_state = emit R.numText e.authority_state ∧
      emit R.numText d.policy_input = emit R.numText e.policy_input ∧
      emit R.numText d.decision_context = emit R.numText e.decision_context ∧
      emit R.numText d.decision_output = emit R.numText e.decision_output := by
  have htag : WellFormed DECISION_REF_TAG := by decide
  obtain ⟨hdAuthority, hdPolicy, hdContext, hdOutput, hdText⟩ := @mem_decisionInputs R action_ref d
  obtain ⟨heAuthority, hePolicy, heContext, heOutput, heText⟩ := @mem_decisionInputs R action_ref e
  have htexts : refText R action_ref d = refText R action_ref e :=
    sha256Hex_inj hfree (List.mem_append_left _ hdText) (List.mem_append_right _ heText)
      (tagged_text htag (emit_text hnum hdRef.isJson)) (tagged_text htag (emit_text hnum heRef.isJson)) h
  have hsame := (emit_eq_iff hnum hdRef.isJson heRef.isJson).mp (tagged_inj htexts)
  have hmember : ∀ name : String, text ((refInputOf R action_ref d).toJs.get (lit name)) =
      text ((refInputOf R action_ref e).toJs.get (lit name)) := fun name => text_same (get_same (.inr hsame) name)
  refine ⟨?_, ?_, ?_, ?_⟩
  · exact component_inj hnum hfree hd.authority_state he.authority_state (List.mem_append_left _ hdAuthority)
      (List.mem_append_right _ heAuthority) (hmember "authority_state_ref")
  · exact component_inj hnum hfree hd.policy_input he.policy_input (List.mem_append_left _ hdPolicy)
      (List.mem_append_right _ hePolicy) (hmember "policy_ref")
  · exact component_inj hnum hfree hd.decision_context he.decision_context (List.mem_append_left _ hdContext)
      (List.mem_append_right _ heContext) (hmember "context_ref")
  · exact component_inj hnum hfree hd.decision_output he.decision_output (List.mem_append_left _ hdOutput)
      (List.mem_append_right _ heOutput) (hmember "decision_output_ref")

end

end

section
variable {R : Runtime} {receipt : JsValue} {d : DecisionEvidenceV1} {p : Option JsValue}
  {bound result : ReceiptWithDecisionVerificationV1}

def TemporalHolds (receipt : JsValue) (d : DecisionEvidenceV1) (stage : StageResult) : Prop :=
  isNull (d.decision_output.get (lit "valid_until")) = true ∨
    isUtcText (receipt.get (lit "issued_at")) = true ∧ isUtcText (d.decision_output.get (lit "valid_until")) = true ∧
      (isPolicyDecision stage = true → isLaterUtcMillisecond (text (d.decision_output.get (lit "valid_until")))
        (text (receipt.get (lit "issued_at"))) = true)

theorem temporal_valid_iff (hbound : bound.status ≠ .valid) :
    (temporalStage receipt d bound).status = .valid ↔
      bound.predecessor_bound ≠ .not_established ∧ TemporalHolds receipt d bound.stage := by
  have hpass : (if bound.predecessor_bound = .not_established then Status.indeterminate else .valid) = .valid ↔
      bound.predecessor_bound ≠ .not_established := by
    by_cases h : bound.predecessor_bound = .not_established
    · rw [if_pos h]
      exact iff_of_false (fun heq => Status.noConfusion heq) (not_not.mpr h)
    · rw [if_neg h]
      exact iff_of_true rfl h
  rw [temporalStage, TemporalHolds]
  generalize isNull (d.decision_output.get (lit "valid_until")) = null
  generalize isUtcText (receipt.get (lit "issued_at")) = issued
  generalize isUtcText (d.decision_output.get (lit "valid_until")) = expiry
  generalize isPolicyDecision bound.stage = policy
  generalize isLaterUtcMillisecond _ _ = later
  cases null with
  | true => simp [hpass]
  | false => cases issued <;> cases expiry <;> cases policy <;> cases later <;> simp [hbound, hpass]

def PredecessorPasses (R : Runtime) (receipt : JsValue) (p : Option JsValue) : Prop :=
  ∃ stage, predecessorStage R receipt p = .ok stage ∧ stage.bound ≠ .not_bound ∧ stage.bound ≠ .not_established

theorem predecessor_valid_iff (hbound : bound.status ≠ .valid) :
    (∃ result, predecessorThenTemporal R receipt d p bound = .ok result ∧ result.status = .valid) ↔
      PredecessorPasses R receipt p ∧ TemporalHolds receipt d bound.stage := by
  constructor
  · rintro ⟨result, h, hvalid⟩
    obtain ⟨stage, hstage, h⟩ := bind_eq_ok.mp h
    split at h
    · cases h
      exact absurd hvalid hbound
    · rename_i hnot
      cases h
      have htemporal := (@temporal_valid_iff receipt d
        { bound with predecessor_bound := stage.bound, errors := stage.errors } hbound).mp hvalid
      exact ⟨⟨stage, hstage, hnot, htemporal.1⟩, htemporal.2⟩
  · rintro ⟨⟨stage, hstage, hnot, hestablished⟩, htemporal⟩
    refine ⟨_, bind_eq_ok.mpr ⟨stage, hstage, if_neg hnot⟩, ?_⟩
    exact (@temporal_valid_iff receipt d { bound with predecessor_bound := stage.bound, errors := stage.errors }
      hbound).mpr ⟨hestablished, htemporal⟩

def OutputAgrees (R : Runtime) (receipt : JsValue) (d : DecisionEvidenceV1) (stage : StageResult) : Prop :=
  isPolicyDecision stage = true →
    ∃ canonical, strictText R (receipt.get (lit "result")) = .ok canonical ∧ strictText R d.decision_output = .ok canonical

theorem output_valid_iff (hbound : bound.status ≠ .valid) :
    (∃ result, outputThenPredecessor R receipt d p bound = .ok result ∧ result.status = .valid) ↔
      OutputAgrees R receipt d bound.stage ∧ PredecessorPasses R receipt p ∧ TemporalHolds receipt d bound.stage := by
  rw [outputThenPredecessor, OutputAgrees]
  cases hpolicy : isPolicyDecision bound.stage with
  | false =>
    rw [if_neg Bool.false_ne_true, predecessor_valid_iff hbound]
    exact (and_iff_right (fun h => absurd h Bool.false_ne_true)).symm
  | true =>
    have hlater := @predecessor_valid_iff R receipt d p { bound with decision_output_bound := some true } hbound
    rw [if_pos rfl]
    constructor
    · rintro ⟨result, h, hvalid⟩
      obtain ⟨canonical, hcanonical, h⟩ := bind_eq_ok.mp h
      obtain ⟨output, houtput, h⟩ := bind_eq_ok.mp h
      split at h
      · cases h
        exact absurd hvalid hbound
      · rename_i heq
        rw [not_not] at heq
        rw [← heq] at houtput
        exact ⟨fun _ => ⟨canonical, hcanonical, houtput⟩, hlater.mp ⟨result, h, hvalid⟩⟩
    · rintro ⟨hagrees, hrest⟩
      obtain ⟨canonical, hcanonical, houtput⟩ := hagrees rfl
      obtain ⟨result, h, hvalid⟩ := hlater.mpr hrest
      refine ⟨result, bind_eq_ok.mpr ⟨canonical, hcanonical, bind_eq_ok.mpr ⟨canonical, houtput, ?_⟩⟩, hvalid⟩
      rw [if_neg (not_not.mpr rfl)]
      exact h

variable {resolveKey : KeyResolver} {options : ReceiptWithDecisionOptionsV1}

variable {stageOptions : StageOptions} {report : ReceiptVerificationV1}

theorem valid_iff_status {requiredSigners : List Str}
    (h : verifyReceiptV1 R receipt resolveKey stageOptions requiredSigners = .ok report) :
    report.valid = true ↔ report.status = .valid := by
  rw [verifyReceiptV1] at h
  split at h
  · cases h
    exact iff_of_false Bool.false_ne_true (fun heq => Status.noConfusion heq)
  · split at h
    · cases h
      exact iff_of_false Bool.false_ne_true (fun heq => Status.noConfusion heq)
    · obtain ⟨receiptId, -, h⟩ := bind_eq_ok.mp h
      obtain ⟨results, -, h⟩ := bind_eq_ok.mp h
      cases h
      exact decide_eq_true_iff

/-- The receipt verifies and the decision is the one its reference names. -/
structure Bound (R : Runtime) (receipt : JsValue) (d : DecisionEvidenceV1) (resolveKey : KeyResolver)
    (stageOptions : StageOptions) (report : ReceiptVerificationV1) : Prop where
  verified : verifyReceiptV1 R receipt resolveKey stageOptions [] = .ok report
  valid : report.valid = true
  decision_ref : ∃ decisionRef, receipt.get (lit "decision_ref") = .str decisionRef ∧
    recomputeDecisionRef R receipt d = .ok decisionRef

def boundResult (report : ReceiptVerificationV1) : ReceiptWithDecisionVerificationV1 :=
  { base report .invalid [] with decision_ref_present := true, decision_ref_bound := true }

theorem composite_cases (h : verifyReceiptWithDecisionV1 R receipt d resolveKey options = .ok result) :
    (result.decision_ref_bound = false ∧ result.status ≠ .valid) ∨
      ∃ report, Bound R receipt d resolveKey options.stageOptions report ∧
        outputThenPredecessor R receipt d options.predecessor (boundResult report) = .ok result := by
  obtain ⟨report, hreport, h⟩ := bind_eq_ok.mp h
  have hstatus := valid_iff_status hreport
  split at h
  · rename_i hnot
    cases h
    refine .inl ⟨rfl, ?_⟩
    rw [Bool.not_eq_true'] at hnot
    exact fun heq => Bool.false_ne_true (hnot.symm.trans (hstatus.mpr heq))
  · rename_i hvalid
    rw [Bool.not_eq_true', Bool.not_eq_false] at hvalid
    split at h
    · rename_i decisionRef hpresent
      split at h
      · cases h
        exact .inl ⟨rfl, fun heq => Status.noConfusion heq⟩
      · rename_i recomputed hrecomputed
        split at h
        · cases h
          exact .inl ⟨rfl, fun heq => Status.noConfusion heq⟩
        · rename_i heq
          rw [not_not] at heq
          rw [heq] at hrecomputed
          exact .inr ⟨report, ⟨hreport, hvalid, decisionRef, hpresent, hrecomputed⟩, h⟩
    · cases h
      exact .inl ⟨rfl, fun heq => Status.noConfusion heq⟩

theorem outputThenPredecessor_bound (h : outputThenPredecessor R receipt d p bound = .ok result) :
    result.decision_ref_bound = bound.decision_ref_bound := by
  have htemporal (b : ReceiptWithDecisionVerificationV1) :
      (temporalStage receipt d b).decision_ref_bound = b.decision_ref_bound := by
    unfold temporalStage
    dsimp only
    split_ifs <;> rfl
  have hpredecessor {b : ReceiptWithDecisionVerificationV1} (h : predecessorThenTemporal R receipt d p b = .ok result) :
      result.decision_ref_bound = b.decision_ref_bound := by
    obtain ⟨stage, -, h⟩ := bind_eq_ok.mp h
    split at h
    · cases h
      rfl
    · cases h
      exact htemporal _
  unfold outputThenPredecessor at h
  split at h
  · obtain ⟨canonical, -, h⟩ := bind_eq_ok.mp h
    obtain ⟨output, -, h⟩ := bind_eq_ok.mp h
    split at h
    · cases h
      rfl
    · exact (hpredecessor h).trans rfl
  · exact hpredecessor h

theorem bound_of_valid (h : verifyReceiptWithDecisionV1 R receipt d resolveKey options = .ok result)
    (hvalid : result.status = .valid) : result.decision_ref_bound = true := by
  rcases composite_cases h with ⟨-, hinvalid⟩ | ⟨report, -, hlater⟩
  · exact absurd hvalid hinvalid
  · exact outputThenPredecessor_bound hlater

theorem composite_of_bound (h : Bound R receipt d resolveKey options.stageOptions report) :
    verifyReceiptWithDecisionV1 R receipt d resolveKey options =
      outputThenPredecessor R receipt d options.predecessor (boundResult report) := by
  obtain ⟨hverified, hvalid, decisionRef, hpresent, hrecomputed⟩ := h
  simp only [verifyReceiptWithDecisionV1, hverified, bind, Except.bind, hvalid, hpresent, hrecomputed, Bool.not_true,
    Bool.false_eq_true, if_false, ne_eq, not_true_eq_false, boundResult]

theorem composite_valid_iff :
    (∃ result, verifyReceiptWithDecisionV1 R receipt d resolveKey options = .ok result ∧ result.status = .valid) ↔
      ∃ report, Bound R receipt d resolveKey options.stageOptions report ∧
        OutputAgrees R receipt d (report.stage.getD notRun) ∧ PredecessorPasses R receipt options.predecessor ∧
        TemporalHolds receipt d (report.stage.getD notRun) := by
  have hnot : ∀ report, (boundResult report).status ≠ .valid := fun report heq => Status.noConfusion heq
  constructor
  · rintro ⟨result, h, hvalid⟩
    rcases composite_cases h with ⟨-, hinvalid⟩ | ⟨report, hbound, hlater⟩
    · exact absurd hvalid hinvalid
    · exact ⟨report, hbound, (output_valid_iff (hnot report)).mp ⟨result, hlater, hvalid⟩⟩
  · rintro ⟨report, hbound, hlater⟩
    rw [composite_of_bound hbound]
    exact (output_valid_iff (hnot report)).mpr hlater

/-- What a bound predecessor is. -/
structure Follows (R : Runtime) (receipt predecessor : JsValue) : Prop where
  policyDecision : predecessor.get (lit "receipt_type") = .str (lit "aps:policy-decision:v1")
  prev : ∃ id, receipt.get (lit "prev") = .str id ∧ computeReceiptIdV1 R predecessor = .ok id
  decision_ref : ∃ decisionRef, receipt.get (lit "decision_ref") = .str decisionRef ∧
    predecessor.get (lit "decision_ref") = .str decisionRef

variable {v : JsValue}

theorem isText_eq {s : String} (h : isText s v = true) : v = .str (lit s) := by
  cases v with
  | str t => rw [of_decide_eq_true h]
  | _ => cases h

theorem isStrEq_eq {s : Str} (h : isStrEq s v = true) : v = .str s := by
  cases v with
  | str t => rw [of_decide_eq_true h]
  | _ => cases h

variable {predecessor : JsValue}

theorem compareDecisionRefs_valid {recomputed : Str}
    (h : (compareDecisionRefs receipt predecessor recomputed).status ≠ .invalid) :
    ∃ decisionRef, receipt.get (lit "decision_ref") = .str decisionRef ∧
      predecessor.get (lit "decision_ref") = .str decisionRef := by
  rw [compareDecisionRefs] at h
  split at h
  · rename_i decisionRef hget
    split at h
    · rename_i heq
      exact ⟨decisionRef, hget, isStrEq_eq heq⟩
    · exact absurd rfl h
  · exact absurd rfl h

theorem comparePrev_valid {v : PredecessorVerification} (h : comparePrev R receipt predecessor = .ok v)
    (hvalid : v.status ≠ .invalid) :
    (∃ id, receipt.get (lit "prev") = .str id ∧ computeReceiptIdV1 R predecessor = .ok id) ∧
      ∃ decisionRef, receipt.get (lit "decision_ref") = .str decisionRef ∧
        predecessor.get (lit "decision_ref") = .str decisionRef := by
  rw [comparePrev] at h
  split at h
  · rename_i prev hget
    obtain ⟨recomputed, hrecomputed, h⟩ := bind_eq_ok.mp h
    split at h
    · cases h
      exact absurd rfl hvalid
    · rename_i heq
      rw [not_not] at heq
      rw [heq] at hrecomputed
      cases h
      exact ⟨⟨prev, hget, hrecomputed⟩, compareDecisionRefs_valid hvalid⟩
  · cases h
    exact absurd rfl hvalid

theorem verifyPredecessor_valid (hresult : receipt.get (lit "receipt_type") = .str (lit "aps:action-result:v1"))
    {v : PredecessorVerification} (h : verifyReceiptPredecessorV1 R receipt predecessor = .ok v)
    (hinvalid : v.status ≠ .invalid) (hindeterminate : v.status ≠ .indeterminate) : Follows R receipt predecessor := by
  have hrecord : ReceiptSchema.isRecord receipt = true := by
    cases receipt with
    | obj members => rfl
    | _ => cases hresult
  rw [verifyReceiptPredecessorV1, hrecord, hresult] at h
  split at h
  · rename_i hnot
    exact absurd hnot (by decide)
  · split at h
    · cases h
      exact absurd rfl hindeterminate
    · split at h
      · cases h
        exact absurd rfl hinvalid
      · split at h
        · cases h
          exact absurd rfl hinvalid
        · rename_i hpolicy
          rw [Bool.not_eq_true', Bool.not_eq_false] at hpolicy
          obtain ⟨hprev, hdecision⟩ := comparePrev_valid h hinvalid
          exact ⟨isText_eq hpolicy, hprev, hdecision⟩

theorem predecessor_follows (hresult : receipt.get (lit "receipt_type") = .str (lit "aps:action-result:v1"))
    (h : PredecessorPasses R receipt (some predecessor)) : Follows R receipt predecessor := by
  obtain ⟨stage, hstage, hnot, hestablished⟩ := h
  obtain ⟨v, hv, hstage⟩ := bind_eq_ok.mp hstage
  refine verifyPredecessor_valid hresult hv ?_ ?_
  · intro hstatus
    rw [hstatus] at hstage
    cases hstage
    exact hnot rfl
  · intro hstatus
    rw [hstatus] at hstage
    cases hstage
    exact hestablished rfl

theorem predecessor_unasked : PredecessorPasses R receipt none :=
  ⟨_, rfl, fun h => PredecessorBound.noConfusion h, fun h => PredecessorBound.noConfusion h⟩

theorem strictText_iff {canonical : Str} : strictText R v = .ok canonical ↔ strictJCS R.numText v = .ok canonical := by
  rw [strictText]
  cases strictJCS R.numText v with
  | ok c =>
    constructor
    · intro h
      cases h
      rfl
    · intro h
      cases h
      rfl
  | error e =>
    constructor
    · intro h
      cases h
    · intro h
      cases h

theorem validateStage_valid {T : TextRuntime} (h : (validateReceiptStageV1 T receipt stageOptions).status = .valid) :
    validateReceiptStageV1 T receipt stageOptions = stageResult T receipt stageOptions := by
  rw [validateReceiptStageV1] at h ⊢
  split at h
  · cases h
  · rename_i hrecord
    rw [if_neg hrecord]
    split at h
    · rename_i profile hprofile
      split at h
      · cases h
      · rename_i hknown
        split at h
        · cases h
        · rename_i hok
          simp only [hknown, if_false]
    · cases h

theorem stage_of_valid (h : verifyReceiptV1 R receipt resolveKey stageOptions [] = .ok report)
    (hvalid : report.valid = true) : report.stage = some (stageResult R.toTextRuntime receipt stageOptions) ∧
      (stageResult R.toTextRuntime receipt stageOptions).status = .valid := by
  rw [verifyReceiptV1] at h
  split at h
  · cases h
    cases hvalid
  · split at h
    · cases h
      cases hvalid
    · obtain ⟨receiptId, -, h⟩ := bind_eq_ok.mp h
      obtain ⟨results, -, h⟩ := bind_eq_ok.mp h
      cases h
      obtain ⟨-, hstatus, -⟩ := aggregate_valid.mp hvalid
      have heq := validateStage_valid hstatus
      rw [heq] at hstatus
      exact ⟨congrArg some heq, hstatus⟩

theorem stageResult_policyDecision {T : TextRuntime}
    (htype : receipt.get (lit "receipt_type") = .str (lit "aps:policy-decision:v1"))
    (hvalid : (stageResult T receipt stageOptions).status = .valid) :
    isPolicyDecision (stageResult T receipt stageOptions) = true := by
  have hstage : stageOf (lit "aps:policy-decision:v1") = some .policyDecision := by decide
  rw [stageResult, htype] at hvalid ⊢
  rw [text, hstage] at hvalid ⊢
  split at hvalid
  · cases hvalid
  · rfl

theorem decision_ref_bound_of (h : verifyReceiptWithDecisionV1 R receipt d resolveKey options = .ok result)
    (hbound : result.decision_ref_bound = true) :
    ∃ decisionRef, receipt.get (lit "decision_ref") = .str decisionRef ∧ recomputeDecisionRef R receipt d = .ok decisionRef := by
  rcases composite_cases h with ⟨hnot, -⟩ | ⟨report, hreport, -⟩
  · rw [hnot] at hbound
    cases hbound
  · exact hreport.decision_ref

theorem isUtcText_eq (h : isUtcText v = true) : isExactUtcMilliseconds (text v) = true := by
  cases v with
  | str s => exact h
  | _ => cases h

theorem window_after {stage : StageResult} (h : TemporalHolds receipt d stage) (hpolicy : isPolicyDecision stage = true)
    (hwindow : d.decision_output.get (lit "valid_until") ≠ .null) :
    instant (text (receipt.get (lit "issued_at"))) < instant (text (d.decision_output.get (lit "valid_until"))) := by
  rcases h with hnull | ⟨hissued, huntil, hlater⟩
  · cases hvalue : d.decision_output.get (lit "valid_until") with
    | null => exact absurd hvalue hwindow
    | _ =>
      rw [hvalue] at hnull
      cases hnull
  · exact (later_iff (isUtcText_eq huntil) (isUtcText_eq hissued)).mp (hlater hpolicy)

end

/-- A decision reference binds one decision; a valid composite establishes what its stages check; and asking
for the predecessor never makes a composite valid. -/
theorem decision_binding {R : Runtime} (hnum : NumberRendering R.numText) (receipt : JsValue) :
    (∀ d e resolveKey resolveKey' options options' result result', Keyed d → Keyed e →
      verifyReceiptWithDecisionV1 R receipt d resolveKey options = .ok result → result.decision_ref_bound = true →
      verifyReceiptWithDecisionV1 R receipt e resolveKey' options' = .ok result' → result'.decision_ref_bound = true →
      CollisionFree R.sha256 (decisionInputs R (text (receipt.get (lit "action_ref"))) d ++
        decisionInputs R (text (receipt.get (lit "action_ref"))) e) →
      (∃ c, strictJCS R.numText d.authority_state = .ok c ∧ strictJCS R.numText e.authority_state = .ok c) ∧
      (∃ c, strictJCS R.numText d.policy_input = .ok c ∧ strictJCS R.numText e.policy_input = .ok c) ∧
      (∃ c, strictJCS R.numText d.decision_context = .ok c ∧ strictJCS R.numText e.decision_context = .ok c) ∧
      (∃ c, strictJCS R.numText d.decision_output = .ok c ∧ strictJCS R.numText e.decision_output = .ok c)) ∧
    (∀ d resolveKey options result,
      verifyReceiptWithDecisionV1 R receipt d resolveKey options = .ok result → result.status = .valid →
      (∃ report, verifyReceiptV1 R receipt resolveKey options.stageOptions [] = .ok report ∧ report.valid = true) ∧
      (receipt.get (lit "receipt_type") = .str (lit "aps:policy-decision:v1") →
        (∃ c, strictJCS R.numText (receipt.get (lit "result")) = .ok c ∧ strictJCS R.numText d.decision_output = .ok c) ∧
        (d.decision_output.get (lit "valid_until") ≠ .null →
          instant (text (receipt.get (lit "issued_at"))) < instant (text (d.decision_output.get (lit "valid_until"))))) ∧
      (receipt.get (lit "receipt_type") = .str (lit "aps:action-result:v1") →
        ∀ predecessor, options.predecessor = some predecessor → Follows R receipt predecessor)) ∧
    ∀ d resolveKey stageOptions predecessor result result',
      verifyReceiptWithDecisionV1 R receipt d resolveKey ⟨stageOptions, none⟩ = .ok result → result.status ≠ .valid →
      verifyReceiptWithDecisionV1 R receipt d resolveKey ⟨stageOptions, some predecessor⟩ = .ok result' →
      result'.status ≠ .valid := by
  refine ⟨?_, ?_, ?_⟩
  · intro d e resolveKey resolveKey' options options' result result' hd he h hbound h' hbound' hfree
    obtain ⟨ref, hget, href⟩ := decision_ref_bound_of h hbound
    obtain ⟨ref', hget', href'⟩ := decision_ref_bound_of h' hbound'
    obtain ⟨hplain, hinput, heq⟩ := recompute_eq_ok hd href
    obtain ⟨hplain', hinput', heq'⟩ := recompute_eq_ok he href'
    have hsame : ref = ref' := JsValue.str.inj (hget.symm.trans hget')
    rw [heq, heq'] at hsame
    obtain ⟨hauthority, hpolicy, hcontext, houtput⟩ := decisions_agree hnum hplain hplain' hinput hinput' hfree hsame
    have hcanonical : ∀ {v w : JsValue}, Plain v → Plain w → emit R.numText v = emit R.numText w →
        ∃ c, strictJCS R.numText v = .ok c ∧ strictJCS R.numText w = .ok c := by
      intro v w hv hw hvw
      refine ⟨emit R.numText v, strictJCS_iJson hv.iJson hv.keyed, ?_⟩
      rw [hvw]
      exact strictJCS_iJson hw.iJson hw.keyed
    exact ⟨hcanonical hplain.authority_state hplain'.authority_state hauthority,
      hcanonical hplain.policy_input hplain'.policy_input hpolicy,
      hcanonical hplain.decision_context hplain'.decision_context hcontext,
      hcanonical hplain.decision_output hplain'.decision_output houtput⟩
  · intro d resolveKey options result h hvalid
    obtain ⟨report, hbound, houtput, hpredecessor, htemporal⟩ := composite_valid_iff.mp ⟨result, h, hvalid⟩
    obtain ⟨hstage, hstatus⟩ := stage_of_valid hbound.verified hbound.valid
    rw [hstage, Option.getD_some] at houtput htemporal
    refine ⟨⟨report, hbound.verified, hbound.valid⟩, ?_, ?_⟩
    · intro htype
      have hpolicy := stageResult_policyDecision htype hstatus
      obtain ⟨c, hresult, houtput⟩ := houtput hpolicy
      exact ⟨⟨c, strictText_iff.mp hresult, strictText_iff.mp houtput⟩, fun hwindow => window_after htemporal hpolicy hwindow⟩
    · intro htype predecessor hasked
      rw [hasked] at hpredecessor
      exact predecessor_follows htype hpredecessor
  · intro d resolveKey stageOptions predecessor result result' h hinvalid h' hvalid'
    obtain ⟨report, hbound, houtput, -, htemporal⟩ := composite_valid_iff.mp ⟨result', h', hvalid'⟩
    have hpasses : ∃ result, verifyReceiptWithDecisionV1 R receipt d resolveKey ⟨stageOptions, none⟩ = .ok result ∧
        result.status = .valid :=
      composite_valid_iff.mpr ⟨report, hbound, houtput, predecessor_unasked, htemporal⟩
    obtain ⟨found, hfound, hvalid⟩ := hpasses
    rw [h] at hfound
    cases hfound
    exact hinvalid hvalid

/-! ### A permit and the action it allows

The digests and the signatures are those of SHA-256 and of Ed25519 with the private key of 32 bytes
`01`. -/

def authorityRef : Str := lit "eafe1132c4a054418ad77331da4744b00b038dd6b383278ba9f8ad15b6d07430"

def policyRef : Str := lit "f578ef41c07cb1b756ac3dea60d35e86fe16769fef046b99b0e035a9ef1592c7"

def contextRef : Str := lit "a3a282eb669964e0d642518877d2d68f61a7fc3faec3a98988876ff8f864ec8e"

def outputRef : Str := lit "00d3803dd861afd706ef49a7d1e0e2ca636dde9a5dda8fb19a4511173b15afea"

def permitRef : Str := lit "5a5d62b887298578cd92e58b4234ac7a028165cbd2e16837d47f785da2cdc9ab"

def permitId : Str := lit "66acd2ebcbe60198b2197cb6ea5389159417f370dfb0a026124ece402dbde9d4"

def actionId : Str := lit "832619d4318bb2aa11b8bf06f4858cb318cd3b788f0924715406a8652f1eb133"

def permitKey : Str := lit "8a88e3dd7409f195fd52db2d3cba5d72ca6709bf1d94121bf3748801b40f6f5c"

/-- The canonical text of a receipt from its first member on; `id` is empty where the identifier is computed. -/
def receiptText (kind second prev id result : Str) : Str :=
  lit "\"action_ref\":\"" ++ List.replicate 64 0x61 ++ lit "\",\"decision_ref\":\"" ++ permitRef ++
    lit "\",\"delegation_ref\":\"sha256:" ++ List.replicate 64 0x64 ++
    lit "\",\"evidence_refs\":[],\"issued_at\":\"2026-01-02T03:04:" ++ second ++
    lit ".006Z\",\"issuer\":\"gate:g\",\"prev\":\"" ++ prev ++ lit "\",\"profile\":\"aps-receipt-v1\"," ++
    (if id = [] then [] else lit "\"receipt_id\":\"" ++ id ++ lit "\",") ++ lit "\"receipt_type\":\"" ++ kind ++
    lit "\",\"result\":" ++ result ++ lit ",\"subject_agent\":\"agent:a\"\x7d"

def outputText : Str :=
  lit "\x7b\"constraints\":[\"a\",\"b\"],\"effective_authority_ref\":\"" ++ List.replicate 64 0x65 ++
    lit "\",\"profile\":\"aps-core-decision-output-v1\",\"valid_until\":\"2026-01-02T03:05:05.006Z\"," ++
    lit "\"verdict\":\"permit\"\x7d"

def permitText (id : Str) : Str :=
  receiptText (lit "aps:policy-decision:v1") (lit "05") (List.replicate 64 0x62) id outputText

def actionText (id : Str) : Str :=
  receiptText (lit "aps:action-result:v1") (lit "06") permitId id
    (lit "\x7b\"effect_ref\":\"" ++ List.replicate 64 0x63 ++
      lit "\",\"error_code\":null,\"profile\":\"aps-action-result-v1\",\"status\":\"succeeded\"\x7d")

def signedPayload (receipt : Str) : Str :=
  lit "APS-RECEIPT-SIG-V1\x00\x7b\"receipt\":\x7b" ++ receipt ++
    lit ",\"signer\":\x7b\"alg\":\"Ed25519\",\"key_id\":\"k1\",\"signer\":\"gate:g\"\x7d\x7d"

def permitSignature : Str :=
  lit "6fb2e36438ba76ca78cc2117c7c2bf1ac33ac66b3ad6b27932a3e474ce9e913c" ++
    lit "e228af217256c61ea0c80165f8179ee7b5aedf6fb5f501c3a1c245c4734c1605"

def actionSignature : Str :=
  lit "aff7215d0516853cad02b0bfb07e70641e5de72f802e2bd26b9d82aaa8a1732c" ++
    lit "e1e50ca06a5a71ccbb059900cfa8334b3cda6169ef91fec8c6615cf0655a7c00"

def permitRuntime : Runtime where
  numText := exactText
  nfc := id
  numberValue := exactValue
  stackLimit := 1000
  sha256 := ofTable [(utf8 (lit "APS-DECISION-AUTHORITY-V1\x00\x7b\"x\":\"1\",\"y\":\"2\"\x7d"), authorityRef),
    (utf8 (lit "APS-DECISION-POLICY-V1\x00\"p\""), policyRef),
    (utf8 (lit "APS-DECISION-CONTEXT-V1\x00[]"), contextRef),
    (utf8 (lit "APS-DECISION-OUTPUT-V1\x00" ++ outputText), outputRef),
    (utf8 (lit "APS-DECISION-REF-V1\x00\x7b\"action_ref\":\"" ++ List.replicate 64 0x61 ++
      lit "\",\"authority_state_ref\":\"" ++ authorityRef ++ lit "\",\"context_ref\":\"" ++ contextRef ++
      lit "\",\"decision_output_ref\":\"" ++ outputRef ++ lit "\",\"policy_ref\":\"" ++ policyRef ++
      lit "\",\"profile\":\"aps-decision-ref-v1\"\x7d"), permitRef),
    (utf8 (lit "APS-RECEIPT-ID-V1\x00\x7b" ++ permitText []), permitId),
    (utf8 (lit "APS-RECEIPT-ID-V1\x00\x7b" ++ actionText []), actionId)]
  sign _ _ := none
  verify payload signature publicKey := publicKey = permitKey ∧
    (payload = signedPayload (permitText permitId) ∧ signature = permitSignature ∨
      payload = signedPayload (actionText actionId) ∧ signature = actionSignature)

def receiptOf (kind issued_at prev id signature : Str) (result : JsValue) : JsValue :=
  .obj [(lit "profile", .str PROFILE), (lit "receipt_type", .str kind),
    (lit "issuer", .str (lit "gate:g")), (lit "subject_agent", .str (lit "agent:a")),
    (lit "action_ref", .str (List.replicate 64 0x61)),
    (lit "delegation_ref", .str (lit "sha256:" ++ List.replicate 64 0x64)), (lit "decision_ref", .str permitRef),
    (lit "issued_at", .str issued_at), (lit "evidence_refs", .arr []), (lit "result", result),
    (lit "prev", .str prev), (lit "receipt_id", .str id),
    (lit "signatures", .arr [.obj [(lit "signer", .str (lit "gate:g")), (lit "key_id", .str (lit "k1")),
      (lit "alg", .str (lit "Ed25519")), (lit "value", .str signature)]])]

def permitOutput : JsValue :=
  .obj [(lit "profile", .str (lit "aps-core-decision-output-v1")), (lit "verdict", .str (lit "permit")),
    (lit "effective_authority_ref", .str (List.replicate 64 0x65)),
    (lit "constraints", .arr [.str (lit "a"), .str (lit "b")]), (lit "valid_until", .str (lit "2026-01-02T03:05:05.006Z"))]

def permitReceipt : JsValue :=
  receiptOf (lit "aps:policy-decision:v1") (lit "2026-01-02T03:04:05.006Z") (List.replicate 64 0x62) permitId
    permitSignature permitOutput

def actionReceipt : JsValue :=
  receiptOf (lit "aps:action-result:v1") (lit "2026-01-02T03:04:06.006Z") permitId actionId actionSignature
    (.obj [(lit "profile", .str (lit "aps-action-result-v1")), (lit "status", .str (lit "succeeded")),
      (lit "effect_ref", .str (List.replicate 64 0x63)), (lit "error_code", .null)])

def permitDecision : DecisionEvidenceV1 :=
  ⟨.obj [(lit "x", .str (lit "1")), (lit "y", .str (lit "2"))], .str (lit "p"), .arr [], permitOutput⟩

def respelledDecision : DecisionEvidenceV1 :=
  { permitDecision with authority_state := .obj [(lit "y", .str (lit "2")), (lit "x", .str (lit "1"))] }

def permitOptions (predecessor : Option JsValue) : ReceiptWithDecisionOptionsV1 :=
  ⟨⟨none, some (lit "gate:g")⟩, predecessor⟩

def permitResolver : KeyResolver := fun _ _ _ => .key permitKey

theorem permit_verifies {receipt : JsValue} (h : receipt = permitReceipt ∨ receipt = actionReceipt) :
    ∃ report, verifyReceiptV1 permitRuntime receipt permitResolver (permitOptions none).stageOptions [] = .ok report ∧
      report.valid = true := by
  have hvalid : (verifyReceiptV1 permitRuntime receipt permitResolver (permitOptions none).stageOptions
      []).toOption.map (·.valid) = some true := by
    obtain rfl | rfl := h
    · decide +kernel
    · decide +kernel
  exact exists_ok_of_map hvalid

theorem permit_recomputed {d : DecisionEvidenceV1} (h : d = permitDecision ∨ d = respelledDecision) :
    recomputeDecisionRef permitRuntime permitReceipt d = .ok permitRef := by
  have hpermit : recomputeDecisionRef permitRuntime permitReceipt permitDecision = .ok permitRef := by decide +kernel
  have hauthority : computeDecisionComponentRefV1 permitRuntime .authority respelledDecision.authority_state =
      computeDecisionComponentRefV1 permitRuntime .authority permitDecision.authority_state := by
    decide +kernel
  obtain rfl | rfl := h
  · exact hpermit
  · rw [recomputeDecisionRef, buildDecisionRefV1, decisionRefInput, hauthority]
    exact hpermit

theorem permit_composed {d : DecisionEvidenceV1} (hd : d = permitDecision ∨ d = respelledDecision) :
    ∃ result, verifyReceiptWithDecisionV1 permitRuntime permitReceipt d permitResolver (permitOptions none) = .ok result ∧
      result.status = .valid := by
  obtain ⟨report, hverified, hvalid⟩ := permit_verifies (.inl rfl)
  have hsome : (strictText permitRuntime permitOutput).isOk = true := by decide +kernel
  obtain ⟨canonical, hcanonical⟩ := exists_of_isOk hsome
  have houtput : d.decision_output = permitOutput := by obtain rfl | rfl := hd <;> rfl
  refine composite_valid_iff.mpr ⟨report, ⟨hverified, hvalid, permitRef, rfl, permit_recomputed hd⟩,
    fun _ => ⟨canonical, hcanonical, houtput ▸ hcanonical⟩, predecessor_unasked, ?_⟩
  rw [TemporalHolds, houtput]
  exact .inr ⟨by decide +kernel, by decide +kernel, fun _ => by decide +kernel⟩

theorem action_composed : ∃ result,
    verifyReceiptWithDecisionV1 permitRuntime actionReceipt permitDecision permitResolver
      (permitOptions (some permitReceipt)) = .ok result ∧ result.status = .valid := by
  obtain ⟨report, hverified, hvalid⟩ := permit_verifies (.inr rfl)
  obtain ⟨hstage, -⟩ := stage_of_valid hverified hvalid
  have hother : isPolicyDecision (stageResult permitRuntime.toTextRuntime actionReceipt
      (permitOptions none).stageOptions) = false := by
    decide +kernel
  have hfollows : (predecessorStage permitRuntime actionReceipt (some permitReceipt)).toOption.map (·.bound) =
      some .bound := by
    decide +kernel
  obtain ⟨stage, hpredecessor, hbound⟩ := exists_ok_of_map hfollows
  refine composite_valid_iff.mpr ⟨report, ⟨hverified, hvalid, permitRef, rfl, permit_recomputed (.inl rfl)⟩, ?_,
    ⟨stage, hpredecessor, hbound ▸ (fun h => PredecessorBound.noConfusion h),
      hbound ▸ (fun h => PredecessorBound.noConfusion h)⟩,
    .inr ⟨by decide +kernel, by decide +kernel, fun _ => by decide +kernel⟩⟩
  rw [hstage, Option.getD_some]
  exact fun h => absurd (h.symm.trans hother) Bool.noConfusion

theorem permit_digests : CollisionFree permitRuntime.sha256
    (decisionInputs permitRuntime (text (permitReceipt.get (lit "action_ref"))) permitDecision ++
      decisionInputs permitRuntime (text (permitReceipt.get (lit "action_ref"))) respelledDecision) := by
  have hauthority : componentText permitRuntime .authority respelledDecision.authority_state =
      componentText permitRuntime .authority permitDecision.authority_state := by
    decide +kernel
  have hsame : decisionInputs permitRuntime (text (permitReceipt.get (lit "action_ref"))) respelledDecision =
      decisionInputs permitRuntime (text (permitReceipt.get (lit "action_ref"))) permitDecision := by
    rw [decisionInputs, refText, refInputOf, hauthority]
    rfl
  have hfree : CollisionFree permitRuntime.sha256
      (decisionInputs permitRuntime (text (permitReceipt.get (lit "action_ref"))) permitDecision) := by
    apply CollisionFree.of_nodup
    decide +kernel
  rw [hsame]
  exact hfree.mono fun x hx => (List.mem_append.mp hx).elim id id

/-- The permit and the action verify with the decision, which is the same however its members are ordered; the
window of the permit ends after it was issued, and the action follows the permit. -/
theorem permit_bound : ∃ result action,
    verifyReceiptWithDecisionV1 permitRuntime permitReceipt permitDecision permitResolver (permitOptions none) =
      .ok result ∧ result.status = .valid ∧
    (∃ c, strictJCS exactText permitDecision.authority_state = .ok c ∧
      strictJCS exactText respelledDecision.authority_state = .ok c) ∧
    instant (lit "2026-01-02T03:04:05.006Z") < instant (lit "2026-01-02T03:05:05.006Z") ∧
    verifyReceiptWithDecisionV1 permitRuntime actionReceipt permitDecision permitResolver
      (permitOptions (some permitReceipt)) = .ok action ∧ action.status = .valid ∧
    Follows permitRuntime actionReceipt permitReceipt := by
  obtain ⟨hbinding, hfacts, -⟩ := @decision_binding permitRuntime exact_roundTrip.toNumberRendering permitReceipt
  obtain ⟨-, hfollows, -⟩ := @decision_binding permitRuntime exact_roundTrip.toNumberRendering actionReceipt
  obtain ⟨result, h, hstatus⟩ := permit_composed (.inl rfl)
  obtain ⟨other, hother, hotherStatus⟩ := permit_composed (.inr rfl)
  obtain ⟨action, haction, hactionStatus⟩ := action_composed
  have hkeyed : Keyed permitDecision := ⟨by decide, by decide, by decide, by decide⟩
  have hrespelled : Keyed respelledDecision := ⟨by decide, by decide, by decide, by decide⟩
  obtain ⟨hauthority, -⟩ := hbinding _ _ _ _ _ _ result other hkeyed hrespelled h (bound_of_valid h hstatus) hother
    (bound_of_valid hother hotherStatus) permit_digests
  obtain ⟨-, hpolicy, -⟩ := hfacts _ _ _ result h hstatus
  obtain ⟨-, -, hpredecessor⟩ := hfollows _ _ _ action haction hactionStatus
  exact ⟨result, action, h, hstatus, hauthority, (hpolicy rfl).2 (fun heq => JsValue.noConfusion heq), haction,
    hactionStatus, hpredecessor rfl permitReceipt rfl⟩

end AgentPassport.DecisionBinding
