import AgentPassport.ReceiptOrder

/-! A signature entry that is added to a receipt that verifies. -/
namespace AgentPassport.AppendedSignature
open JsText Js Utf8 Sha256 StrictRoundTrip Outcome ReceiptSchema ReceiptStage ReceiptVerify ReceiptEnvelope
open ReceiptReport ReceiptOrder
open DelegationSchema (isLowerHexOf)

theorem lowerHex_low {n : Nat} {s : Str} (h : isLowerHexOf n s = true) : ∀ c ∈ s, c.toNat < 0xD800 := by
  intro c hc
  rw [isLowerHexOf, Bool.and_eq_true] at h
  have hhex := List.all_eq_true.mp h.2 c hc
  exact Nat.lt_trans (lowerHex_lt hhex) (by decide)

theorem cleanText_of_low {s : Str} (h : ∀ c ∈ s, c.toNat < 0xD800) : CleanText s := by
  have hunit : ∀ n, n < 0xD800 → isNoncharacterCodePoint n = false := by
    intro n hn
    simp only [isNoncharacterCodePoint, Bool.or_eq_false_iff, Bool.and_eq_false_iff, decide_eq_false_iff_not]
    omega
  rw [CleanText]
  induction s using codePoints.induct with
  | case1 => exact List.forall_mem_nil _
  | case2 c =>
    rw [codePoints, List.forall_mem_singleton]
    exact hunit _ (h c List.mem_cons_self)
  | case3 c d rest hpair ih =>
    rw [Bool.and_eq_true, isHigh_iff] at hpair
    have hc := h c List.mem_cons_self
    omega
  | case4 c d rest hpair ih =>
    rw [codePoints, if_neg hpair, List.forall_mem_cons]
    exact ⟨hunit _ (h c List.mem_cons_self), ih (fun x hx => h x (List.mem_cons_of_mem c hx))⟩

theorem isIdentifier_eq {v : JsValue} (h : isIdentifier v = true) : v = .str (text v) := by
  cases v with
  | str s => rfl
  | _ => cases h

theorem isHexText_eq {n : Nat} {v : JsValue} (h : isHexText n v = true) : v = .str (text v) ∧ isLowerHexOf n (text v) = true := by
  cases v with
  | str s => exact ⟨rfl, h⟩
  | _ => cases h

theorem isEd25519_eq {v : JsValue} (h : isEd25519 v = true) : v = .str (lit "Ed25519") := by
  cases v with
  | str s => rw [of_decide_eq_true h]
  | _ => cases h

section
variable {e : JsValue}

/-- What the check of an entry establishes. -/
structure Entry (e : JsValue) : Prop where
  keys : ∃ members, e = .obj members ∧ ∀ m ∈ members, m.1 ∈ SIGNATURE_MEMBERS
  signer : e.get (lit "signer") = .str (text (e.get (lit "signer")))
  key_id : e.get (lit "key_id") = .str (text (e.get (lit "key_id")))
  alg : e.get (lit "alg") = .str (lit "Ed25519")
  value : e.get (lit "value") = .str (text (e.get (lit "value")))
  valueHex : isLowerHexOf 128 (text (e.get (lit "value"))) = true

theorem entry_of_check (h : checkSignature true e = .ok ()) : Entry e := by
  obtain ⟨hkeys, hvalues⟩ := bind_unit_eq_ok.mp h
  obtain ⟨members, rfl, hallowed, -⟩ := (assertExactKeys_eq_ok (by decide)).mp hkeys
  rw [require_eq_ok, Bool.and_eq_true, Bool.and_eq_true, Bool.and_eq_true] at hvalues
  obtain ⟨⟨⟨hsigner, hkey⟩, halg⟩, hvalue⟩ := hvalues
  have hhex := isHexText_eq hvalue
  exact ⟨⟨members, rfl, hallowed⟩, isIdentifier_eq hsigner, isIdentifier_eq hkey, isEd25519_eq halg, hhex.1, hhex.2⟩

theorem Entry.forall_values (h : Entry e) (hkeyed : keyed e = true) {P : JsValue → Prop} {members : List (Str × JsValue)}
    (he : e = .obj members) :
    (∀ m ∈ members, P m.2) ↔
      P (e.get (lit "signer")) ∧ P (e.get (lit "key_id")) ∧ P (e.get (lit "alg")) ∧ P (e.get (lit "value")) := by
  subst he
  constructor
  · intro hall
    have hthere : ∀ {name s}, (JsValue.obj members).get name = .str s → P ((JsValue.obj members).get name) := by
      intro name s hget
      exact hall _ (mem_of_get (fun hnone => JsValue.noConfusion (hget.symm.trans hnone)))
    exact ⟨hthere h.signer, hthere h.key_id, hthere h.alg, hthere h.value⟩
  · rintro ⟨hsigner, hkey, halg, hvalue⟩ m hm
    obtain ⟨others, hothers, hallowed⟩ := h.keys
    cases hothers
    have hget : (JsValue.obj members).get m.1 = m.2 := by
      rw [JsValue.get, (member?_eq_some (keyed_obj.mp hkeyed).1).mpr hm]
      rfl
    have hname := hallowed m hm
    simp only [SIGNATURE_MEMBERS, List.mem_cons, List.not_mem_nil, or_false] at hname
    rcases hname with hname | hname | hname | hname
    · rw [← hget, hname]
      exact hsigner
    · rw [← hget, hname]
      exact hkey
    · rw [← hget, hname]
      exact halg
    · rw [← hget, hname]
      exact hvalue

theorem wellFormed_name {name : Str} (h : name ∈ SIGNATURE_MEMBERS) : WellFormed name ∧ CleanText name := by
  have hall : ∀ name ∈ SIGNATURE_MEMBERS, WellFormed name ∧ CleanText name := by decide
  exact hall name h

theorem Entry.iJson_iff (h : Entry e) (hkeyed : keyed e = true) :
    IJson e ↔ WellFormed (signatureKey e).1 ∧ WellFormed (signatureKey e).2 := by
  obtain ⟨members, he, hallowed⟩ := h.keys
  have hnames : IJson e ↔ ∀ m ∈ members, IJson m.2 := by
    rw [he, iJson_obj]
    constructor
    · exact fun hall m hm => (hall m hm).2
    · exact fun hall m hm => ⟨(wellFormed_name (hallowed m hm)).1, hall m hm⟩
  have halg : WellFormed (lit "Ed25519") := by decide
  have hvalue := wellFormed_of_low (lowerHex_low h.valueHex)
  rw [hnames, h.forall_values hkeyed he, h.signer, h.key_id, h.alg, h.value, iJson_str, iJson_str, iJson_str, iJson_str]
  exact ⟨fun hall => ⟨hall.1, hall.2.1⟩, fun hall => ⟨hall.1, hall.2, halg, hvalue⟩⟩

theorem Entry.clean_iff (h : Entry e) (hkeyed : keyed e = true) :
    Clean e ↔ CleanText (signatureKey e).1 ∧ CleanText (signatureKey e).2 := by
  obtain ⟨members, he, hallowed⟩ := h.keys
  have hnames : Clean e ↔ ∀ m ∈ members, Clean m.2 := by
    rw [he, clean_obj]
    constructor
    · exact fun hall m hm => (hall m hm).2
    · exact fun hall m hm => ⟨(wellFormed_name (hallowed m hm)).2, hall m hm⟩
  have halg : CleanText (lit "Ed25519") := by decide
  have hvalue := cleanText_of_low (lowerHex_low h.valueHex)
  rw [hnames, h.forall_values hkeyed he, h.signer, h.key_id, h.alg, h.value, clean_str, clean_str, clean_str, clean_str]
  exact ⟨fun hall => ⟨hall.1, hall.2.1⟩, fun hall => ⟨hall.1, hall.2, halg, hvalue⟩⟩

end

/-- The receipt with `e` between the entries `bef` and `aft`. -/
def appended (receipt : JsValue) (bef : List JsValue) (e : JsValue) (aft : List JsValue) : JsValue :=
  setField "signatures" (.arr (bef ++ e :: aft)) receipt

theorem stageResult_congr {T : TextRuntime} {receipt receipt' : JsValue}
    (h : ∀ name, name ≠ lit "signatures" → receipt'.get name = receipt.get name) (options : StageOptions) :
    stageResult T receipt' options = stageResult T receipt options := by
  have htype := h (lit "receipt_type") (by decide)
  have hissuer := h (lit "issuer") (by decide)
  have hsubject := h (lit "subject_agent") (by decide)
  have hprev := h (lit "prev") (by decide)
  have hdecision := h (lit "decision_ref") (by decide)
  have hissued := h (lit "issued_at") (by decide)
  have hresult := h (lit "result") (by decide)
  have hintent : checkActionIntent receipt' = checkActionIntent receipt := by
    rw [checkActionIntent, checkActionIntent, hissuer, hsubject, hprev, hdecision, hresult]
  have hpolicy : checkPolicyDecision T receipt' = checkPolicyDecision T receipt := by
    rw [checkPolicyDecision, checkPolicyDecision, checkDecisionResult, checkDecisionResult, hprev, hdecision, hresult, hissued]
  have haction : checkActionResult receipt' = checkActionResult receipt := by
    rw [checkActionResult, checkActionResult, hprev, hdecision, hresult]
  have hboundary : boundaryResult receipt' options = boundaryResult receipt options := by
    funext stage failures
    rw [boundaryResult, boundaryResult, hissuer, htype]
  rw [stageResult, stageResult, hintent, hpolicy, haction, hboundary, htype]

theorem checkMembers_congr {receipt receipt' : JsValue} {requireValues : Bool}
    (h : ∀ name, name ≠ lit "signatures" → receipt'.get name = receipt.get name) :
    checkMembers receipt' requireValues = checkMembers receipt requireValues := by
  rw [checkMembers, checkMembers, h (lit "profile") (by decide), h (lit "receipt_type") (by decide),
    h (lit "issuer") (by decide), h (lit "subject_agent") (by decide), h (lit "delegation_ref") (by decide),
    h (lit "receipt_id") (by decide), h (lit "action_ref") (by decide), h (lit "decision_ref") (by decide),
    h (lit "prev") (by decide), h (lit "issued_at") (by decide), h (lit "result") (by decide)]

section
variable {receipt e : JsValue} {bef aft : List JsValue}

theorem appended_get_ne {name : Str} (h : name ≠ lit "signatures") :
    (appended receipt bef e aft).get name = receipt.get name := by
  rw [appended]
  cases receipt with
  | obj members => exact get_setMember_ne h
  | _ => rfl

theorem appended_without {names : List Str} (h : lit "signatures" ∈ names) :
    without (appended receipt bef e aft) names = without receipt names := by
  rw [appended]
  cases receipt with
  | obj members => exact without_setMember h
  | _ => rfl

variable {numText : Double → Str}

theorem mem_longer {p : JsValue} (h : p ∈ bef ++ aft) : p ∈ bef ++ e :: aft := by
  rcases List.mem_append.mp h with hbef | haft
  · exact List.mem_append_left _ hbef
  · exact List.mem_append_right _ (List.mem_cons_of_mem _ haft)

theorem envelope_appended (h : Envelope numText true receipt) (hsignatures : receipt.get (lit "signatures") = .arr (bef ++ aft))
    (he : checkSignature true e = .ok ()) :
    Envelope numText true (appended receipt bef e aft) ↔ IJson e ∧ Clean e ∧ Ascending signatureKey (bef ++ e :: aft) := by
  obtain ⟨members, rfl, hallowed, hpresent⟩ := Envelope.members_eq h
  have hself : (appended (.obj members) bef e aft).get (lit "signatures") = .arr (bef ++ e :: aft) := get_setMember_self
  have hevidence : (appended (.obj members) bef e aft).get (lit "evidence_refs") = (JsValue.obj members).get (lit "evidence_refs") :=
    appended_get_ne (by decide)
  have hissuer : (appended (.obj members) bef e aft).get (lit "issuer") = (JsValue.obj members).get (lit "issuer") :=
    appended_get_ne (by decide)
  constructor
  · intro h'
    have hitem : e ∈ items ((appended (.obj members) bef e aft).get (lit "signatures")) := by
      rw [hself]
      exact List.mem_append_cons_self
    have hlists := checkLists_eq_ok.mp h'.lists
    rw [hself] at hlists
    exact ⟨iJson_item h'.iJson hitem, clean_item h'.clean hitem, hlists.2.2.1.2⟩
  · rintro ⟨hijson, hclean, hascending⟩
    obtain ⟨harrays, hrefs, ⟨hchecks, -⟩, proof, hproof, hname⟩ := checkLists_eq_ok.mp h.lists
    rw [hsignatures] at hchecks hproof
    -- an entry of the longer list is the new one or stood there before
    have hall : ∀ {P : JsValue → Prop}, (∀ p ∈ items ((JsValue.obj members).get (lit "signatures")), P p) → P e →
        ∀ p ∈ bef ++ e :: aft, P p := by
      intro P hold hnew
      rw [hsignatures] at hold
      obtain ⟨hbef, haft⟩ := List.forall_mem_append.mp hold
      exact List.forall_mem_append.mpr ⟨hbef, List.forall_mem_cons.mpr ⟨hnew, haft⟩⟩
    have hijsonAll : ∀ p ∈ bef ++ e :: aft, IJson p := hall (fun p hp => iJson_item h.iJson hp) hijson
    have hcleanAll : ∀ p ∈ bef ++ e :: aft, Clean p := hall (fun p hp => clean_item h.clean hp) hclean
    have hwell : WellFormed (lit "signatures") := by decide
    have htext : CleanText (lit "signatures") := by decide
    have hknown : lit "signatures" ∈ RECEIPT_MEMBERS := by decide
    refine ⟨?_, ?_, ?_, ?_, ?_⟩
    · refine (assertExactKeys_eq_ok (by decide)).mpr ⟨_, rfl, forall_setMember hallowed hknown, ?_⟩
      exact fun key hkey => mem_names_setMember.mpr (.inr (hpresent key hkey))
    · exact iJson_obj.mpr (forall_setMember (iJson_obj.mp h.iJson) ⟨hwell, iJson_arr.mpr hijsonAll⟩)
    · exact clean_obj.mpr (forall_setMember (clean_obj.mp h.clean) ⟨htext, clean_arr.mpr hcleanAll⟩)
    · rw [checkMembers_congr (fun name hne => appended_get_ne hne)]
      exact h.members
    · rw [checkLists_eq_ok, hself, hevidence, hissuer]
      refine ⟨⟨harrays.1, rfl⟩, hrefs, ⟨hall ?_ he, hascending⟩, proof, ?_, hname⟩
      · rw [hsignatures]
        exact hchecks
      · exact mem_longer hproof

variable {R : Runtime} {resolveKey : KeyResolver}

theorem proofResult_appended (required : List Str) :
    proofResult R resolveKey (appended receipt bef e aft) required = proofResult R resolveKey receipt required := by
  funext proof
  rw [proofResult, proofResult, appended_get_ne (by decide), signedText, signedText, signedForm, signedForm,
    appended_without List.mem_cons_self]

theorem before_of_ordered {a b : Str × Str} (ha : WellFormed a.1 ∧ WellFormed a.2) (hb : WellFormed b.1 ∧ WellFormed b.2)
    (hne : a ≠ b) (h : ordered a b = true) : before a b = true := by
  by_contra hnot
  exact hne (eq_of_tie ha hb hnot (ordered_iff.mp h))

theorem signature_texts (h : Envelope numText true receipt) (hkeyed : keyed receipt = true) {proof : JsValue}
    (hproof : proof ∈ items (receipt.get (lit "signatures"))) :
    WellFormed (signatureKey proof).1 ∧ WellFormed (signatureKey proof).2 := by
  have hcheck := (checkLists_eq_ok.mp h.lists).2.2.1.1 proof hproof
  exact ((entry_of_check hcheck).iJson_iff (keyed_item hkeyed hproof)).mp (iJson_item h.iJson hproof)

theorem keyed_appended (hkeyed : keyed receipt = true) (hekeyed : keyed e = true)
    (hsignatures : receipt.get (lit "signatures") = .arr (bef ++ aft)) : keyed (appended receipt bef e aft) = true := by
  have hitems : ∀ p ∈ bef ++ aft, keyed p = true := by
    intro p hp
    have hitem : p ∈ items (receipt.get (lit "signatures")) := by
      rw [hsignatures]
      exact hp
    exact keyed_item hkeyed hitem
  obtain ⟨hbef, haft⟩ := List.forall_mem_append.mp hitems
  have hlist : keyed (.arr (bef ++ e :: aft)) = true := by
    rw [keyed, keyedItems_iff]
    exact List.forall_mem_append.mpr ⟨hbef, List.forall_mem_cons.mpr ⟨hekeyed, haft⟩⟩
  cases receipt with
  | obj members => exact keyed_setMember hkeyed hlist
  | _ => exact hkeyed

variable {stageOptions : StageOptions} {requiredSigners : List Str}

theorem requiredOf_appended : requiredOf (appended receipt bef e aft) requiredSigners = requiredOf receipt requiredSigners := by
  rw [requiredOf, requiredOf, appended_get_ne (by decide)]

theorem report_appended (hobject : ∃ members, receipt = .obj members) :
    report R resolveKey (appended receipt bef e aft) stageOptions requiredSigners =
      aggregate (requiredOf receipt requiredSigners) (decide (idOf R receipt = text (receipt.get (lit "receipt_id"))))
        ((bef ++ e :: aft).map (proofResult R resolveKey receipt (requiredOf receipt requiredSigners)))
        (stageResult R.toTextRuntime receipt stageOptions) := by
  obtain ⟨members, rfl⟩ := hobject
  have hself : (appended (.obj members) bef e aft).get (lit "signatures") = .arr (bef ++ e :: aft) := get_setMember_self
  rw [report, requiredOf_appended, idOf, appended_without (by decide), proofResult_appended, hself,
    stageResult_congr (fun name hne => appended_get_ne hne), appended_get_ne (by decide)]
  rfl

/-- A valid receipt stays valid under one more entry exactly where the entry's texts are clean, its pair
does not join to the text of another, and a required signer's entry verifies. -/
theorem appended_signature_valid_iff (hkeyed : keyed receipt = true) (hekeyed : keyed e = true)
    {result : ReceiptVerificationV1}
    (hverified : verifyReceiptV1 R receipt resolveKey stageOptions requiredSigners = .ok result)
    (hvalid : result.valid = true) (hsignatures : receipt.get (lit "signatures") = .arr (bef ++ aft))
    (he : checkSignature true e = .ok ())
    (hplace : (∀ p ∈ bef, ordered (signatureKey p) (signatureKey e) = true) ∧
      ∀ p ∈ aft, ordered (signatureKey e) (signatureKey p) = true)
    (hnew : ∀ p ∈ bef ++ aft, signatureKey p ≠ signatureKey e) :
    (∃ result', verifyReceiptV1 R (appended receipt bef e aft) resolveKey stageOptions requiredSigners = .ok result' ∧
        result'.valid = true) ↔
      (WellFormed (signatureKey e).1 ∧ WellFormed (signatureKey e).2) ∧
      (CleanText (signatureKey e).1 ∧ CleanText (signatureKey e).2) ∧
      (∀ p ∈ bef ++ aft, joined (signatureKey p) ≠ joined (signatureKey e)) ∧
      ((signatureKey e).1 ∈ requiredOf receipt requiredSigners →
        ∃ material, resolveKey (signatureKey e).1 (signatureKey e).2 (text (receipt.get (lit "issued_at"))) = .key material ∧
          isKeyMaterial material = true ∧
            R.verify (signedText R receipt (without e [lit "value"])) (text (e.get (lit "value"))) material = true) := by
  obtain ⟨henvelope, rfl⟩ := envelope_of_valid hkeyed hverified hvalid
  have hentry := entry_of_check he
  have hobject : ∃ members, receipt = .obj members := by
    obtain ⟨members, hmembers, -⟩ := Envelope.members_eq henvelope
    exact ⟨members, hmembers⟩
  have hascending : Ascending signatureKey (bef ++ aft) := by
    have h := (checkLists_eq_ok.mp henvelope.lists).2.2.1.2
    rw [hsignatures] at h
    exact h
  have htexts : ∀ p ∈ bef ++ aft, WellFormed (signatureKey p).1 ∧ WellFormed (signatureKey p).2 := by
    intro p hp
    apply signature_texts henvelope hkeyed
    rw [hsignatures]
    exact hp
  rw [report, aggregate_valid, hsignatures] at hvalid
  obtain ⟨hid, hstage, hpresent, hverifies⟩ := hvalid
  -- the entry counts where its signer is required
  have hcounts : (proofResult R resolveKey receipt (requiredOf receipt requiredSigners) e).required = true ↔
      (signatureKey e).1 ∈ requiredOf receipt requiredSigners := by
    rw [proofResult_required, List.any_eq_true]
    simp only [decide_eq_true_eq, exists_eq_right, signatureKey]
  constructor
  · rintro ⟨result', hverified', hvalid'⟩
    obtain ⟨henvelope', rfl⟩ := envelope_of_valid (keyed_appended hkeyed hekeyed hsignatures) hverified' hvalid'
    obtain ⟨hijson, hclean, hascending'⟩ := (envelope_appended henvelope hsignatures he).mp henvelope'
    rw [report_appended hobject, aggregate_valid] at hvalid'
    refine ⟨(hentry.iJson_iff hekeyed).mp hijson, (hentry.clean_iff hekeyed).mp hclean,
      (ascending_insert.mp hascending').2.2, ?_⟩
    intro hrequired
    exact verifies_proofResult.mp (hvalid'.2.2.2 _ (List.mem_map_of_mem List.mem_append_cons_self) (hcounts.mpr hrequired))
  · rintro ⟨htext, hclean, hjoined, hrequired⟩
    have hbefore : (∀ p ∈ bef, before (signatureKey p) (signatureKey e) = true) ∧
        ∀ p ∈ aft, before (signatureKey e) (signatureKey p) = true := by
      refine ⟨fun p hp => ?_, fun p hp => ?_⟩
      · have hmem := List.mem_append_left aft hp
        exact before_of_ordered (htexts p hmem) htext (hnew p hmem) (hplace.1 p hp)
      · have hmem := List.mem_append_right bef hp
        exact before_of_ordered htext (htexts p hmem) (hnew p hmem).symm (hplace.2 p hp)
    have henvelope' : Envelope R.numText true (appended receipt bef e aft) :=
      (envelope_appended henvelope hsignatures he).mpr ⟨(hentry.iJson_iff hekeyed).mpr htext,
        (hentry.clean_iff hekeyed).mpr hclean, ascending_insert.mpr ⟨hascending, hbefore, hjoined⟩⟩
    refine ⟨_, verifyReceipt_eq (keyed_appended hkeyed hekeyed hsignatures) henvelope' _ _, ?_⟩
    rw [report_appended hobject, aggregate_valid]
    refine ⟨hid, hstage, ?_, ?_⟩
    · intro signer hsigner
      obtain ⟨r, hr, heq⟩ := hpresent signer hsigner
      obtain ⟨p, hp, rfl⟩ := List.mem_map.mp hr
      exact ⟨_, List.mem_map_of_mem (mem_longer hp), heq⟩
    · rw [List.forall_mem_map, List.forall_mem_append, List.forall_mem_cons]
      have hold := List.forall_mem_map.mp hverifies
      refine ⟨fun p hp => hold p (List.mem_append_left aft hp), ?_, fun p hp => hold p (List.mem_append_right bef hp)⟩
      intro hcounted
      exact verifies_proofResult.mpr (hrequired (hcounts.mp hcounted))

end

/-! ### An entry in the issuer's name

The digest and the signature are those of SHA-256 and of Ed25519 with the private key of 32 bytes
`01`. -/

def intentId : Str := lit "ca91db0b4494100fb9d71b8047af13f19a4bd485a6d2751d86c0e99d62e704dc"

def intentKey : Str := lit "8a88e3dd7409f195fd52db2d3cba5d72ca6709bf1d94121bf3748801b40f6f5c"

def intentPayload : Str :=
  lit "APS-RECEIPT-SIG-V1\x00\x7b\"receipt\":\x7b\"action_ref\":\"aaaaaaaaaaaaaaaaaaaaaaaaaaaaaaaaaaaaaaa" ++
    lit "aaaaaaaaaaaaaaaaaaaaaaaaa\",\"delegation_ref\":\"sha256:dddddddddddddddddddddddddddddddd" ++
    lit "dddddddddddddddddddddddddddddddd\",\"evidence_refs\":[],\"issued_at\":\"2026-01-02T03:04:0" ++
    lit "5.006Z\",\"issuer\":\"agent:a\",\"profile\":\"aps-receipt-v1\",\"receipt_id\":\"ca91db0b4494100f" ++
    lit "b9d71b8047af13f19a4bd485a6d2751d86c0e99d62e704dc\",\"receipt_type\":\"aps:action-intent:" ++
    lit "v1\",\"result\":\x7b\"profile\":\"aps-action-intent-result-v1\",\"status\":\"declared\"\x7d,\"subject_" ++
    lit "agent\":\"agent:a\"\x7d,\"signer\":\x7b\"alg\":\"Ed25519\",\"key_id\":\"k1\",\"signer\":\"agent:a\"\x7d\x7d"

def intentSignature : Str :=
  lit "893940f8f0f010a9524679c416702162faa57b222b5f88a78599134ec949caf1" ++
    lit "015fb81fa8157124e6a0348b5b4457842f941fa868a83f6ea6974b7c8037160b"

def intentRuntime : Runtime where
  numText := fun _ => []
  nfc := id
  numberValue := fun _ => .nan
  stackLimit := 1000
  sha256 := ofTable [(utf8 (
    lit "APS-RECEIPT-ID-V1\x00\x7b\"action_ref\":\"aaaaaaaaaaaaaaaaaaaaaaaaaaaaaaaaaaaaaaaaaaaaaaaaaaa" ++
    lit "aaaaaaaaaaaaa\",\"delegation_ref\":\"sha256:dddddddddddddddddddddddddddddddddddddddddddd" ++
    lit "dddddddddddddddddddd\",\"evidence_refs\":[],\"issued_at\":\"2026-01-02T03:04:05.006Z\",\"iss" ++
    lit "uer\":\"agent:a\",\"profile\":\"aps-receipt-v1\",\"receipt_type\":\"aps:action-intent:v1\",\"res" ++
    lit "ult\":\x7b\"profile\":\"aps-action-intent-result-v1\",\"status\":\"declared\"\x7d,\"subject_agent\":\"" ++
    lit "agent:a\"\x7d"), intentId)]
  sign := fun payload _ => if payload = intentPayload then some intentSignature else none
  verify payload signature publicKey := payload = intentPayload ∧ signature = intentSignature ∧ publicKey = intentKey

def entryOf (signer key_id value : Str) : JsValue :=
  .obj [(lit "signer", .str signer), (lit "key_id", .str key_id), (lit "alg", .str (lit "Ed25519")), (lit "value", .str value)]

def intentReceipt : JsValue :=
  .obj [(lit "profile", .str PROFILE), (lit "receipt_type", .str (lit "aps:action-intent:v1")),
    (lit "issuer", .str (lit "agent:a")), (lit "subject_agent", .str (lit "agent:a")),
    (lit "action_ref", .str (List.replicate 64 0x61)),
    (lit "delegation_ref", .str (lit "sha256:" ++ List.replicate 64 0x64)),
    (lit "issued_at", .str (lit "2026-01-02T03:04:05.006Z")), (lit "evidence_refs", .arr []),
    (lit "result", .obj [(lit "profile", .str (lit "aps-action-intent-result-v1")), (lit "status", .str (lit "declared"))]),
    (lit "receipt_id", .str intentId), (lit "signatures", .arr [entryOf (lit "agent:a") (lit "k1") intentSignature])]

/-- Knows the key `k1` of the agent. -/
def intentResolver : KeyResolver :=
  fun signer key_id _ => if signer = lit "agent:a" ∧ key_id = lit "k1" then .key intentKey else .failure .not_found

def noOptions : StageOptions := ⟨none, none⟩


theorem checkSignature_entryOf {signer key_id value : Str} (hsigner : signer ≠ []) (hkey : key_id ≠ [])
    (hvalue : isLowerHexOf 128 value = true) : checkSignature true (entryOf signer key_id value) = .ok () := by
  refine bind_unit_eq_ok.mpr ⟨rfl, require_eq_ok.mpr ?_⟩
  have hsigner' : isIdentifier (.str signer) = true := decide_eq_true hsigner
  have hkey' : isIdentifier (.str key_id) = true := decide_eq_true hkey
  change (isIdentifier (.str signer) && isIdentifier (.str key_id) && isEd25519 (.str (lit "Ed25519")) &&
    isLowerHexOf 128 value) = true
  rw [hsigner', hkey', hvalue]
  rfl

theorem intentReceipt_valid :
    ∃ result, verifyReceiptV1 intentRuntime intentReceipt intentResolver noOptions [] = .ok result ∧ result.valid = true := by
  apply exists_ok_of_map
  rw [intentRuntime, intentReceipt, intentPayload, intentSignature, intentId]
  repeat rw [lit_ofList]
  decide +kernel

/-- An entry under a name that nobody required leaves the receipt valid. -/
theorem bystander_entry_valid :
    ∃ result, verifyReceiptV1 intentRuntime
      (appended intentReceipt [entryOf (lit "agent:a") (lit "k1") intentSignature]
        (entryOf (lit "bystander") (lit "k9") (List.replicate 128 0x30)) []) intentResolver noOptions [] = .ok result ∧
      result.valid = true := by
  obtain ⟨result, hverified, hvalid⟩ := intentReceipt_valid
  refine (appended_signature_valid_iff (by decide) (by decide) hverified hvalid rfl
    (checkSignature_entryOf (by decide) (by decide) (by decide +kernel)) (by decide) (by decide)).mpr ⟨by decide, by decide, by decide, ?_⟩
  intro hrequired
  exact absurd hrequired (by decide)

/-- An entry in the issuer's name, under a key that nobody knows, makes the receipt indeterminate. -/
theorem issuer_entry_flips :
    ¬ ∀ (R : Runtime) (resolveKey : KeyResolver) (stageOptions : StageOptions) (requiredSigners : List Str)
        (receipt e : JsValue) (bef aft : List JsValue) (result : ReceiptVerificationV1),
        keyed receipt = true → keyed e = true →
        verifyReceiptV1 R receipt resolveKey stageOptions requiredSigners = .ok result → result.valid = true →
        receipt.get (lit "signatures") = .arr (bef ++ aft) → checkSignature true e = .ok () →
        (∀ p ∈ bef, ordered (signatureKey p) (signatureKey e) = true) ∧
          (∀ p ∈ aft, ordered (signatureKey e) (signatureKey p) = true) →
        (∀ p ∈ bef ++ aft, signatureKey p ≠ signatureKey e) →
        ∃ result', verifyReceiptV1 R (appended receipt bef e aft) resolveKey stageOptions requiredSigners = .ok result' ∧
          result'.valid = true := by
  intro h
  obtain ⟨result, hverified, hvalid⟩ := intentReceipt_valid
  obtain ⟨flipped, hflipped, hnot⟩ : ∃ result, verifyReceiptV1 intentRuntime
      (appended intentReceipt [entryOf (lit "agent:a") (lit "k1") intentSignature]
        (entryOf (lit "agent:a") (lit "k2") (List.replicate 128 0x30)) []) intentResolver noOptions [] = .ok result ∧
      result.valid = false := by
    apply exists_ok_of_map
    rw [intentRuntime, intentReceipt, intentPayload, intentSignature, intentId]
    repeat rw [lit_ofList]
    decide +kernel
  obtain ⟨result', hverified', hvalid'⟩ := h intentRuntime intentResolver noOptions [] intentReceipt
    (entryOf (lit "agent:a") (lit "k2") (List.replicate 128 0x30)) [entryOf (lit "agent:a") (lit "k1") intentSignature] []
    result (by decide) (by decide) hverified hvalid rfl
    (checkSignature_entryOf (by decide) (by decide) (by decide +kernel)) (by decide) (by decide)
  rw [hflipped] at hverified'
  cases hverified'
  rw [hnot] at hvalid'
  cases hvalid'

end AgentPassport.AppendedSignature
