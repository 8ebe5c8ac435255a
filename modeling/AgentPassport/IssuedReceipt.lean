import AgentPassport.ReceiptOrder

/-! What `createReceiptV1` returns, and the report on it. -/
namespace AgentPassport.IssuedReceipt
open JsText Js StrictRoundTrip Outcome CanonicalInjective ReceiptSchema ReceiptStage ReceiptVerify
open ReceiptEnvelope ReceiptReport ReceiptOrder

theorem strictText_eq_ok {R : Runtime} {v : JsValue} {t : Str} (hkeyed : keyed v = true) :
    strictText R v = .ok t ↔ IJson v ∧ t = emit R.numText v := by
  constructor
  · intro h
    have hijson : IJson v := by
      refine (@assertStrict_eq_ok R.numText _ hkeyed).mp ?_
      rw [strictText] at h
      rw [assertStrict]
      cases hok : strictJCS R.numText v with
      | ok text => rfl
      | error e =>
        rw [hok] at h
        cases h
    rw [strictText_iJson hijson hkeyed] at h
    cases h
    exact ⟨hijson, rfl⟩
  · rintro ⟨hijson, rfl⟩
    exact strictText_iJson hijson hkeyed

theorem keyed_texts {members : List (Str × JsValue)} (hnames : (members.map Prod.fst).Nodup)
    (h : ∀ m ∈ members, m.2 = .str (text m.2)) : keyed (.obj members) = true := by
  rw [keyed_obj]
  refine ⟨hnames, ?_⟩
  intro m hm
  rw [h m hm]
  rfl

theorem descriptor_texts (s : ReceiptSignerV1) : ∀ m ∈ s.descriptor, m.2 = .str (text m.2) := by
  rw [ReceiptSignerV1.descriptor, List.forall_mem_cons, List.forall_mem_cons, List.forall_mem_singleton]
  exact ⟨rfl, rfl, rfl⟩

theorem keyed_descriptor (s : ReceiptSignerV1) : keyed (.obj s.descriptor) = true := by
  have hnames : [lit "signer", lit "key_id", lit "alg"].Nodup := by decide
  exact keyed_texts hnames (descriptor_texts s)

def entry (s : ReceiptSignerV1) (value : Str) : JsValue := .obj (s.descriptor ++ [(lit "value", JsValue.str value)])

theorem keyed_entry (s : ReceiptSignerV1) (value : Str) : keyed (entry s value) = true := by
  have hnames : [lit "signer", lit "key_id", lit "alg", lit "value"].Nodup := by decide
  refine keyed_texts hnames ?_
  rw [List.forall_mem_append, List.forall_mem_singleton]
  exact ⟨descriptor_texts s, rfl⟩

theorem entry_key (s : ReceiptSignerV1) (value : Str) : signatureKey (entry s value) = s.key := rfl

theorem entry_value (s : ReceiptSignerV1) (value : Str) : (entry s value).get (lit "value") = .str value := rfl

theorem entry_without (s : ReceiptSignerV1) (value : Str) : without (entry s value) [lit "value"] = .obj s.descriptor := rfl

section
variable {R : Runtime} {draft : JsValue}

theorem signReceipt_eq_ok {s : ReceiptSignerV1} {proof : JsValue} (hkeyed : keyed draft = true)
    (h : signReceipt R draft s = .ok proof) :
    ∃ value, R.sign (signedText R draft (.obj s.descriptor)) s.private_key = some value ∧ proof = entry s value := by
  obtain ⟨payload, hpayload, h⟩ := bind_eq_ok.mp h
  obtain ⟨canonical, hcanonical, hpure⟩ := bind_eq_ok.mp hpayload
  cases hpure
  obtain ⟨-, rfl⟩ := (strictText_eq_ok (keyed_signedForm hkeyed (keyed_descriptor s))).mp hcanonical
  split at h
  · rename_i value hvalue
    cases h
    exact ⟨value, hvalue, rfl⟩
  · cases h

end

section
variable (R : Runtime)

def identified (draft : JsValue) : JsValue := setField "receipt_id" (.str (idOf R draft)) draft

/-- What issuing establishes about each step. -/
structure Issued (fields : List (Str × JsValue)) (signers : List ReceiptSignerV1) (refs signatures : List JsValue)
    (receipt : JsValue) : Prop where
  signers_ne : signers ≠ []
  spread_eq : spread ((JsValue.obj fields).get (lit "evidence_refs")) = .ok refs
  draft : Envelope R.numText false (draftOf fields (sortEvidence refs))
  signed : List.Forall₂ (fun s proof => signReceipt R (identified R (draftOf fields (sortEvidence refs))) s = .ok proof)
    (sortSigners signers) signatures
  receipt_eq : receipt = setField "signatures" (.arr signatures) (identified R (draftOf fields (sortEvidence refs)))
  envelope : Envelope R.numText true receipt

variable {R} {fields : List (Str × JsValue)} {signers : List ReceiptSignerV1} {receipt : JsValue}

theorem keyed_spread {refs : List JsValue} {v : JsValue} (hkeyed : keyed v = true) (h : spread v = .ok refs) :
    ∀ ref ∈ refs, keyed ref = true := by
  cases v with
  | arr items =>
    cases h
    rwa [keyed, keyedItems_iff] at hkeyed
  | str s =>
    cases h
    intro ref href
    induction s using spreadString.induct with
    | case1 => cases href
    | case2 c =>
      rw [spreadString, List.mem_singleton] at href
      rw [href]
      rfl
    | case3 c d rest hpair ih =>
      rw [spreadString, if_pos hpair, List.mem_cons] at href
      rcases href with rfl | href
      · rfl
      · exact ih hkeyed href
    | case4 c d rest hpair ih =>
      rw [spreadString, if_neg hpair, List.mem_cons] at href
      rcases href with rfl | href
      · rfl
      · exact ih hkeyed href
  | _ => cases h

theorem sortEvidence_eq (refs : List JsValue) : sortEvidence refs = sortBy evidenceKey refs := rfl

theorem keyed_draftOf (hkeyed : keyed (.obj fields) = true) {refs : List JsValue}
    (h : spread ((JsValue.obj fields).get (lit "evidence_refs")) = .ok refs) :
    keyed (draftOf fields (sortEvidence refs)) = true := by
  have hrefs : keyed (.arr (sortEvidence refs)) = true := by
    rw [keyed, keyedItems_iff]
    intro ref href
    rw [sortEvidence_eq] at href
    exact keyed_spread (keyed_get hkeyed) h ref ((sortBy_perm refs).subset href)
  exact keyed_setMember (keyed_setMember (keyed_setMember hkeyed hrefs) rfl) rfl

theorem keyed_setField {name : String} {v draft : JsValue} (hkeyed : keyed draft = true) (hv : keyed v = true) :
    keyed (setField name v draft) = true := by
  cases draft with
  | obj members => exact keyed_setMember hkeyed hv
  | _ => exact hkeyed

theorem keyed_signatures {draft : JsValue} (hkeyed : keyed draft = true) {sorted : List ReceiptSignerV1}
    {signatures : List JsValue} (h : List.Forall₂ (fun s proof => signReceipt R draft s = .ok proof) sorted signatures) :
    keyed (.arr signatures) = true := by
  rw [keyed, keyedItems_iff]
  induction h with
  | nil => exact List.forall_mem_nil _
  | cons hfirst _ ih =>
    obtain ⟨value, -, rfl⟩ := signReceipt_eq_ok hkeyed hfirst
    exact List.forall_mem_cons.mpr ⟨keyed_entry _ value, ih⟩

theorem createReceipt_eq_ok (hkeyed : keyed (.obj fields) = true) :
    createReceiptV1 R fields signers = .ok receipt ↔ ∃ refs signatures, Issued R fields signers refs signatures receipt := by
  constructor
  · intro h
    obtain ⟨hsigners, h⟩ := bind_unit_eq_ok.mp h
    obtain ⟨refs, hspread, h⟩ := bind_eq_ok.mp h
    obtain ⟨hvalid, h⟩ := bind_unit_eq_ok.mp h
    have hdraft := keyed_draftOf hkeyed hspread
    have henvelope := (validate_eq_ok hdraft).mp hvalid
    obtain ⟨receiptId, hid, h⟩ := bind_eq_ok.mp h
    rw [computeReceiptId_eq henvelope.iJson hdraft] at hid
    cases hid
    obtain ⟨signatures, hsigned, h⟩ := bind_eq_ok.mp h
    obtain ⟨hfinal, h⟩ := bind_unit_eq_ok.mp h
    cases h
    have hidentified : keyed (identified R (draftOf fields (sortEvidence refs))) = true := keyed_setField hdraft rfl
    have hforall := mapM_forall₂.mp hsigned
    have hreceipt : keyed (setField "signatures" (.arr signatures) (identified R (draftOf fields (sortEvidence refs)))) = true :=
      keyed_setField hidentified (keyed_signatures hidentified hforall)
    refine ⟨refs, signatures, ?_, hspread, henvelope, hforall, rfl, (validate_eq_ok hreceipt).mp hfinal⟩
    exact fun hnil => of_decide_eq_true (require_eq_ok.mp hsigners) (List.length_eq_zero_iff.mpr hnil)
  · rintro ⟨refs, signatures, hsigners, hspread, hdraft, hsigned, rfl, henvelope⟩
    have hkeyedDraft := keyed_draftOf hkeyed hspread
    have hidentified : keyed (identified R (draftOf fields (sortEvidence refs))) = true := keyed_setField hkeyedDraft rfl
    have hreceipt : keyed (setField "signatures" (.arr signatures) (identified R (draftOf fields (sortEvidence refs)))) = true :=
      keyed_setField hidentified (keyed_signatures hidentified hsigned)
    refine bind_unit_eq_ok.mpr ⟨require_eq_ok.mpr (decide_eq_true (mt List.length_eq_zero_iff.mp hsigners)), ?_⟩
    refine bind_eq_ok.mpr ⟨refs, hspread, bind_unit_eq_ok.mpr ⟨(validate_eq_ok hkeyedDraft).mpr hdraft, ?_⟩⟩
    refine bind_eq_ok.mpr ⟨_, computeReceiptId_eq hdraft.iJson hkeyedDraft, ?_⟩
    refine bind_eq_ok.mpr ⟨signatures, mapM_forall₂.mpr hsigned, ?_⟩
    exact bind_unit_eq_ok.mpr ⟨(validate_eq_ok hreceipt).mpr henvelope, rfl⟩

/-- The resolver maps every signer to the public key of the private key used, and what that key
signs verifies. -/
structure KnowsKeys (R : Runtime) (resolveKey : KeyResolver) (publicKey : Str → Str) (signers : List ReceiptSignerV1) :
    Prop where
  resolves : ∀ s ∈ signers, ∀ issuedAt, resolveKey s.signer s.key_id issuedAt = .key (publicKey s.private_key)
  material : ∀ s ∈ signers, isKeyMaterial (publicKey s.private_key) = true
  correct : ∀ s ∈ signers, ∀ {payload value}, R.sign payload s.private_key = some value →
    R.verify payload value (publicKey s.private_key) = true

section
variable {refs signatures : List JsValue} (h : Issued R fields signers refs signatures receipt)
include h

theorem Issued.keyed_receipt (hkeyed : keyed (.obj fields) = true) : keyed receipt = true := by
  have hdraft : keyed (identified R (draftOf fields (sortEvidence refs))) = true :=
    keyed_setField (keyed_draftOf hkeyed h.spread_eq) rfl
  rw [h.receipt_eq]
  exact keyed_setField hdraft (keyed_signatures hdraft h.signed)

theorem Issued.get_signatures : receipt.get (lit "signatures") = .arr signatures := by
  rw [h.receipt_eq]
  exact get_setMember_self

theorem Issued.get_receipt_id : receipt.get (lit "receipt_id") = .str (idOf R (draftOf fields (sortEvidence refs))) := by
  rw [h.receipt_eq]
  exact (get_setMember_ne (by decide)).trans get_setMember_self

theorem Issued.idOf_eq : idOf R receipt = idOf R (draftOf fields (sortEvidence refs)) := by
  have hwithout : without receipt [lit "receipt_id", lit "signatures"] =
      without (draftOf fields (sortEvidence refs)) [lit "receipt_id", lit "signatures"] := by
    rw [h.receipt_eq]
    exact (without_setMember (by decide)).trans (without_setMember (by decide))
  rw [idOf, idOf, hwithout]

theorem Issued.signedText_eq (descriptor : JsValue) :
    signedText R receipt descriptor = signedText R (identified R (draftOf fields (sortEvidence refs))) descriptor := by
  have hwithout : without receipt [lit "signatures"] =
      without (identified R (draftOf fields (sortEvidence refs))) [lit "signatures"] := by
    rw [h.receipt_eq]
    exact without_setMember (by decide)
  rw [signedText, signedText, signedForm, signedForm, hwithout]

theorem Issued.entry_of_mem (hkeyed : keyed (.obj fields) = true) {proof : JsValue} (hproof : proof ∈ signatures) :
    ∃ s ∈ signers, ∃ value, R.sign (signedText R receipt (.obj s.descriptor)) s.private_key = some value ∧
      proof = entry s value := by
  have hdraft : keyed (identified R (draftOf fields (sortEvidence refs))) = true :=
    keyed_setField (keyed_draftOf hkeyed h.spread_eq) rfl
  obtain ⟨s, hs, hsigned⟩ := forall₂_mem h.signed.flip hproof
  obtain ⟨value, hvalue, rfl⟩ := signReceipt_eq_ok hdraft hsigned
  rw [← h.signedText_eq] at hvalue
  exact ⟨s, (sortBy_perm signers).subset hs, value, hvalue, rfl⟩

theorem Issued.issuer_signed : ∃ proof ∈ signatures, (signatureKey proof).1 = text (receipt.get (lit "issuer")) := by
  have hissuer := (checkLists_eq_ok.mp h.envelope.lists).2.2.2
  rw [h.get_signatures] at hissuer
  exact hissuer

variable {resolveKey : KeyResolver} {publicKey : Str → Str}

theorem Issued.verifies (hkeyed : keyed (.obj fields) = true) (hkeys : KnowsKeys R resolveKey publicKey signers)
    (required : List Str) : ∀ proof ∈ signatures, verifies (proofResult R resolveKey receipt required proof) = true := by
  intro proof hproof
  obtain ⟨s, hs, value, hvalue, rfl⟩ := h.entry_of_mem hkeyed hproof
  rw [verifies_proofResult, entry_key, entry_value, entry_without]
  exact ⟨publicKey s.private_key, hkeys.resolves s hs _, hkeys.material s hs, hkeys.correct s hs hvalue⟩

theorem Issued.report_facts (hkeyed : keyed (.obj fields) = true) (hkeys : KnowsKeys R resolveKey publicKey signers)
    (stageOptions : StageOptions) :
    (report R resolveKey receipt stageOptions []).receipt_id_valid = some true ∧
      (∀ s ∈ (report R resolveKey receipt stageOptions []).signature_results, s.valid = true) ∧
      (report R resolveKey receipt stageOptions []).signer_authority = .verified ∧
      (report R resolveKey receipt stageOptions []).status = (stageResult R.toTextRuntime receipt stageOptions).status := by
  have hid : decide (idOf R receipt = text (receipt.get (lit "receipt_id"))) = true := by
    rw [h.get_receipt_id, h.idOf_eq]
    exact decide_eq_true rfl
  have hverifies := h.verifies hkeyed hkeys (requiredOf receipt [])
  have hpresent : ∀ signer ∈ requiredOf receipt [],
      ∃ r ∈ (items (receipt.get (lit "signatures"))).map (proofResult R resolveKey receipt (requiredOf receipt [])),
        r.signer = signer := by
    obtain ⟨proof, hproof, hissuer⟩ := h.issuer_signed
    intro signer hsigner
    rw [h.get_signatures]
    rw [List.mem_singleton.mp hsigner]
    exact ⟨_, List.mem_map_of_mem hproof, proofResult_signer.trans hissuer⟩
  have hall : ∀ r ∈ (items (receipt.get (lit "signatures"))).map (proofResult R resolveKey receipt (requiredOf receipt [])),
      ReceiptReport.verifies r = true := by
    rw [List.forall_mem_map, h.get_signatures]
    exact hverifies
  have hagg := @aggregate_established _ _ _ (stageResult R.toTextRuntime receipt stageOptions) hid hpresent hall
  refine ⟨?_, ?_, hagg.2, hagg.1⟩
  · rw [report, aggregate, hid]
  · intro r hr
    have hr' := hall r hr
    rw [ReceiptReport.verifies, Bool.and_eq_true] at hr'
    exact hr'.2

omit h in
theorem keys_of_signed {draft : JsValue} (hkeyed : keyed draft = true) {sorted : List ReceiptSignerV1} {proofs : List JsValue}
    (hsigned : List.Forall₂ (fun s proof => signReceipt R draft s = .ok proof) sorted proofs) :
    proofs.map signatureKey = sorted.map ReceiptSignerV1.key := by
  induction hsigned with
  | nil => rfl
  | cons hfirst _ ih =>
    obtain ⟨value, -, rfl⟩ := signReceipt_eq_ok hkeyed hfirst
    rw [List.map_cons, List.map_cons, entry_key, ih]

theorem Issued.signers_before (hkeyed : keyed (.obj fields) = true) :
    (sortSigners signers).Pairwise (fun a b => before a.key b.key = true) := by
  have hascending := (checkLists_eq_ok.mp h.envelope.lists).2.2.1.2.before
  rw [h.get_signatures] at hascending
  have hdraft : keyed (identified R (draftOf fields (sortEvidence refs))) = true :=
    keyed_setField (keyed_draftOf hkeyed h.spread_eq) rfl
  have hkeys := keys_of_signed hdraft h.signed
  have hpairs : (signatures.map signatureKey).Pairwise (fun a b => before a b = true) := List.pairwise_map.mpr hascending
  rw [hkeys] at hpairs
  exact List.pairwise_map.mp hpairs

theorem Issued.evidence_before : (sortEvidence refs).Pairwise (fun a b => before (evidenceKey a) (evidenceKey b) = true) := by
  have hascending := (checkLists_eq_ok.mp h.envelope.lists).2.1.2.before
  have hget : receipt.get (lit "evidence_refs") = .arr (sortEvidence refs) := by
    rw [h.receipt_eq]
    refine (get_setMember_ne (by decide)).trans ((get_setMember_ne (by decide)).trans ?_)
    exact (get_setMember_ne (by decide)).trans ((get_setMember_ne (by decide)).trans get_setMember_self)
  rw [hget] at hascending
  exact hascending

end

theorem createReceipt_of_perm (hkeyed : keyed (.obj fields) = true)
    (hcreated : createReceiptV1 R fields signers = .ok receipt) {refs refs' : List JsValue}
    (hrefs : (JsValue.obj fields).get (lit "evidence_refs") = .arr refs) (hperm : refs'.Perm refs)
    {signers' : List ReceiptSignerV1} (hsigners : signers'.Perm signers) :
    createReceiptV1 R (setMember (lit "evidence_refs") (.arr refs') fields) signers' = .ok receipt := by
  obtain ⟨found, signatures, h⟩ := (createReceipt_eq_ok hkeyed).mp hcreated
  have hspread := h.spread_eq
  rw [hrefs] at hspread
  cases hspread
  have hpresent : lit "evidence_refs" ∈ fields.map Prod.fst := by
    have hthere : (JsValue.obj fields).get (lit "evidence_refs") ≠ .undefined := by
      rw [hrefs]
      exact fun heq => JsValue.noConfusion heq
    exact List.mem_map_of_mem (mem_of_get hthere)
  have hitems : keyed (.arr refs') = true := by
    have hget : keyed ((JsValue.obj fields).get (lit "evidence_refs")) = true := keyed_get hkeyed
    rw [hrefs, keyed, keyedItems_iff] at hget
    rw [keyed, keyedItems_iff]
    exact fun ref href => hget ref (hperm.subset href)
  have hevidence : sortEvidence refs' = sortEvidence refs := sortBy_eq_of_perm hperm h.evidence_before
  have hsorted : sortSigners signers' = sortSigners signers := sortBy_eq_of_perm hsigners (h.signers_before hkeyed)
  have hdraft : draftOf (setMember (lit "evidence_refs") (.arr refs') fields) (sortEvidence refs') =
      draftOf fields (sortEvidence refs) := by
    rw [hevidence, draftOf, draftOf, setMember_setMember hpresent]
  refine (createReceipt_eq_ok (keyed_setMember hkeyed hitems)).mpr ⟨refs', signatures, ?_⟩
  refine ⟨fun hnil => h.signers_ne ?_, ?_, ?_, ?_, ?_, h.envelope⟩
  · rw [hnil] at hsigners
    exact hsigners.symm.eq_nil
  · rw [get_setMember_self]
    rfl
  · rw [hdraft]
    exact h.draft
  · rw [hdraft, hsorted]
    exact h.signed
  · rw [hdraft]
    exact h.receipt_eq

end

end AgentPassport.IssuedReceipt
