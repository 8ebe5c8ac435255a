import AgentPassport.DelegationJson
import AgentPassport.IssuedReceipt

/-! Reading a receipt from a JSON text: the order of the members plays no part. -/
namespace AgentPassport.SpelledReceipt
open JsText Js JsonGrammar StrictParser StrictParserCorrect StrictRoundTrip CanonicalInjective DelegationJson
open Outcome ReceiptSchema ReceiptStage ReceiptVerify ReceiptEnvelope ReceiptReport ReceiptOrder IssuedReceipt

/-- No object of the text names a member twice. -/
inductive DuplicateFree : JsonTree → Prop
  | null : DuplicateFree .null
  | bool (b : Bool) : DuplicateFree (.bool b)
  | number (token : Str) : DuplicateFree (.number token)
  | string (s : Str) : DuplicateFree (.string s)
  | array {items : List JsonTree} (h : ∀ t ∈ items, DuplicateFree t) : DuplicateFree (.array items)
  | object {members : List (Str × JsonTree)} (names : (members.map Prod.fst).Nodup)
      (values : ∀ m ∈ members, DuplicateFree m.2) : DuplicateFree (.object members)

/-- A text that reads as the value, its members in any order. -/
structure Spells (numberValue : Str → JsNumber) (tree : JsonTree) (v : JsValue) : Prop where
  duplicateFree : DuplicateFree tree
  same : Same (jsonValue numberValue tree) v

theorem same_items {xs ys : List JsValue} (h : Same (.arr xs) (.arr ys)) : List.Forall₂ Same xs ys := by
  cases h with
  | arr hlen hitems => exact List.forall₂_iff_zip.mpr ⟨hlen, fun {a b} hab => hitems (a, b) hab⟩

theorem interoperable_of_iJson {d : Double} (h : IJson (.num (.finite d))) : Interoperable (.finite d) :=
  ((StrictTokens.assertNumber_decides (.finite d) []).cond_of_ok (h [])).1

variable {tree : JsonTree}

theorem strict_of_same {numberValue : Str → JsNumber} (h : DuplicateFree tree) :
    ∀ {v : JsValue}, Same (jsonValue numberValue tree) v → IJson v → Strict numberValue tree := by
  induction h with
  | null => exact fun _ _ => .null
  | bool b => exact fun _ _ => .bool b
  | number token =>
    intro v hsame hijson
    rw [jsonValue] at hsame
    generalize hread : numberValue token = n at hsame
    cases hsame with
    | num hscaled =>
      refine .number ?_
      rw [hread]
      exact interoperable_of_scaled hscaled (interoperable_of_iJson hijson)
  | string s =>
    intro v hsame hijson
    rw [jsonValue] at hsame
    cases hsame
    exact .string (iJson_str.mp hijson)
  | @array items _ ih =>
    intro v hsame hijson
    rw [jsonValue, jsonItems_eq_map] at hsame
    refine .array ?_
    intro t ht
    cases v with
    | arr ys =>
      obtain ⟨y, hy, hty⟩ := forall₂_mem (same_items hsame) (List.mem_map_of_mem ht)
      exact ih t ht hty (iJson_arr.mp hijson y hy)
    | _ => cases hsame
  | @object members hnames _ ih =>
    intro v hsame hijson
    obtain ⟨ms, hms, hperm⟩ := @jsonValue_object numberValue _ hnames
    rw [hms] at hsame
    have hmember : ∀ m ∈ members, WellFormed m.1 ∧ Strict numberValue m.2 := by
      intro m hm
      cases hsame with
      | @obj _ ns hns hvalues =>
        have hread : (m.1, jsonValue numberValue m.2) ∈ ms := hperm.mem_iff.mpr (List.mem_map_of_mem hm)
        obtain ⟨n, hn, hname⟩ := List.mem_map.mp (hns.mem_iff.mp (List.mem_map_of_mem hread))
        obtain ⟨hwell, hvalue⟩ := iJson_obj.mp hijson n hn
        rw [hname] at hwell
        exact ⟨hwell, ih m hm (hvalues _ hread n hn hname.symm) hvalue⟩
    exact .object hnames (fun m hm => (hmember m hm).1) (fun m hm => (hmember m hm).2)

section
variable {v w : JsValue}

theorem get_same (h : v = w ∨ Same v w) (name : String) :
    v.get (lit name) = w.get (lit name) ∨ Same (v.get (lit name)) (w.get (lit name)) := by
  obtain rfl | h := h
  · exact .inl rfl
  · cases h with
    | obj hnames hmembers => exact field_same (.obj hnames hmembers) name
    | null => exact .inl rfl
    | bool b => exact .inl rfl
    | num hde => exact .inl rfl
    | str s => exact .inl rfl
    | arr hlen hitems => exact .inl rfl

theorem shallow_same {α : Type} {f : JsValue → α} (hnum : ∀ m n, f (.num m) = f (.num n))
    (harr : ∀ xs ys, f (.arr xs) = f (.arr ys)) (hobj : ∀ ms ns, f (.obj ms) = f (.obj ns)) (h : v = w ∨ Same v w) :
    f v = f w := by
  obtain rfl | h := h
  · rfl
  · cases h with
    | obj _ _ => exact hobj _ _
    | null => rfl
    | bool b => rfl
    | num hde => exact hnum _ _
    | str s => rfl
    | arr hlen hitems => exact harr _ _

theorem text_same (h : v = w ∨ Same v w) : text v = text w :=
  shallow_same (fun _ _ => rfl) (fun _ _ => rfl) (fun _ _ => rfl) h

theorem isIdentifier_same (h : v = w ∨ Same v w) : isIdentifier v = isIdentifier w :=
  shallow_same (fun _ _ => rfl) (fun _ _ => rfl) (fun _ _ => rfl) h

theorem isHexText_same (n : Nat) (h : v = w ∨ Same v w) : isHexText n v = isHexText n w :=
  shallow_same (fun _ _ => rfl) (fun _ _ => rfl) (fun _ _ => rfl) h

theorem absentOr_same (n : Nat) (h : v = w ∨ Same v w) : absentOr (isHexText n) v = absentOr (isHexText n) w :=
  shallow_same (fun _ _ => rfl) (fun _ _ => rfl) (fun _ _ => rfl) h

theorem isUtcText_same (h : v = w ∨ Same v w) : isUtcText v = isUtcText w :=
  shallow_same (fun _ _ => rfl) (fun _ _ => rfl) (fun _ _ => rfl) h

theorem isArray_same (h : v = w ∨ Same v w) : isArray v = isArray w :=
  shallow_same (fun _ _ => rfl) (fun _ _ => rfl) (fun _ _ => rfl) h

theorem isAbsent_same (h : v = w ∨ Same v w) : isAbsent v = isAbsent w :=
  shallow_same (fun _ _ => rfl) (fun _ _ => rfl) (fun _ _ => rfl) h

theorem isNull_same (h : v = w ∨ Same v w) : isNull v = isNull w :=
  shallow_same (fun _ _ => rfl) (fun _ _ => rfl) (fun _ _ => rfl) h

theorem isText_same (s : String) (h : v = w ∨ Same v w) : isText s v = isText s w :=
  shallow_same (fun _ _ => rfl) (fun _ _ => rfl) (fun _ _ => rfl) h

theorem checkMembers_same (requireValues : Bool) (h : v = w ∨ Same v w) :
    checkMembers v requireValues = checkMembers w requireValues := by
  have hprofile : isProfile (v.get (lit "profile")) = isProfile (w.get (lit "profile")) :=
    shallow_same (fun _ _ => rfl) (fun _ _ => rfl) (fun _ _ => rfl) (get_same h "profile")
  have hdelegation : isDelegationRef (v.get (lit "delegation_ref")) = isDelegationRef (w.get (lit "delegation_ref")) :=
    shallow_same (fun _ _ => rfl) (fun _ _ => rfl) (fun _ _ => rfl) (get_same h "delegation_ref")
  have hresult : isRecord (v.get (lit "result")) = isRecord (w.get (lit "result")) :=
    shallow_same (fun _ _ => rfl) (fun _ _ => rfl) (fun _ _ => rfl) (get_same h "result")
  rw [checkMembers, checkMembers, hprofile, hdelegation, hresult, isIdentifier_same (get_same h "receipt_type"),
    isIdentifier_same (get_same h "issuer"), isIdentifier_same (get_same h "subject_agent"),
    isHexText_same 64 (get_same h "receipt_id"), isHexText_same 64 (get_same h "action_ref"),
    absentOr_same 64 (get_same h "decision_ref"), absentOr_same 64 (get_same h "prev"),
    isUtcText_same (get_same h "issued_at")]

theorem evidenceKey_same (h : v = w ∨ Same v w) : evidenceKey v = evidenceKey w := by
  rw [evidenceKey, evidenceKey, text_same (get_same h "artifact_type"), text_same (get_same h "sha256")]

theorem signatureKey_same (h : v = w ∨ Same v w) : signatureKey v = signatureKey w := by
  rw [signatureKey, signatureKey, text_same (get_same h "signer"), text_same (get_same h "key_id")]

theorem assertExactKeys_same {allowed required : List Str} {name : Str} (hrequired : required ≠ []) (h : Same v w)
    (hw : assertExactKeys w allowed required name = .ok ()) : assertExactKeys v allowed required name = .ok () := by
  rw [assertExactKeys_eq_ok hrequired] at hw ⊢
  obtain ⟨ns, rfl, hallowed, hpresent⟩ := hw
  cases h with
  | @obj ms _ hnames _ =>
    refine ⟨ms, rfl, ?_, fun key hkey => hnames.mem_iff.mpr (hpresent key hkey)⟩
    intro m hm
    obtain ⟨n, hn, hname⟩ := List.mem_map.mp (hnames.mem_iff.mp (List.mem_map_of_mem hm))
    rw [← hname]
    exact hallowed n hn

theorem checkEvidenceRef_same (h : Same v w) (hw : checkEvidenceRef w = .ok ()) : checkEvidenceRef v = .ok () := by
  obtain ⟨hkeys, hvalues⟩ := bind_unit_eq_ok.mp hw
  refine bind_unit_eq_ok.mpr ⟨assertExactKeys_same (by decide) h hkeys, ?_⟩
  rw [isIdentifier_same (get_same (.inr h) "artifact_type"), isHexText_same 64 (get_same (.inr h) "sha256")]
  exact hvalues

theorem checkSignature_same (requireValues : Bool) (h : Same v w) (hw : checkSignature requireValues w = .ok ()) :
    checkSignature requireValues v = .ok () := by
  have halg : isEd25519 (v.get (lit "alg")) = isEd25519 (w.get (lit "alg")) :=
    shallow_same (fun _ _ => rfl) (fun _ _ => rfl) (fun _ _ => rfl) (get_same (.inr h) "alg")
  obtain ⟨hkeys, hvalues⟩ := bind_unit_eq_ok.mp hw
  refine bind_unit_eq_ok.mpr ⟨assertExactKeys_same (by decide) h hkeys, ?_⟩
  rw [isIdentifier_same (get_same (.inr h) "signer"), isIdentifier_same (get_same (.inr h) "key_id"), halg,
    isHexText_same 128 (get_same (.inr h) "value")]
  exact hvalues

end

theorem clean_same {v w : JsValue} (h : Same v w) : Clean w → Clean v := by
  induction h with
  | null => exact fun h => h
  | bool b => exact fun h => h
  | num hde => exact fun _ _ => rfl
  | str s => exact fun h => h
  | @arr xs ys hlen hitems ih =>
    intro hw
    rw [clean_arr] at hw ⊢
    intro x hx
    have hpairs : List.Forall₂ (fun a b => Clean b → Clean a) xs ys :=
      List.forall₂_iff_zip.mpr ⟨hlen, fun {a b} hab => ih (a, b) hab⟩
    obtain ⟨y, hy, hxy⟩ := forall₂_mem hpairs hx
    exact hxy (hw y hy)
  | @obj ms ns hnames _ ih =>
    intro hw
    rw [clean_obj] at hw ⊢
    intro m hm
    obtain ⟨n, hn, hname⟩ := List.mem_map.mp (hnames.mem_iff.mp (List.mem_map_of_mem hm))
    obtain ⟨htext, hvalue⟩ := hw n hn
    rw [hname] at htext
    exact ⟨htext, ih m hm n hn hname.symm hvalue⟩

section
variable {xs ys : List JsValue}

theorem map_same {α : Type} {f : JsValue → α} (hf : ∀ {v w}, v = w ∨ Same v w → f v = f w) (h : List.Forall₂ Same xs ys) :
    xs.map f = ys.map f := by
  induction h with
  | nil => rfl
  | cons hfirst _ ih => rw [List.map_cons, List.map_cons, hf (.inr hfirst), ih]

theorem ascending_map {key : JsValue → Str × Str} :
    Ascending key xs ↔ (xs.map key).Pairwise (fun a b => before a b = true) ∧
      (xs.map key).Pairwise (fun a b => joined a ≠ joined b) := by
  rw [List.pairwise_map, List.pairwise_map]
  exact ⟨fun h => ⟨h.before, h.distinct⟩, fun h => ⟨h.1, h.2⟩⟩

theorem ascending_same {key : JsValue → Str × Str} (hkey : ∀ {v w}, v = w ∨ Same v w → key v = key w)
    (h : List.Forall₂ Same xs ys) : Ascending key xs ↔ Ascending key ys := by
  rw [ascending_map, ascending_map, map_same hkey h]

theorem forall_same {P : JsValue → Prop} (hP : ∀ {v w}, Same v w → P w → P v) (h : List.Forall₂ Same xs ys)
    (hys : ∀ y ∈ ys, P y) : ∀ x ∈ xs, P x := by
  intro x hx
  obtain ⟨y, hy, hxy⟩ := forall₂_mem h hx
  exact hP hxy (hys y hy)

end

section
variable {numText : Double → Str} {v w : JsValue}

theorem get_present {name : Str} (h : Same v w) (hthere : w.get name ≠ .undefined) : Same (v.get name) (w.get name) := by
  cases h with
  | @obj ms ns hnames hmembers =>
    have hn := mem_of_get hthere
    obtain ⟨m, hm, hname⟩ := List.mem_map.mp (hnames.mem_iff.mpr (List.mem_map_of_mem hn))
    have hsome : (ms.find? (fun m => m.1 = name)).isSome = true := by
      rw [List.find?_isSome]
      exact ⟨m, hm, decide_eq_true hname⟩
    obtain ⟨found, hfound⟩ := Option.isSome_iff_exists.mp hsome
    obtain ⟨hmem, hfoundName⟩ := find_name hfound
    have hget : (JsValue.obj ms).get name = found.2 := by
      rw [JsValue.get, member?, hfound]
      rfl
    rw [hget]
    exact hmembers found hmem _ hn hfoundName
  | _ => exact absurd rfl hthere

theorem items_present {name : Str} (h : Same v w) (hthere : isArray (w.get name) = true) :
    List.Forall₂ Same (items (v.get name)) (items (w.get name)) := by
  have hsame : Same (v.get name) (w.get name) := by
    apply get_present h
    intro hnone
    rw [hnone] at hthere
    cases hthere
  generalize v.get name = a at hsame
  generalize w.get name = b at hsame hthere
  cases hsame with
  | arr hlen hitems => exact same_items (.arr hlen hitems)
  | _ => exact .nil

theorem envelope_same (hsame : Same v w) (hijson : IJson v) (h : Envelope numText true w) : Envelope numText true v := by
  refine ⟨assertExactKeys_same (by decide) hsame h.keys, hijson, clean_same hsame h.clean, ?_, ?_⟩
  · rw [checkMembers_same true (.inr hsame)]
    exact h.members
  · obtain ⟨harrays, ⟨hrefs, hascending⟩, ⟨hproofs, hascending'⟩, proof, hproof, hissuer⟩ := checkLists_eq_ok.mp h.lists
    have hevidence := items_present hsame harrays.1
    have hsignatures := items_present hsame harrays.2
    rw [checkLists_eq_ok, isArray_same (get_same (.inr hsame) "evidence_refs"),
      isArray_same (get_same (.inr hsame) "signatures")]
    refine ⟨harrays, ⟨forall_same checkEvidenceRef_same hevidence hrefs, (ascending_same evidenceKey_same hevidence).mpr hascending⟩,
      ⟨forall_same (checkSignature_same true) hsignatures hproofs,
        (ascending_same signatureKey_same hsignatures).mpr hascending'⟩, ?_⟩
    obtain ⟨proof', hproof', hpair⟩ := forall₂_mem hsignatures.flip hproof
    refine ⟨proof', hproof', ?_⟩
    rw [signatureKey_same (.inr hpair), text_same (get_same (.inr hsame) "issuer")]
    exact hissuer

end

/-- An error without the field it names: of several unknown fields the first one is named. -/
def unnamed : ReceiptError → ReceiptError
  | .unknownField name _ => .unknownField name []
  | e => e

def unnamedFailure : StageFailure → StageFailure
  | .decisionResultInvalid e => .decisionResultInvalid (unnamed e)
  | f => f

def unnamedStage (stage : StageResult) : StageResult := { stage with failures := stage.failures.map unnamedFailure }

def unnamedReport (r : ReceiptVerificationV1) : ReceiptVerificationV1 := { r with stage := r.stage.map unnamedStage }

def Alike (x y : Check) : Prop := x.mapError unnamed = y.mapError unnamed

theorem Alike.bind {x x' y y' : Check} (hx : Alike x x') (hy : x = .ok () → x' = .ok () → Alike y y') :
    Alike (x >>= fun _ => y) (x' >>= fun _ => y') := by
  cases x with
  | error e =>
    cases x' with
    | error e' => exact hx
    | ok _ => cases hx
  | ok _ =>
    cases x' with
    | error e' => cases hx
    | ok _ => exact hy rfl rfl

theorem Alike.of_eq {x y : Check} (h : x = y) : Alike x y := congrArg (Except.mapError unnamed) h

section
variable {ms ns : List (Str × JsValue)}

theorem unknownField_alike {name : Str} {allowed : List Str} (h : (ms.map Prod.fst).Perm (ns.map Prod.fst)) :
    Alike (unknownField name allowed ms) (unknownField name allowed ns) := by
  by_cases hms : ∀ m ∈ ms, m.1 ∈ allowed
  · have hns : ∀ n ∈ ns, n.1 ∈ allowed := by
      intro n hn
      obtain ⟨m, hm, hname⟩ := List.mem_map.mp (h.mem_iff.mpr (List.mem_map_of_mem hn))
      rw [← hname]
      exact hms m hm
    exact .of_eq ((unknownField_eq_ok.mpr hms).trans (unknownField_eq_ok.mpr hns).symm)
  · have hns : ¬ ∀ n ∈ ns, n.1 ∈ allowed := by
      intro hns
      apply hms
      intro m hm
      obtain ⟨n, hn, hname⟩ := List.mem_map.mp (h.mem_iff.mp (List.mem_map_of_mem hm))
      rw [← hname]
      exact hns n hn
    have hfails : ∀ {members : List (Str × JsValue)}, (¬ ∀ m ∈ members, m.1 ∈ allowed) →
        (unknownField name allowed members).mapError unnamed = .error (.unknownField name []) := by
      intro members hnot
      rw [← @unknownField_eq_ok name] at hnot
      rw [unknownField] at hnot ⊢
      split
      · rfl
      · rename_i hnone
        rw [hnone] at hnot
        exact absurd rfl hnot
    exact (hfails hms).trans (hfails hns).symm

theorem missingField_same {name : Str} {required : List Str} (h : (ms.map Prod.fst).Perm (ns.map Prod.fst)) :
    missingField name required ms = missingField name required ns := by
  have hany : ∀ key : Str, ms.any (fun m => m.1 = key) = ns.any (fun m => m.1 = key) := by
    intro key
    rw [Bool.eq_iff_iff, any_name, any_name]
    exact h.mem_iff
  rw [missingField, missingField]
  simp only [hany]

end

section
variable {v w : JsValue}

theorem assertExactKeys_alike {allowed required : List Str} {name : Str} (h : Same v w) :
    Alike (assertExactKeys v allowed required name) (assertExactKeys w allowed required name) := by
  cases h with
  | obj hnames _ => exact (unknownField_alike hnames).bind (fun _ _ => .of_eq (missingField_same hnames))
  | @arr xs ys hlen _ =>
    cases xs with
    | nil =>
      cases ys with
      | nil => exact .of_eq rfl
      | cons y ys => cases hlen
    | cons x xs =>
      cases ys with
      | nil => cases hlen
      | cons y ys => exact .of_eq rfl
  | null => exact .of_eq rfl
  | bool b => exact .of_eq rfl
  | num hde => exact .of_eq rfl
  | str s => exact .of_eq rfl

theorem isStrings_same (h : v = w ∨ Same v w) : isStrings v = isStrings w := by
  obtain rfl | h := h
  · rfl
  · cases h with
    | @arr xs ys hlen hitems =>
      have hmap : xs.map isStr = ys.map isStr :=
        map_same (fun h => shallow_same (fun _ _ => rfl) (fun _ _ => rfl) (fun _ _ => rfl) h) (same_items (.arr hlen hitems))
      have hall : ∀ zs : List JsValue, zs.all isStr = (zs.map isStr).all id := fun zs => by rw [List.all_map]; rfl
      rw [isStrings, isStrings, hall, hall, hmap]
    | _ => rfl

theorem constraintsOf_same (h : Same v w) : constraintsOf v = constraintsOf w := by
  rw [constraintsOf, constraintsOf]
  rcases get_same (.inr h) "constraints" with heq | hsame
  · rw [heq]
  · generalize v.get (lit "constraints") = a at hsame
    generalize w.get (lit "constraints") = b at hsame
    cases hsame with
    | arr hlen hitems => exact map_same text_same (same_items (.arr hlen hitems))
    | _ => rfl

variable {T : TextRuntime}

theorem validateCoreDecisionOutput_alike (h : Same v w) (hv : assertStrict T.numText v = .ok ())
    (hw : assertStrict T.numText w = .ok ()) :
    Alike (validateCoreDecisionOutputV1 T v) (validateCoreDecisionOutputV1 T w) := by
  have hget := fun name => get_same (.inr h) name
  have hshape : Alike (assertCoreDecisionOutputShapeV1 T v) (assertCoreDecisionOutputShapeV1 T w) := by
    refine (assertExactKeys_alike h).bind (fun _ _ => ?_)
    rw [hv, hw, isText_same _ (hget "profile"), isVerdict, isVerdict, isText_same _ (hget "verdict"),
      isText_same _ (hget "verdict"), isText_same _ (hget "verdict"), checkAuthorityRef, checkAuthorityRef, checkValidUntil,
      checkValidUntil, isNull_same (hget "effective_authority_ref"), isHexText_same 64 (hget "effective_authority_ref"),
      isText_same _ (hget "verdict"), isStrings_same (hget "constraints"), isNull_same (hget "valid_until"),
      isUtcText_same (hget "valid_until")]
    exact .of_eq rfl
  refine hshape.bind (fun _ _ => ?_)
  rw [constraintsOf_same h]
  exact .of_eq rfl

theorem keysOf_perm (h : v = w ∨ Same v w) : (keysOf v).Perm (keysOf w) := by
  obtain rfl | h := h
  · exact .refl _
  · cases h with
    | obj hnames _ => exact hnames
    | _ => exact .refl _

theorem joinedKeys_perm {keys keys' : List Str} (h : keys.Perm keys') : joinedKeys keys = joinedKeys keys' := by
  rw [joinedKeys, joinedKeys, DelegationSchema.sortNames_eq_of_perm h]

theorem checkActionIntent_same (h : Same v w) : checkActionIntent v = checkActionIntent w := by
  have hget := fun name => get_same (.inr h) name
  have hresult := hget "result"
  have hkeys := keysOf_perm hresult
  have hstatus : (keysOf (v.get (lit "result"))).any (· = lit "status") =
      (keysOf (w.get (lit "result"))).any (· = lit "status") := hkeys.any_eq
  rw [checkActionIntent, checkActionIntent, text_same (hget "issuer"), text_same (hget "subject_agent"),
    isAbsent_same (hget "prev"), isAbsent_same (hget "decision_ref"), isText_same _ (get_same hresult "profile"),
    isText_same _ (get_same hresult "status"), hkeys.length_eq, hstatus]

theorem checkResultStatus_same (h : v = w ∨ Same v w) : checkResultStatus v = checkResultStatus w := by
  have hget := fun name => get_same h name
  rw [checkResultStatus, checkResultStatus, isText_same _ (hget "status"), isText_same _ (hget "status"),
    isText_same _ (hget "status"), isNull_same (hget "effect_ref"), isHexText_same 64 (hget "effect_ref"),
    isNull_same (hget "error_code"), isIdentifier_same (hget "error_code")]

theorem checkActionResult_same (h : Same v w) : checkActionResult v = checkActionResult w := by
  have hget := fun name => get_same (.inr h) name
  have hresult := hget "result"
  have hkeys := keysOf_perm hresult
  rw [checkActionResult, checkActionResult, isAbsent_same (hget "prev"), isAbsent_same (hget "decision_ref"),
    isText_same _ (get_same hresult "profile"), hkeys.length_eq, joinedKeys_perm hkeys, checkResultStatus_same hresult]

theorem checkDecisionResult_alike (h : Same v w)
    (hv : IJson (v.get (lit "result")) ∧ keyed (v.get (lit "result")) = true)
    (hw : IJson (w.get (lit "result")) ∧ keyed (w.get (lit "result")) = true)
    (hresult : Same (v.get (lit "result")) (w.get (lit "result"))) :
    (checkDecisionResult T v).map unnamedFailure = (checkDecisionResult T w).map unnamedFailure := by
  have halike := validateCoreDecisionOutput_alike (T := T) hresult ((assertStrict_eq_ok hv.2).mpr hv.1)
    ((assertStrict_eq_ok hw.2).mpr hw.1)
  rw [checkDecisionResult, checkDecisionResult, text_same (get_same (.inr h) "issued_at"),
    text_same (get_same (.inr hresult) "valid_until"), isText_same _ (get_same (.inr hresult) "verdict")]
  rw [Alike] at halike
  cases hx : validateCoreDecisionOutputV1 T (v.get (lit "result")) with
  | error e =>
    cases hy : validateCoreDecisionOutputV1 T (w.get (lit "result")) with
    | error e' =>
      rw [hx, hy] at halike
      exact congrArg (fun e => [StageFailure.decisionResultInvalid e]) (Except.error.inj halike)
    | ok _ =>
      rw [hx, hy] at halike
      cases halike
  | ok _ =>
    cases hy : validateCoreDecisionOutputV1 T (w.get (lit "result")) with
    | error e' =>
      rw [hx, hy] at halike
      cases halike
    | ok _ => rfl

theorem boundaryResult_alike (h : Same v w) (options : StageOptions) (stage : Stage) {failures failures' : List StageFailure}
    (hfailures : failures.map unnamedFailure = failures'.map unnamedFailure) :
    unnamedStage (boundaryResult v options stage failures) = unnamedStage (boundaryResult w options stage failures') := by
  have hlength : failures.length = failures'.length := by
    rw [← List.length_map unnamedFailure, hfailures, List.length_map]
  rw [boundaryResult, boundaryResult, text_same (get_same (.inr h) "issuer"), text_same (get_same (.inr h) "receipt_type")]
  simp only [unnamedStage, List.map_append, hfailures, List.length_append, hlength]

theorem stageResult_alike (h : Same v w) (options : StageOptions)
    (hv : IJson (v.get (lit "result")) ∧ keyed (v.get (lit "result")) = true)
    (hw : IJson (w.get (lit "result")) ∧ keyed (w.get (lit "result")) = true)
    (hresult : Same (v.get (lit "result")) (w.get (lit "result"))) :
    unnamedStage (stageResult T v options) = unnamedStage (stageResult T w options) := by
  have hpolicy : (checkPolicyDecision T v).map unnamedFailure = (checkPolicyDecision T w).map unnamedFailure := by
    rw [checkPolicyDecision, checkPolicyDecision, List.map_append, List.map_append, isAbsent_same (get_same (.inr h) "prev"),
      isAbsent_same (get_same (.inr h) "decision_ref"), checkDecisionResult_alike h hv hw hresult,
      List.map_append, List.map_append]
  rw [stageResult, stageResult, text_same (get_same (.inr h) "receipt_type"), checkActionIntent_same h]
  split
  · rfl
  · split
    · rfl
    · rfl
    · exact boundaryResult_alike h options _ hpolicy
    · exact boundaryResult_alike h options _ (by rw [checkActionResult_same h])

end

theorem same_without {v w : JsValue} (names : List Str) (h : Same v w) : Same (without v names) (without w names) := by
  cases h with
  | null => exact .null
  | bool b => exact .bool b
  | num hde => exact .num hde
  | str s => exact .str s
  | arr hlen hitems => exact .arr hlen hitems
  | @obj ms ns hnames hmembers =>
    refine .obj ?_ (fun m hm n hn => hmembers m (List.mem_of_mem_filter hm) n (List.mem_of_mem_filter hn))
    have hfilter : ∀ xs : List (Str × JsValue), (xs.filter (fun m => !names.any (· = m.1))).map Prod.fst =
        (xs.map Prod.fst).filter (fun k => !names.any (· = k)) := by
      intro xs
      rw [List.filter_map]
      rfl
    rw [hfilter, hfilter]
    exact hnames.filter _

/-- A value that is read or written as I-JSON. -/
structure Plain (v : JsValue) : Prop where
  iJson : IJson v
  keyed : keyed v = true

theorem Plain.isJson {v : JsValue} (h : Plain v) : IsJson v := isJson_of_iJson h.iJson h.keyed

theorem Plain.without {v : JsValue} (h : Plain v) (names : List Str) : Plain (without v names) :=
  ⟨iJson_without h.iJson, keyed_without h.keyed⟩

theorem Plain.item {v item : JsValue} {name : Str} (h : Plain v) (hitem : item ∈ items (v.get name)) : Plain item :=
  ⟨iJson_item h.iJson hitem, keyed_item h.keyed hitem⟩

section
variable {R : Runtime} (hnum : NumberRendering R.numText) {v w : JsValue}
include hnum

theorem idOf_same (h : Same v w) (hv : Plain v) (hw : Plain w) : idOf R v = idOf R w := by
  rw [idOf, idOf, emit_congr hnum (same_without _ h) (hv.without _).isJson (hw.without _).isJson]

theorem signedText_same (h : Same v w) (hv : Plain v) (hw : Plain w) {d e : JsValue} (hde : Same d e) (hd : Plain d)
    (he : Plain e) : signedText R v d = signedText R w e := by
  have hform : Same (signedForm v d) (signedForm w e) := by
    refine .obj (.refl _) ?_
    have hne : lit "receipt" ≠ lit "signer" := by decide
    rw [List.forall_mem_cons, List.forall_mem_singleton, List.forall_mem_cons, List.forall_mem_singleton,
      List.forall_mem_cons, List.forall_mem_singleton]
    exact ⟨⟨fun _ => same_without _ h, fun heq => absurd heq hne⟩, fun heq => absurd heq.symm hne, fun _ => hde⟩
  rw [signedText, signedText, emit_congr hnum hform
    (isJson_of_iJson (iJson_signedForm hv.iJson hd.iJson) (keyed_signedForm hv.keyed hd.keyed))
    (isJson_of_iJson (iJson_signedForm hw.iJson he.iJson) (keyed_signedForm hw.keyed he.keyed))]

variable {resolveKey : KeyResolver}

theorem proofResult_same (h : Same v w) (hv : Plain v) (hw : Plain w) (required : List Str) {p q : JsValue} (hpq : Same p q)
    (hp : Plain p) (hq : Plain q) : proofResult R resolveKey v required p = proofResult R resolveKey w required q := by
  rw [proofResult, proofResult, text_same (get_same (.inr hpq) "signer"), text_same (get_same (.inr hpq) "key_id"),
    text_same (get_same (.inr hpq) "value"), text_same (get_same (.inr h) "issued_at"),
    signedText_same hnum h hv hw (same_without _ hpq) (hp.without _) (hq.without _)]

theorem results_same (h : Same v w) (hv : Plain v) (hw : Plain w) (required : List Str) {xs ys : List JsValue}
    (hitems : List.Forall₂ Same xs ys) (hxs : ∀ x ∈ xs, Plain x) (hys : ∀ y ∈ ys, Plain y) :
    xs.map (proofResult R resolveKey v required) = ys.map (proofResult R resolveKey w required) := by
  induction hitems with
  | nil => rfl
  | cons hfirst _ ih =>
    obtain ⟨hx, hxs⟩ := List.forall_mem_cons.mp hxs
    obtain ⟨hy, hys⟩ := List.forall_mem_cons.mp hys
    rw [List.map_cons, List.map_cons, proofResult_same hnum h hv hw required hfirst hx hy, ih hxs hys]

omit hnum in
theorem aggregate_alike {required : List Str} {idValid : Bool} {results : List SignatureResult} {stage stage' : StageResult}
    (h : unnamedStage stage = unnamedStage stage') :
    unnamedReport (aggregate required idValid results stage) = unnamedReport (aggregate required idValid results stage') := by
  have hstatus : stage.status = stage'.status := by
    change (unnamedStage stage).status = (unnamedStage stage').status
    rw [h]
  have hcode : ∀ f : StageFailure, (unnamedFailure f).code = f.code := by
    intro f
    cases f <;> rfl
  have hcodes : stage.failures.map StageFailure.code = stage'.failures.map StageFailure.code := by
    have hmapped := congrArg (fun s : StageResult => s.failures.map StageFailure.code) h
    simp only [unnamedStage, List.map_map, Function.comp_def, hcode] at hmapped
    exact hmapped
  have hentries : stage.failures.map (fun f => ErrorEntry.stageCode f.code) =
      stage'.failures.map (fun f => ErrorEntry.stageCode f.code) := by
    have hmapped := congrArg (List.map ErrorEntry.stageCode) hcodes
    rw [List.map_map, List.map_map] at hmapped
    exact hmapped
  simp only [unnamedReport, aggregate, hstatus, hentries, Option.map_some, h]

theorem report_alike (h : Same v w) (hv : Plain v) (hw : Plain w) (henvelope : Envelope R.numText true w)
    (stageOptions : StageOptions) (requiredSigners : List Str) :
    unnamedReport (report R resolveKey v stageOptions requiredSigners) =
      unnamedReport (report R resolveKey w stageOptions requiredSigners) := by
  have hrequired : requiredOf v requiredSigners = requiredOf w requiredSigners := by
    rw [requiredOf, requiredOf, text_same (get_same (.inr h) "issuer")]
  have hsignatures := items_present h (checkLists_eq_ok.mp henvelope.lists).1.2
  have hresults : ∀ required, (items (v.get (lit "signatures"))).map (proofResult R resolveKey v required) =
      (items (w.get (lit "signatures"))).map (proofResult R resolveKey w required) := by
    intro required
    exact results_same hnum h hv hw required hsignatures (fun _ hx => hv.item hx) (fun _ hy => hw.item hy)
  have hthere : w.get (lit "result") ≠ .undefined := by
    intro hnone
    have hrecord := henvelope.result_isRecord
    rw [hnone] at hrecord
    cases hrecord
  have hresult := get_present h hthere
  have hthere' : v.get (lit "result") ≠ .undefined := by
    intro hnone
    rw [hnone] at hresult
    cases hresult
  have hstage := stageResult_alike (T := R.toTextRuntime) h stageOptions ⟨iJson_get hv.iJson hthere', keyed_get hv.keyed⟩
    ⟨iJson_get hw.iJson hthere, keyed_get hw.keyed⟩ hresult
  rw [report, report, hrequired, idOf_same hnum h hv hw, text_same (get_same (.inr h) "receipt_id"), hresults]
  exact aggregate_alike hstage

end

theorem spelled_value {R : Runtime} (hstack : 128 ≤ R.stackLimit) {raw : Str} {receipt : JsValue}
    (hraw : JsonText raw tree) (hspells : Spells R.numberValue tree receipt) (hsize : byteLength raw ≤ 1048576)
    (hdepth : Within 128 tree) (hijson : IJson receipt) :
    parseStrictIJson R.numberValue R.stackLimit raw MAX_UTF8_BYTES MAX_DEPTH = .ok (jsonValue R.numberValue tree) ∧
      Plain (jsonValue R.numberValue tree) := by
  have hbytes : limitOf MAX_UTF8_BYTES = some 1048576 := by decide +kernel
  have hlimit : limitOf MAX_DEPTH = some 128 := by decide +kernel
  have hstrict := strict_of_same hspells.duplicateFree hspells.same hijson
  generalize MAX_UTF8_BYTES = maxUtf8Bytes at hbytes ⊢
  generalize MAX_DEPTH = maxDepth at hlimit ⊢
  have hdecides := @parseStrictIJson_decides R.numberValue _ _ _ _ _ _ hbytes hsize hlimit hstack _ hraw
  exact ⟨hdecides.1 ⟨hdepth, hstrict⟩, assertIJson_strict hstrict, (jsonValue_shape hstrict).1⟩

theorem serialized_eq {R : Runtime} {raw : Str} {v : JsValue} {resolveKey : KeyResolver} {stageOptions : StageOptions}
    {requiredSigners : List Str}
    (h : parseStrictIJson R.numberValue R.stackLimit raw MAX_UTF8_BYTES MAX_DEPTH = .ok v) :
    verifyReceiptV1Serialized R raw resolveKey stageOptions requiredSigners =
      verifyReceiptV1 R v resolveKey stageOptions requiredSigners :=
  congrArg (fun parsed => verifyParsed R parsed resolveKey stageOptions requiredSigners) h

/-- An issued receipt verifies, in every spelling and from every order of its input. -/
theorem issued_receipt_verifies {R : Runtime} (hnum : NumberRendering R.numText) (hstack : 128 ≤ R.stackLimit)
    {fields : List (Str × JsValue)} {signers : List ReceiptSignerV1} {receipt : JsValue}
    (hkeyed : keyed (.obj fields) = true) (hcreated : createReceiptV1 R fields signers = .ok receipt)
    {resolveKey : KeyResolver} {publicKey : Str → Str} (hkeys : KnowsKeys R resolveKey publicKey signers) :
    (∀ stageOptions, ∃ result,
      verifyReceiptV1 R receipt resolveKey stageOptions [] = .ok result ∧
      result.receipt_id_valid = some true ∧
      (result.signature_results.length = signers.length ∧ ∀ s ∈ result.signature_results, s.valid = true) ∧
      result.signer_authority = .verified ∧
      result.stage = some (validateReceiptStageV1 R.toTextRuntime receipt stageOptions) ∧
      result.status = (validateReceiptStageV1 R.toTextRuntime receipt stageOptions).status ∧
      ∀ raw tree, JsonText raw tree → Spells R.numberValue tree receipt → byteLength raw ≤ 1048576 → Within 128 tree →
        ∃ result', verifyReceiptV1Serialized R raw resolveKey stageOptions [] = .ok result' ∧
          unnamedReport result' = unnamedReport result) ∧
    ∀ refs refs' signers', (JsValue.obj fields).get (lit "evidence_refs") = .arr refs → refs'.Perm refs →
      signers'.Perm signers →
      createReceiptV1 R (setMember (lit "evidence_refs") (.arr refs') fields) signers' = .ok receipt := by
  obtain ⟨refs, signatures, h⟩ := (createReceipt_eq_ok hkeyed).mp hcreated
  have hreceipt : Plain receipt := ⟨h.envelope.iJson, h.keyed_receipt hkeyed⟩
  refine ⟨?_, fun refs refs' signers' hrefs hperm hsigners => createReceipt_of_perm hkeyed hcreated hrefs hperm hsigners⟩
  intro stageOptions
  obtain ⟨hid, hvalid, hauthority, hstatus⟩ := h.report_facts hkeyed hkeys stageOptions
  have hlength : (report R resolveKey receipt stageOptions []).signature_results.length = signers.length := by
    change ((items (receipt.get (lit "signatures"))).map _).length = _
    rw [List.length_map, h.get_signatures, ← (sortBy_perm signers).length_eq]
    exact h.signed.length_eq.symm
  rw [stage_eq hreceipt.keyed h.envelope]
  refine ⟨_, verifyReceipt_eq hreceipt.keyed h.envelope stageOptions [], hid, ⟨hlength, hvalid⟩, hauthority, rfl, hstatus, ?_⟩
  intro raw tree hraw hspells hsize hdepth
  obtain ⟨hparse, hplain⟩ := spelled_value hstack hraw hspells hsize hdepth hreceipt.iJson
  have henvelope := envelope_same hspells.same hplain.iJson h.envelope
  refine ⟨report R resolveKey (jsonValue R.numberValue tree) stageOptions [], ?_, ?_⟩
  · exact (serialized_eq hparse).trans (verifyReceipt_eq hplain.keyed henvelope stageOptions [])
  · exact report_alike hnum hspells.same hplain hreceipt h.envelope stageOptions []

/-! ### A decision with two fields that are unknown

It is signed by two, and its evidence is given out of order. The digest and the signatures are those of
SHA-256 and of Ed25519 with the private keys of 32 bytes `01` and `02`. -/

def gateId : Str := lit "f420dc62abffa40a2011f55cba3937957cc7fcc624497cdea0e53f0ebc9548e4"

def gateKey : Str := lit "8a88e3dd7409f195fd52db2d3cba5d72ca6709bf1d94121bf3748801b40f6f5c"

def witnessKey : Str := lit "8139770ea87d175f56a35466c34c7ecccb8d8a91b4ee37a25df60f5b8fc9b394"

def gateHead : Str :=
  lit "\"action_ref\":\"" ++ List.replicate 64 0x61 ++ lit "\",\"delegation_ref\":\"sha256:" ++ List.replicate 64 0x64 ++
    lit "\",\"evidence_refs\":[\x7b\"artifact_type\":\"log\",\"sha256\":\"" ++ List.replicate 64 0x65 ++
    lit "\"\x7d,\x7b\"artifact_type\":\"plan\",\"sha256\":\"" ++ List.replicate 64 0x66 ++
    lit "\"\x7d],\"issued_at\":\"2026-01-02T03:04:05.006Z\",\"issuer\":\"gate:g\",\"profile\":\"aps-receipt-v1\","

def gateTail : Str :=
  lit "\"receipt_type\":\"aps:policy-decision:v1\",\"result\":\x7b\"x\":\"1\",\"y\":\"2\"\x7d," ++
    lit "\"subject_agent\":\"agent:a\"\x7d"

def gateSigner : ReceiptSignerV1 := ⟨lit "gate:g", lit "k1", (List.replicate 32 (lit "01")).flatten⟩

def witnessSigner : ReceiptSignerV1 := ⟨lit "witness:w", lit "k2", (List.replicate 32 (lit "02")).flatten⟩

def gateSigners : List ReceiptSignerV1 := [witnessSigner, gateSigner]

def gatePayload (s : ReceiptSignerV1) : Str :=
  lit "APS-RECEIPT-SIG-V1\x00\x7b\"receipt\":\x7b" ++ gateHead ++ lit "\"receipt_id\":\"" ++ gateId ++ lit "\"," ++
    gateTail ++ lit ",\"signer\":\x7b\"alg\":\"Ed25519\",\"key_id\":\"" ++ s.key_id ++ lit "\",\"signer\":\"" ++
    s.signer ++ lit "\"\x7d\x7d"

def gateSignature (privateKey : Str) : Str :=
  if privateKey = gateSigner.private_key then
    lit "d082314fe542ec1d0fcae64318937c8db6c29f9d985d66e5c6b29659feb59fea" ++
      lit "e146618826dceda2d818ecd3bd6d347a3e3f0b30097f948a0ea15ff9d109ed0d"
  else
    lit "f97b636411ce65a6eae95018fadb754531ef8c16d487c393687f843cd9b6d267" ++
      lit "991b08da0bd3438bd5407afe67604db38eec64854b03e04314d50b37a6d08a03"

def publicKeyOf (privateKey : Str) : Str := if privateKey = gateSigner.private_key then gateKey else witnessKey

def gateRuntime : Runtime where
  numText := exactText
  nfc := id
  numberValue := exactValue
  stackLimit := 1000
  sha256 := Sha256.ofTable [(Utf8.utf8 (lit "APS-RECEIPT-ID-V1\x00\x7b" ++ gateHead ++ gateTail), gateId)]
  sign payload privateKey :=
    (gateSigners.find? (fun s => payload = gatePayload s ∧ privateKey = s.private_key)).map
      (fun s => gateSignature s.private_key)
  verify payload signature publicKey := gateSigners.any
    (fun s => payload = gatePayload s ∧ signature = gateSignature s.private_key ∧
      publicKey = publicKeyOf s.private_key)

def gateEvidence : List JsValue :=
  [.obj [(lit "artifact_type", .str (lit "log")), (lit "sha256", .str (List.replicate 64 0x65))],
    .obj [(lit "artifact_type", .str (lit "plan")), (lit "sha256", .str (List.replicate 64 0x66))]]

def gateMembers (evidence : List JsValue) : List (Str × JsValue) :=
  [(lit "profile", .str PROFILE), (lit "receipt_type", .str (lit "aps:policy-decision:v1")),
    (lit "issuer", .str (lit "gate:g")), (lit "subject_agent", .str (lit "agent:a")),
    (lit "action_ref", .str (List.replicate 64 0x61)),
    (lit "delegation_ref", .str (lit "sha256:" ++ List.replicate 64 0x64)),
    (lit "issued_at", .str (lit "2026-01-02T03:04:05.006Z")), (lit "evidence_refs", .arr evidence),
    (lit "result", .obj [(lit "y", .str (lit "2")), (lit "x", .str (lit "1"))])]

def gateFields : List (Str × JsValue) := gateMembers gateEvidence.reverse

def gateReceipt : JsValue :=
  .obj (gateMembers gateEvidence ++ [(lit "receipt_id", JsValue.str gateId),
    (lit "signatures", .arr [entry gateSigner (gateSignature gateSigner.private_key),
      entry witnessSigner (gateSignature witnessSigner.private_key)])])

def gateResolver : KeyResolver := fun signer _ _ => .key (if signer = gateSigner.signer then gateKey else witnessKey)

def noOptions : StageOptions := ⟨none, none⟩

theorem gate_keyed : keyed (.obj gateFields) = true := by decide

theorem created_eq {R : Runtime} {fields : List (Str × JsValue)} {signers : List ReceiptSignerV1} {receipt : JsValue}
    {refs : List JsValue} {value : Str → Str} (hkeyed : keyed (.obj fields) = true)
    (hcreated : createReceiptV1 R fields signers = .ok receipt)
    (hrefs : (JsValue.obj fields).get (lit "evidence_refs") = .arr refs)
    (hsign : ∀ payload key v, R.sign payload key = some v → v = value key) :
    receipt = setField "signatures" (.arr ((sortSigners signers).map (fun s => entry s (value s.private_key))))
      (setField "receipt_id" (.str (idOf R (draftOf fields (sortEvidence refs)))) (draftOf fields (sortEvidence refs))) := by
  obtain ⟨found, signatures, h⟩ := (createReceipt_eq_ok hkeyed).mp hcreated
  have hdraft : keyed (identified R (draftOf fields (sortEvidence found))) = true :=
    keyed_setField (keyed_draftOf hkeyed h.spread_eq) rfl
  have hspread := h.spread_eq
  rw [hrefs] at hspread
  cases hspread
  have hsignatures : (sortSigners signers).map (fun s => entry s (value s.private_key)) = signatures := by
    rw [← List.forall₂_eq_eq_eq, List.forall₂_map_left_iff]
    refine h.signed.imp fun s proof hproof => ?_
    obtain ⟨v, hv, rfl⟩ := signReceipt_eq_ok hdraft hproof
    rw [hsign _ _ v hv]
  rw [h.receipt_eq, hsignatures]
  rfl

theorem gate_sign {payload key v : Str} (h : gateRuntime.sign payload key = some v) :
    ∃ s ∈ gateSigners, payload = gatePayload s ∧ key = s.private_key ∧ v = gateSignature key := by
  obtain ⟨s, hfound, rfl⟩ := Option.map_eq_some_iff.mp h
  have hmatch := List.find?_some hfound
  rw [decide_eq_true_eq] at hmatch
  exact ⟨s, List.mem_of_find?_eq_some hfound, hmatch.1, hmatch.2, congrArg gateSignature hmatch.2.symm⟩

theorem gate_created : createReceiptV1 gateRuntime gateFields gateSigners = .ok gateReceipt := by
  have hok : (createReceiptV1 gateRuntime gateFields gateSigners).isOk = true := by decide +kernel
  have hid : idOf gateRuntime (draftOf gateFields gateEvidence) = gateId := by decide +kernel
  have hsorted : sortEvidence gateEvidence.reverse = gateEvidence := rfl
  have hsigners : sortSigners gateSigners = [gateSigner, witnessSigner] := by decide
  obtain ⟨receipt, hcreated⟩ := exists_of_isOk hok
  have hreceipt := created_eq gate_keyed hcreated rfl (fun _ _ _ h => (gate_sign h).elim fun _ hs => hs.2.2.2)
  rw [hsorted, hid, hsigners] at hreceipt
  rw [hcreated, hreceipt]
  rfl

theorem gate_knows : KnowsKeys gateRuntime gateResolver publicKeyOf gateSigners := by
  have hresolves : ∀ s ∈ gateSigners, (if s.signer = gateSigner.signer then gateKey else witnessKey) =
      publicKeyOf s.private_key := by
    decide
  refine ⟨fun s hs _ => congrArg KeyAnswer.key (hresolves s hs), by decide, ?_⟩
  intro s hs payload value hsign
  obtain ⟨t, ht, hpayload, hkey, hvalue⟩ := gate_sign hsign
  refine List.any_eq_true.mpr ⟨t, ht, decide_eq_true ⟨hpayload, ?_, ?_⟩⟩
  · rw [hvalue, hkey]
  · rw [hkey]

theorem duplicateFree_of_strict {numberValue : Str → JsNumber} (h : Strict numberValue tree) : DuplicateFree tree := by
  induction h with
  | null => exact .null
  | bool b => exact .bool b
  | number _ => exact .number _
  | string _ => exact .string _
  | array _ ih => exact .array ih
  | object hnames _ _ ih => exact .object hnames ih

theorem gate_spelled : JsonText (emit exactText gateReceipt) (written exactText gateReceipt) ∧
    Spells exactValue (written exactText gateReceipt) gateReceipt ∧ byteLength (emit exactText gateReceipt) ≤ 1048576 ∧
      Within 128 (written exactText gateReceipt) := by
  obtain ⟨refs, signatures, h⟩ := (createReceipt_eq_ok gate_keyed).mp gate_created
  have hplain : Plain gateReceipt := ⟨h.envelope.iJson, h.keyed_receipt gate_keyed⟩
  refine ⟨⟨[], _, [], ?_, ws_nil, ws_nil, valueText_emit exact_roundTrip.grammar hplain.isJson⟩,
    ⟨duplicateFree_of_strict (strict_written exact_roundTrip hplain.isJson _ (hplain.iJson [])),
      same_of_written exact_roundTrip hplain.isJson⟩, by decide +kernel, within_written hplain.isJson _ (by decide)⟩
  rw [List.append_nil, List.nil_append]

/-- The receipt verifies, as it does in its canonical spelling, and it is issued whatever the order of the evidence
and of the signers. -/
theorem gate_verifies :
    (∃ result result', verifyReceiptV1 gateRuntime gateReceipt gateResolver noOptions [] = .ok result ∧
      result.receipt_id_valid = some true ∧ result.signature_results.length = 2 ∧
      (∀ s ∈ result.signature_results, s.valid = true) ∧ result.signer_authority = .verified ∧
      result.status = (validateReceiptStageV1 gateRuntime.toTextRuntime gateReceipt noOptions).status ∧
      verifyReceiptV1Serialized gateRuntime (emit exactText gateReceipt) gateResolver noOptions [] = .ok result' ∧
      unnamedReport result' = unnamedReport result) ∧
    createReceiptV1 gateRuntime (setMember (lit "evidence_refs") (.arr gateEvidence) gateFields) gateSigners.reverse =
      .ok gateReceipt := by
  obtain ⟨hverifies, horder⟩ := issued_receipt_verifies exact_roundTrip.toNumberRendering (by decide) gate_keyed
    gate_created gate_knows
  obtain ⟨result, hverified, hid, ⟨hlength, hvalid⟩, hauthority, -, hstatus, hspelled⟩ := hverifies noOptions
  obtain ⟨htext, hspells, hsize, hdepth⟩ := gate_spelled
  obtain ⟨result', hserialized, hsame⟩ := hspelled _ _ htext hspells hsize hdepth
  refine ⟨⟨result, result', hverified, hid, hlength, hvalid, hauthority, hstatus, hserialized, hsame⟩, ?_⟩
  exact horder _ _ _ rfl (List.reverse_perm _).symm (List.reverse_perm _)

theorem gate_other_field :
    stageResult gateRuntime.toTextRuntime gateReceipt noOptions ≠
      stageResult gateRuntime.toTextRuntime (jsonValue exactValue (written exactText gateReceipt)) noOptions := by
  decide

/-- Of two unknown fields the first is named, so another spelling of the receipt is reported with another
detail. -/
theorem spelling_names_other_field :
    ¬ ∀ (R : Runtime) (fields : List (Str × JsValue)) (signers : List ReceiptSignerV1) (receipt : JsValue)
        (resolveKey : KeyResolver) (publicKey : Str → Str) (raw : Str) (tree : JsonTree) (result : ReceiptVerificationV1),
        NumberRendering R.numText → 128 ≤ R.stackLimit → keyed (.obj fields) = true →
        createReceiptV1 R fields signers = .ok receipt → KnowsKeys R resolveKey publicKey signers →
        JsonText raw tree → Spells R.numberValue tree receipt → byteLength raw ≤ 1048576 → Within 128 tree →
        verifyReceiptV1 R receipt resolveKey noOptions [] = .ok result →
        verifyReceiptV1Serialized R raw resolveKey noOptions [] = .ok result := by
  intro hall
  obtain ⟨htext, hspells, hsize, hdepth⟩ := gate_spelled
  obtain ⟨refs, signatures, h⟩ := (createReceipt_eq_ok gate_keyed).mp gate_created
  have hkeyed := h.keyed_receipt gate_keyed
  have hstack : 128 ≤ gateRuntime.stackLimit := by decide
  obtain ⟨hparse, hplain⟩ := spelled_value hstack htext hspells hsize hdepth h.envelope.iJson
  have hverified : verifyReceiptV1 gateRuntime gateReceipt gateResolver noOptions [] = .ok _ :=
    verifyReceipt_eq hkeyed h.envelope noOptions []
  have hserialized := hall gateRuntime gateFields gateSigners gateReceipt gateResolver _ _ _ _
    exact_roundTrip.toNumberRendering hstack gate_keyed gate_created gate_knows htext hspells hsize hdepth hverified
  rw [serialized_eq hparse, verifyReceipt_eq hplain.keyed (envelope_same hspells.same hplain.iJson h.envelope)] at hserialized
  have hstage := congrArg ReceiptVerificationV1.stage (Except.ok.inj hserialized)
  exact gate_other_field (Option.some.inj hstage).symm

end AgentPassport.SpelledReceipt
