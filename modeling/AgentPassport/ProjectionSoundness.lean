import AgentPassport.Attribution

/-! Attribution projections are complete and sound: what is constructed verifies on each axis, and
what verifies against a root carries the content that is in its place under the root. -/
namespace AgentPassport.ProjectionSoundness
open JsText Js ByteBlocks Sha256 Utf8
open DelegationSchema (isLowerHexOf)
open LegacyCanonical CanonicalInjective CanonicalBytes Outcome Attribution

section
variable {E : Type}

theorem filterMap_entries (es : List E) (items : List (AxisItem E)) (h : ∀ x ∈ items, x.isResidual = true) :
    (es.map AxisItem.entry ++ items).filterMap AxisItem.entry? = es := by
  have hresidual : items.filterMap AxisItem.entry? = [] := by
    rw [List.filterMap_eq_nil_iff]
    intro x hx
    cases x with
    | entry e => cases h _ hx
    | residual bucket => rfl
  rw [List.filterMap_append, hresidual, List.append_nil, List.filterMap_map]
  exact List.filterMap_some

theorem filter_residuals (es : List E) (items : List (AxisItem E)) (h : ∀ x ∈ items, x.isResidual = true) :
    (es.map AxisItem.entry ++ items).filter AxisItem.isResidual = items := by
  have hentries : (es.map (AxisItem.entry (E := E))).filter AxisItem.isResidual = [] := by
    rw [List.filter_eq_nil_iff]
    intro x hx
    obtain ⟨e, -, rfl⟩ := List.mem_map.mp hx
    exact Bool.false_ne_true
  rw [List.filter_append, hentries, List.nil_append, List.filter_eq_self.mpr h]

theorem sortAxis_idem {axis : AttributionAxisTag} {key : E → Str} {items sorted : List (AxisItem E)}
    (h : sortAxis axis key items = .ok sorted) : sortAxis axis key sorted = .ok sorted := by
  rw [sortAxis] at h
  split at h
  · cases h
  · rename_i hcount
    cases h
    have hresiduals : ∀ x ∈ items.filter AxisItem.isResidual, x.isResidual = true := by
      intro x hx
      exact (List.mem_filter.mp hx).2
    rw [sortAxis, filter_residuals _ _ hresiduals, if_neg hcount, filterMap_entries _ _ hresiduals,
      insertionSort_idem _ (fun a b => List.le_total (key a) (key b))]
    rfl

end

theorem inDepthOrder_total (a b : GovernanceAxisEntry) : inDepthOrder a b = true ∨ inDepthOrder b a = true := by
  rw [inDepthOrder, inDepthOrder]
  cases h : (b.depth.sub a.depth).lt (zeroOf false) with
  | false => exact .inl rfl
  | true =>
    rw [JsNumber.sub_lt_asymm h]
    exact .inr rfl

theorem orderGovernanceAxis_idem {items ordered : List GovernanceAxisEntry}
    (h : orderGovernanceAxis items = .ok ordered) : orderGovernanceAxis ordered = .ok ordered := by
  simp only [orderGovernanceAxis] at h
  split at h
  · cases h
  · rename_i hdistinct
    cases h
    simp only [orderGovernanceAxis, insertionSort_idem _ inDepthOrder_total, hdistinct]
    rfl

theorem normalizeAxes_idem {axes normalized : AttributionAxes} (h : normalizeAxes axes = .ok normalized) :
    normalizeAxes normalized = .ok normalized := by
  rw [normalizeAxes] at h
  obtain ⟨D, hD, h⟩ := bind_eq_ok.mp h
  obtain ⟨P, hP, h⟩ := bind_eq_ok.mp h
  obtain ⟨G, hG, h⟩ := bind_eq_ok.mp h
  obtain ⟨C, hC, h⟩ := bind_eq_ok.mp h
  cases h
  rw [normalizeAxes]
  simp only [sortDataAxis, sortProtocolAxis, sortComputeAxis] at hD hP hC ⊢
  rw [sortAxis_idem hD, sortAxis_idem hP, orderGovernanceAxis_idem hG, sortAxis_idem hC]
  rfl

section
variable {P : Platform}

/-- The frame that a set of axes in normal order has. -/
structure Framed (frame : MerkleFrame) : Prop where
  normal : normalizeAxes frame.axes = .ok frame.axes
  leafD : hashAxisLeaf P (selectAxis frame.axes .D) = .ok frame.leafD
  leafP : hashAxisLeaf P (selectAxis frame.axes .P) = .ok frame.leafP
  leafG : hashAxisLeaf P (selectAxis frame.axes .G) = .ok frame.leafG
  leafC : hashAxisLeaf P (selectAxis frame.axes .C) = .ok frame.leafC
  content : frame.N_content = hashNode P frame.leafD frame.leafP
  authInfra : frame.N_auth_infra = hashNode P frame.leafG frame.leafC
  root : frame.root = hashNode P frame.N_content frame.N_auth_infra

def leafOf (frame : MerkleFrame) : AttributionAxisTag → Block 32
  | .D => frame.leafD
  | .P => frame.leafP
  | .G => frame.leafG
  | .C => frame.leafC

theorem hashAxisLeaf_of_write {v : JsValue} {leaf : Block 32} (h : hashAxisLeafForWrite P v = .ok leaf) :
    hashAxisLeaf P v = .ok leaf := by
  rw [hashAxisLeafForWrite] at h
  cases htext : canonicalizeForWrite P.numText (lit "$") v with
  | error e =>
    rw [htext] at h
    cases h
  | ok text =>
    rw [htext] at h
    rw [hashAxisLeaf, conservative v _ _ htext]
    exact h

theorem framed_of_write {axes : AttributionAxes} {frame : MerkleFrame}
    (h : buildMerkleFrameForWrite P axes = .ok frame) : Framed (P := P) frame := by
  rw [buildMerkleFrameForWrite, buildMerkleFrameImpl] at h
  obtain ⟨normalized, hnormalized, h⟩ := bind_eq_ok.mp h
  obtain ⟨leafD, hD, h⟩ := bind_eq_ok.mp h
  obtain ⟨leafP, hP, h⟩ := bind_eq_ok.mp h
  obtain ⟨leafG, hG, h⟩ := bind_eq_ok.mp h
  obtain ⟨leafC, hC, h⟩ := bind_eq_ok.mp h
  cases h
  exact {
    normal := normalizeAxes_idem hnormalized
    leafD := hashAxisLeaf_of_write hD
    leafP := hashAxisLeaf_of_write hP
    leafG := hashAxisLeaf_of_write hG
    leafC := hashAxisLeaf_of_write hC
    content := rfl
    authInfra := rfl
    root := rfl }

theorem Framed.rebuild {frame : MerkleFrame} (h : Framed (P := P) frame) :
    buildMerkleFrame P frame.axes = .ok frame := by
  rw [buildMerkleFrame, buildMerkleFrameImpl, h.normal]
  simp only [bind, Except.bind]
  rw [h.leafD, h.leafP, h.leafG, h.leafC]
  simp only [← h.content, ← h.authInfra, ← h.root]
  rfl

theorem Framed.leaf {frame : MerkleFrame} (h : Framed (P := P) frame) (tag : AttributionAxisTag) :
    hashAxisLeaf P (selectAxis frame.axes tag) = .ok (leafOf frame tag) := by
  cases tag with
  | D => exact h.leafD
  | P => exact h.leafP
  | G => exact h.leafG
  | C => exact h.leafC

theorem Framed.reconstruct {frame : MerkleFrame} (h : Framed (P := P) frame) (tag : AttributionAxisTag) :
    reconstructRoot P (leafOf frame tag) (projectionPath frame tag) tag = some frame.root := by
  rw [h.root]
  cases tag with
  | D =>
    rw [h.content]
    simp [reconstructRoot, projectionPath, leafOf, rootAbove, asBlock_hex]
  | P =>
    rw [h.content]
    simp [reconstructRoot, projectionPath, leafOf, rootAbove, asBlock_hex]
  | G =>
    rw [h.authInfra]
    simp [reconstructRoot, projectionPath, leafOf, rootAbove, asBlock_hex]
  | C =>
    rw [h.authInfra]
    simp [reconstructRoot, projectionPath, leafOf, rootAbove, asBlock_hex]

/-- What is relied on of a key pair: a signature is 64 bytes in lowercase hexadecimal, and the
public key verifies what the private key signed. -/
structure KeyPair (P : Platform) (privateKey publicKey : Str) : Prop where
  hex : ∀ m s, P.sign m privateKey = some s → isLowerHexOf 128 s = true
  verifies : ∀ m s, P.sign m privateKey = some s → P.verify m s publicKey = true

/-- What a constructed primitive is made of. -/
structure Constructed (P : Platform) (params : ConstructAttributionParams) (primitive : AttributionPrimitive)
    (frame : MerkleFrame) : Prop where
  framed : Framed (P := P) frame
  axes : primitive.axes = frame.axes
  merkle_root : primitive.merkle_root = Sha256.hex frame.root
  action_ref : isLowerHexOf 64 primitive.action_ref = true
  issuer : primitive.issuer ≠ []
  timestamp : isCanonicalTimestamp primitive.timestamp = true
  signature : ∃ envelope, envelopeBytesForWrite P primitive.action_ref primitive.merkle_root primitive.issuer
    primitive.timestamp = .ok envelope ∧ P.sign envelope params.issuerPrivateKey = some primitive.signature

theorem required_ok {text : Str} {e : AttributionError} (h : required text e = .ok ()) : text ≠ [] := by
  intro hnil
  rw [required, if_pos hnil] at h
  cases h

theorem actionRef_hex {action : AttributionAction} {ref : Str}
    (h : computeAttributionActionRefForWrite P action = .ok ref) : isLowerHexOf 64 ref = true := by
  rw [computeAttributionActionRefForWrite] at h
  obtain ⟨-, h⟩ := bind_unit_eq_ok.mp h
  obtain ⟨-, h⟩ := bind_unit_eq_ok.mp h
  obtain ⟨-, h⟩ := bind_unit_eq_ok.mp h
  obtain ⟨-, h⟩ := bind_unit_eq_ok.mp h
  rw [canonicalHashJCSForWrite] at h
  split at h
  · cases h
  · cases h
    exact hex_lower _

theorem constructed_of_ok {params : ConstructAttributionParams} {now : Str} {primitive : AttributionPrimitive}
    (h : constructAttributionPrimitive P params now = .ok primitive) :
    ∃ frame, Constructed P params primitive frame := by
  rw [constructAttributionPrimitive] at h
  obtain ⟨hissuer, h⟩ := bind_unit_eq_ok.mp h
  obtain ⟨-, h⟩ := bind_unit_eq_ok.mp h
  obtain ⟨ref, href, h⟩ := bind_eq_ok.mp h
  obtain ⟨frame, hframe, h⟩ := bind_eq_ok.mp h
  obtain ⟨htimestamp, h⟩ := bind_unit_eq_ok.mp h
  obtain ⟨envelope, henvelope, h⟩ := bind_eq_ok.mp h
  obtain ⟨signature, hsignature, h⟩ := bind_eq_ok.mp h
  cases h
  have hcanonical : isCanonicalTimestamp (params.timestamp.getD now) = true := by
    rw [assertCanonicalTimestamp] at htimestamp
    split at htimestamp
    · assumption
    · cases htimestamp
  have hsigned : P.sign envelope params.issuerPrivateKey = some signature := by
    rw [signEnvelope] at hsignature
    split at hsignature
    · cases hsignature
    · rename_i s hs
      cases hsignature
      exact hs
  exact ⟨frame, {
    framed := framed_of_write hframe
    axes := rfl
    merkle_root := rfl
    action_ref := actionRef_hex href
    issuer := required_ok hissuer
    timestamp := hcanonical
    signature := ⟨envelope, henvelope, hsigned⟩ }⟩

theorem envelopeBytes_of_write {action_ref merkle_root issuer timestamp envelope : Str}
    (h : envelopeBytesForWrite P action_ref merkle_root issuer timestamp = .ok envelope) :
    envelopeBytes P action_ref merkle_root issuer timestamp = .ok envelope := by
  rw [envelopeBytesForWrite] at h
  obtain ⟨htimestamp, h⟩ := bind_unit_eq_ok.mp h
  rw [envelopeBytes]
  refine bind_unit_eq_ok.mpr ⟨htimestamp, ?_⟩
  cases htext : canonicalizeForWrite P.numText (lit "$") (envelopeValue action_ref merkle_root issuer timestamp) with
  | error e =>
    rw [htext] at h
    cases h
  | ok text =>
    rw [htext] at h
    rw [conservative _ _ _ htext]
    exact h

theorem tagOf_tagText (tag : AttributionAxisTag) : tagOf (tagText tag) = some tag := by
  cases tag <;> decide

theorem path_hex (frame : MerkleFrame) (tag : AttributionAxisTag) :
    (projectionPath frame tag).length = 2 ∧ (projectionPath frame tag).all (isLowerHexOf 64) = true := by
  cases tag <;> simp [projectionPath, hex_lower]

def projected (primitive : AttributionPrimitive) (frame : MerkleFrame) (tag : AttributionAxisTag) :
    AttributionProjection where
  action_ref := primitive.action_ref
  axis_tag := tagText tag
  axis_data := selectAxis frame.axes tag
  merkle_path := projectionPath frame tag
  merkle_root := primitive.merkle_root
  issuer := primitive.issuer
  timestamp := primitive.timestamp
  signature := primitive.signature

variable {params : ConstructAttributionParams} {primitive : AttributionPrimitive} {frame : MerkleFrame}

theorem Constructed.project (h : Constructed P params primitive frame) (tag : AttributionAxisTag) :
    projectAttribution P primitive tag = .ok (projected primitive frame tag) := by
  rw [projectAttribution, h.axes, h.framed.normal]
  simp only [bind, Except.bind]
  rw [h.framed.rebuild]
  rfl

theorem timestamp_ne_nil {ts : Str} (h : isCanonicalTimestamp ts = true) : ts ≠ [] := by
  intro hnil
  rw [hnil] at h
  exact absurd h (by decide)

variable {publicKey : Str}

theorem Constructed.structural (h : Constructed P params primitive frame)
    (hpair : KeyPair P params.issuerPrivateKey publicKey) (tag : AttributionAxisTag) :
    isProjectionStructurallyValid (projected primitive frame tag) = true := by
  obtain ⟨envelope, -, hsigned⟩ := h.signature
  obtain ⟨hlength, hpath⟩ := path_hex frame tag
  have hroot : isLowerHexOf 64 primitive.merkle_root = true := by
    rw [h.merkle_root]
    exact hex_lower _
  simpa [isProjectionStructurallyValid, projected, h.action_ref, hroot, hpair.hex _ _ hsigned, h.issuer,
    timestamp_ne_nil h.timestamp, hlength] using hpath

theorem Constructed.verifies (h : Constructed P params primitive frame)
    (hpair : KeyPair P params.issuerPrivateKey publicKey) (tag : AttributionAxisTag) :
    verifyAttributionProjection P (projected primitive frame tag) publicKey = .ok .valid := by
  obtain ⟨envelope, henvelope, hsigned⟩ := h.signature
  have hleaf : hashAxisLeaf P (projected primitive frame tag).axis_data = .ok (leafOf frame tag) := h.framed.leaf tag
  have hroot : reconstructRoot P (leafOf frame tag) (projected primitive frame tag).merkle_path tag = some frame.root :=
    h.framed.reconstruct tag
  have hsame : Sha256.hex frame.root = toLowerCase (projected primitive frame tag).merkle_root := by
    rw [projected, h.merkle_root, toLowerCase_hex]
  have hbytes : envelopeBytes P (projected primitive frame tag).action_ref (projected primitive frame tag).merkle_root
      (projected primitive frame tag).issuer (projected primitive frame tag).timestamp = .ok envelope :=
    envelopeBytes_of_write henvelope
  have htag : tagOf (projected primitive frame tag).axis_tag = some tag := tagOf_tagText tag
  have hverify : P.verify envelope (projected primitive frame tag).signature publicKey = true :=
    hpair.verifies _ _ hsigned
  rw [verifyAttributionProjection, h.structural hpair tag, htag]
  simp only [Bool.not_true, Bool.false_eq_true, if_false]
  rw [hleaf]
  simp only [bind, Except.bind]
  rw [hroot]
  simp only [verifyEnvelope]
  rw [if_neg (not_not_intro hsame), hbytes]
  simp only [bind, Except.bind, hverify, if_true]
  rfl

variable (P) in
def textBytes (v : JsValue) : List UInt8 :=
  match canonicalize P.numText v with
  | .ok (some text) => utf8 text
  | _ => []

variable (P) in
def pairsAbove (axisLeaf sibling siblingInternal : Block 32) : AttributionAxisTag → List (List UInt8)
  | .D => [nodeInput axisLeaf sibling, nodeInput (hashNode P axisLeaf sibling) siblingInternal]
  | .P => [nodeInput sibling axisLeaf, nodeInput (hashNode P sibling axisLeaf) siblingInternal]
  | .G => [nodeInput axisLeaf sibling, nodeInput siblingInternal (hashNode P axisLeaf sibling)]
  | .C => [nodeInput sibling axisLeaf, nodeInput siblingInternal (hashNode P sibling axisLeaf)]

variable (P) in
def projectionInputs (p : AttributionProjection) : List (List UInt8) :=
  textBytes P p.axis_data ::
    match tagOf p.axis_tag, asBlock (bufferFromHex (p.merkle_path[0]?.getD [])),
      asBlock (bufferFromHex (p.merkle_path[1]?.getD [])) with
    | some tag, some sibling, some siblingInternal =>
      pairsAbove P (P.sha256 (textBytes P p.axis_data)) sibling siblingInternal tag
    | _, _, _ => []

variable (P) in
def axesInputs (axes : AttributionAxes) : List (List UInt8) :=
  let leaf := fun tag => P.sha256 (textBytes P (selectAxis axes tag))
  ATTRIBUTION_AXIS_TAGS.map (fun tag => textBytes P (selectAxis axes tag)) ++
    [nodeInput (leaf .D) (leaf .P), nodeInput (leaf .G) (leaf .C),
      nodeInput (hashNode P (leaf .D) (leaf .P)) (hashNode P (leaf .G) (leaf .C))]

theorem nodeInput_inj {a b c d : Block 32} (h : nodeInput a b = nodeInput c d) : a = c ∧ b = d := by
  obtain ⟨hleft, hright⟩ := List.append_inj h (by rw [a.size, c.size])
  exact ⟨Block.ext_bytes hleft, Block.ext_bytes hright⟩

theorem hashNode_inj {inputs : List (List UInt8)} (hfree : CollisionFree P.sha256 inputs) {a b c d : Block 32}
    (hab : nodeInput a b ∈ inputs) (hcd : nodeInput c d ∈ inputs) (h : hashNode P a b = hashNode P c d) :
    a = c ∧ b = d :=
  nodeInput_inj (hfree _ hab _ hcd h)

theorem rootAbove_inj {inputs : List (List UInt8)} (hfree : CollisionFree P.sha256 inputs) {tag : AttributionAxisTag}
    {a s t b s' t' : Block 32} (ha : ∀ x ∈ pairsAbove P a s t tag, x ∈ inputs)
    (hb : ∀ x ∈ pairsAbove P b s' t' tag, x ∈ inputs) (h : rootAbove P a s t tag = rootAbove P b s' t' tag) :
    a = b := by
  have hfirst : ∀ {x y : List UInt8} {xs : List (List UInt8)}, (∀ z ∈ x :: y :: xs, z ∈ inputs) → x ∈ inputs ∧ y ∈ inputs :=
    fun hz => ⟨hz _ List.mem_cons_self, hz _ (List.mem_cons_of_mem _ List.mem_cons_self)⟩
  cases tag with
  | D =>
    obtain ⟨ha₁, ha₂⟩ := hfirst ha
    obtain ⟨hb₁, hb₂⟩ := hfirst hb
    exact (hashNode_inj hfree ha₁ hb₁ (hashNode_inj hfree ha₂ hb₂ h).1).1
  | P =>
    obtain ⟨ha₁, ha₂⟩ := hfirst ha
    obtain ⟨hb₁, hb₂⟩ := hfirst hb
    exact (hashNode_inj hfree ha₁ hb₁ (hashNode_inj hfree ha₂ hb₂ h).1).2
  | G =>
    obtain ⟨ha₁, ha₂⟩ := hfirst ha
    obtain ⟨hb₁, hb₂⟩ := hfirst hb
    exact (hashNode_inj hfree ha₁ hb₁ (hashNode_inj hfree ha₂ hb₂ h).2).1
  | C =>
    obtain ⟨ha₁, ha₂⟩ := hfirst ha
    obtain ⟨hb₁, hb₂⟩ := hfirst hb
    exact (hashNode_inj hfree ha₁ hb₁ (hashNode_inj hfree ha₂ hb₂ h).2).2

theorem hashAxisLeaf_ok {v : JsValue} {leaf : Block 32} (h : hashAxisLeaf P v = .ok leaf) :
    ∃ text, canonicalize P.numText v = .ok (some text) ∧ textBytes P v = utf8 text ∧ leaf = P.sha256 (textBytes P v) := by
  rw [hashAxisLeaf] at h
  cases htext : canonicalize P.numText v with
  | error e =>
    rw [htext] at h
    cases h
  | ok text =>
    rw [htext] at h
    cases text with
    | none => cases h
    | some text =>
      cases h
      have hbytes : textBytes P v = utf8 text := by rw [textBytes, htext]
      exact ⟨text, rfl, hbytes, by rw [hbytes]⟩

/-- What a projection that verifies has been checked for. -/
structure Verified (P : Platform) (p : AttributionProjection) (tag : AttributionAxisTag) (text : Str)
    (sibling siblingInternal : Block 32) : Prop where
  tag_eq : tagOf p.axis_tag = some tag
  text_eq : canonicalize P.numText p.axis_data = .ok (some text)
  bytes_eq : textBytes P p.axis_data = utf8 text
  inputs_eq : projectionInputs P p =
    textBytes P p.axis_data :: pairsAbove P (P.sha256 (textBytes P p.axis_data)) sibling siblingInternal tag
  root_eq : p.merkle_root = Sha256.hex (rootAbove P (P.sha256 (textBytes P p.axis_data)) sibling siblingInternal tag)

theorem verified_of_valid {p : AttributionProjection} (h : verifyAttributionProjection P p publicKey = .ok .valid) :
    ∃ tag text sibling siblingInternal, Verified P p tag text sibling siblingInternal := by
  rw [verifyAttributionProjection] at h
  split at h
  · cases h
  · rename_i hstructural
    rw [Bool.not_eq_true, Bool.not_eq_false_eq_eq_true] at hstructural
    split at h
    · cases h
    · rename_i tag htag
      obtain ⟨leaf, hleaf, h⟩ := bind_eq_ok.mp h
      obtain ⟨text, htext, hbytes, rfl⟩ := hashAxisLeaf_ok hleaf
      split at h
      · cases h
      · rename_i computedRoot hroot
        rw [reconstructRoot] at hroot
        obtain ⟨sibling, hsibling, hroot⟩ := Option.bind_eq_some_iff.mp hroot
        obtain ⟨siblingInternal, hinternal, hroot⟩ := Option.bind_eq_some_iff.mp hroot
        cases hroot
        rw [verifyEnvelope] at h
        split at h
        · cases h
        · rename_i hsame
          have hhex : isLowerHexOf 64 p.merkle_root = true := by
            simp only [isProjectionStructurallyValid, Bool.and_eq_true] at hstructural
            exact hstructural.1.1.1.1.1.2
          rw [not_not, toLowerCase_of_hex hhex] at hsame
          refine ⟨tag, text, sibling, siblingInternal, ⟨htag, htext, hbytes, ?_, hsame.symm⟩⟩
          rw [projectionInputs, htag, hsibling, hinternal]

theorem Verified.same_content (hnum : NumberRendering P.numText) {p q : AttributionProjection}
    {tag : AttributionAxisTag} {text text' : Str} {s t s' t' : Block 32} (hp : Verified P p tag text s t)
    (hq : Verified P q tag text' s' t') (hroot : p.merkle_root = q.merkle_root)
    (hfree : CollisionFree P.sha256 (projectionInputs P p ++ projectionInputs P q)) :
    canonicalize P.numText p.axis_data = canonicalize P.numText q.axis_data := by
  have hroots := hp.root_eq
  rw [hroot, hq.root_eq] at hroots
  rw [hp.inputs_eq, hq.inputs_eq] at hfree
  have hleaf := rootAbove_inj hfree
    (fun x hx => List.mem_append_left _ (List.mem_cons_of_mem _ hx))
    (fun x hx => List.mem_append_right _ (List.mem_cons_of_mem _ hx)) (hex_inj hroots).symm
  have hbytes := hfree _ (List.mem_append_left _ List.mem_cons_self) _ (List.mem_append_right _ List.mem_cons_self) hleaf
  rw [hp.bytes_eq, hq.bytes_eq] at hbytes
  exact canonicalize_of_bytes hnum hp.text_eq hq.text_eq hbytes

def siblingsOf (frame : MerkleFrame) : AttributionAxisTag → Block 32 × Block 32
  | .D => (frame.leafP, frame.N_auth_infra)
  | .P => (frame.leafD, frame.N_auth_infra)
  | .G => (frame.leafC, frame.N_content)
  | .C => (frame.leafG, frame.N_content)

theorem projectionPath_eq (frame : MerkleFrame) (tag : AttributionAxisTag) :
    projectionPath frame tag = [Sha256.hex (siblingsOf frame tag).1, Sha256.hex (siblingsOf frame tag).2] := by
  cases tag <;> rfl

theorem Constructed.verified (h : Constructed P params primitive frame) (tag : AttributionAxisTag) :
    ∃ text, Verified P (projected primitive frame tag) tag text (siblingsOf frame tag).1 (siblingsOf frame tag).2 := by
  obtain ⟨text, htext, hbytes, hleaf⟩ := hashAxisLeaf_ok (h.framed.leaf tag)
  have htag : tagOf (projected primitive frame tag).axis_tag = some tag := tagOf_tagText tag
  have hpath : (projected primitive frame tag).merkle_path =
      [Sha256.hex (siblingsOf frame tag).1, Sha256.hex (siblingsOf frame tag).2] := projectionPath_eq frame tag
  have hroot := h.framed.reconstruct tag
  rw [projectionPath_eq, reconstructRoot] at hroot
  simp only [List.getElem?_cons_zero, List.getElem?_cons_succ, Option.getD_some, asBlock_hex, Option.bind_eq_bind,
    Option.bind_some, Option.pure_def, Option.some.injEq, hleaf] at hroot
  refine ⟨text, ⟨htag, htext, hbytes, ?_, ?_⟩⟩
  · rw [projectionInputs, htag, hpath]
    simp only [List.getElem?_cons_zero, List.getElem?_cons_succ, Option.getD_some, asBlock_hex]
  · rw [projected, h.merkle_root, ← hroot]

theorem pairsAbove_inputs {axes : AttributionAxes} {leaf : AttributionAxisTag → Block 32}
    (hleaf : ∀ tag, leaf tag = P.sha256 (textBytes P (selectAxis axes tag))) {x : List UInt8}
    (hx : x ∈ [nodeInput (leaf .D) (leaf .P), nodeInput (leaf .G) (leaf .C),
      nodeInput (hashNode P (leaf .D) (leaf .P)) (hashNode P (leaf .G) (leaf .C))]) : x ∈ axesInputs P axes := by
  simp only [hleaf] at hx
  exact List.mem_append_right _ hx

theorem Constructed.inputs (h : Constructed P params primitive frame) (tag : AttributionAxisTag) :
    ∀ x ∈ projectionInputs P (projected primitive frame tag), x ∈ axesInputs P primitive.axes := by
  have hleaf : ∀ tag, leafOf frame tag = P.sha256 (textBytes P (selectAxis frame.axes tag)) := by
    intro tag
    obtain ⟨-, -, -, heq⟩ := hashAxisLeaf_ok (h.framed.leaf tag)
    exact heq
  obtain ⟨text, hverified⟩ := h.verified tag
  rw [hverified.inputs_eq, h.axes]
  intro x hx
  obtain rfl | hpair := List.mem_cons.mp hx
  · refine List.mem_append_left _ (List.mem_map_of_mem ?_)
    cases tag <;> decide
  apply pairsAbove_inputs hleaf
  have hown : P.sha256 (textBytes P (projected primitive frame tag).axis_data) = leafOf frame tag := (hleaf tag).symm
  rw [hown] at hpair
  have hcontent : hashNode P (leafOf frame .D) (leafOf frame .P) = frame.N_content := h.framed.content.symm
  have hauth : hashNode P (leafOf frame .G) (leafOf frame .C) = frame.N_auth_infra := h.framed.authInfra.symm
  rw [hcontent, hauth]
  cases tag with
  | D =>
    rw [pairsAbove, show (siblingsOf frame .D).1 = leafOf frame .P from rfl, hcontent] at hpair
    obtain rfl | hpair := List.mem_cons.mp hpair
    · exact List.mem_cons_self
    · exact List.mem_cons_of_mem _ (List.mem_cons_of_mem _ hpair)
  | P =>
    rw [pairsAbove, show (siblingsOf frame .P).1 = leafOf frame .D from rfl, hcontent] at hpair
    obtain rfl | hpair := List.mem_cons.mp hpair
    · exact List.mem_cons_self
    · exact List.mem_cons_of_mem _ (List.mem_cons_of_mem _ hpair)
  | G =>
    rw [pairsAbove, show (siblingsOf frame .G).1 = leafOf frame .C from rfl, hauth] at hpair
    exact List.mem_cons_of_mem _ hpair
  | C =>
    rw [pairsAbove, show (siblingsOf frame .C).1 = leafOf frame .G from rfl, hauth] at hpair
    exact List.mem_cons_of_mem _ hpair

end

/-- Every axis of a constructed primitive is projected to something that verifies; whatever verifies
against its root has, at its tag, the canonical text of the primitive's axis; and two projections
with one tag that verify against one root have one canonical text. -/
theorem attribution_projections {P : Platform} (hnum : NumberRendering P.numText) :
    (∀ params now primitive publicKey, KeyPair P params.issuerPrivateKey publicKey →
      constructAttributionPrimitive P params now = .ok primitive →
      ∀ tag, ∃ projection, projectAttribution P primitive tag = .ok projection ∧
        verifyAttributionProjection P projection publicKey = .ok .valid) ∧
    (∀ params now primitive projection publicKey tag, constructAttributionPrimitive P params now = .ok primitive →
      verifyAttributionProjection P projection publicKey = .ok .valid → projection.axis_tag = tagText tag →
      projection.merkle_root = primitive.merkle_root →
      CollisionFree P.sha256 (axesInputs P primitive.axes ++ projectionInputs P projection) →
      canonicalize P.numText projection.axis_data = canonicalize P.numText (selectAxis primitive.axes tag)) ∧
    (∀ p q publicKey publicKey', verifyAttributionProjection P p publicKey = .ok .valid →
      verifyAttributionProjection P q publicKey' = .ok .valid → p.axis_tag = q.axis_tag →
      p.merkle_root = q.merkle_root → CollisionFree P.sha256 (projectionInputs P p ++ projectionInputs P q) →
      canonicalize P.numText p.axis_data = canonicalize P.numText q.axis_data) := by
  refine ⟨?_, ?_, ?_⟩
  · intro params now primitive publicKey hpair hconstruct tag
    obtain ⟨frame, h⟩ := constructed_of_ok hconstruct
    exact ⟨_, h.project tag, h.verifies hpair tag⟩
  · intro params now primitive projection publicKey tag hconstruct hverify htag hroot hfree
    obtain ⟨frame, h⟩ := constructed_of_ok hconstruct
    obtain ⟨tag', text, s, t, hverified⟩ := verified_of_valid hverify
    have hsame : tag' = tag := by
      have heq := hverified.tag_eq
      rw [htag, tagOf_tagText] at heq
      exact (Option.some.inj heq).symm
    subst hsame
    obtain ⟨text', hown⟩ := h.verified tag'
    rw [h.axes] at hfree ⊢
    refine hverified.same_content hnum hown hroot (hfree.mono ?_)
    intro x hx
    rw [List.mem_append] at hx ⊢
    obtain hx | hx := hx
    · exact .inr hx
    · exact .inl (h.axes ▸ h.inputs tag' x hx)
  · intro p q publicKey publicKey' hp hq htag hroot hfree
    obtain ⟨tag, text, s, t, hverified⟩ := verified_of_valid hp
    obtain ⟨tag', text', s', t', hverified'⟩ := verified_of_valid hq
    have hsame : tag' = tag := by
      have heq := hverified.tag_eq
      rw [htag, hverified'.tag_eq] at heq
      exact Option.some.inj heq
    subst hsame
    exact hverified.same_content hnum hverified' hroot hfree

/-! ### A signed sample

The digests and the signature are those of SHA-256 and of Ed25519 with the private key of 32 bytes
`01`. -/

def sampleEnvelope : Str :=
  lit "\x7b\"action_ref\":\"ddb19e85b603556e869ede8dce8927aebda4c2183cee4a853744814fe8e43012\",\"issuer\":\"did:aps:gw\",\"merkle_root\":\"cf7bffe261f9454b439c84a69a7df56588c3c6d209fe3155ded37cbe60c293c6\",\"timestamp\":\"2026-01-02T03:04:05.006Z\"\x7d"

def sampleSignature : Str :=
  lit "240de968cf50cd152d989b0abb6e848daef51e4766cfe83e576ac79d2b89a767" ++
    lit "e15e55654dbe1cf8de186c1d724c9aa13702a241e8268e2f4cce4c56230d2403"

def samplePrivateKey : Str := (List.replicate 32 (lit "01")).flatten

def samplePublicKey : Str := lit "8a88e3dd7409f195fd52db2d3cba5d72ca6709bf1d94121bf3748801b40f6f5c"

def samplePlatform : Platform where
  numText := integerText
  sha256 := ofTable [
    (ascii "[\x7b\"access_receipt_hash\":\"b1\",\"contribution_weight\":\"0.600000\",\"source_did\":\"did:aps:b\"\x7d,\x7b\"count_of_pooled_contributors\":2,\"pooled_contributors_hash\":\"c2\",\"residual_id\":\"residual:D\",\"total_pooled_weight\":\"0.400000\"\x7d]",
      lit "a7d2b94d66320cd1036fcb3c1e9ceb6536505f2c5a2732a461f844754c112775"),
    (ascii "[]",
      lit "4f53cda18c2baa0c0354bb5f9a3ecbe5ed12ab4d8e11ba873c2f11161202b945"),
    (ascii "[\x7b\"delegation_id\":\"d0\",\"depth\":0,\"scope_hash\":\"e3\",\"signer_did\":\"did:aps:r\"\x7d,\x7b\"delegation_id\":\"d1\",\"depth\":1,\"scope_hash\":\"f4\",\"signer_did\":\"did:aps:s\"\x7d]",
      lit "963c0af0c32fca3f5be9341a4dc1218ba56e73b2f5ca112819938bafb0f4c817"),
    (ascii "[\x7b\"compute_share\":\"1.000000\",\"hardware_attestation_hash\":\"a5\",\"provider_did\":\"did:aps:c\"\x7d]",
      lit "d6a82b80734ca7d30c088ee47b3e8a1ecc8e294e82860329447f3cf71bee0e72"),
    (bufferFromHex (lit "a7d2b94d66320cd1036fcb3c1e9ceb6536505f2c5a2732a461f844754c112775" ++
      lit "4f53cda18c2baa0c0354bb5f9a3ecbe5ed12ab4d8e11ba873c2f11161202b945"),
      lit "33f3956e95c607d6425c01b5fb63529526d3af6b71ef5cdca560ce5af3005919"),
    (bufferFromHex (lit "963c0af0c32fca3f5be9341a4dc1218ba56e73b2f5ca112819938bafb0f4c817" ++
      lit "d6a82b80734ca7d30c088ee47b3e8a1ecc8e294e82860329447f3cf71bee0e72"),
      lit "7b54b7f2ae9bb95d53f835c7c03df27114800241a17b689e603b431ba15fdd5c"),
    (bufferFromHex (lit "33f3956e95c607d6425c01b5fb63529526d3af6b71ef5cdca560ce5af3005919" ++
      lit "7b54b7f2ae9bb95d53f835c7c03df27114800241a17b689e603b431ba15fdd5c"),
      lit "cf7bffe261f9454b439c84a69a7df56588c3c6d209fe3155ded37cbe60c293c6"),
    (ascii "\x7b\"actionType\":\"read\",\"agentId\":\"did:aps:agent\",\"nonce\":\"n1\",\"params\":\x7b\x7d\x7d",
      lit "ddb19e85b603556e869ede8dce8927aebda4c2183cee4a853744814fe8e43012")]
  sign m key := if m = sampleEnvelope ∧ key = samplePrivateKey then some sampleSignature else none
  verify m s key := m = sampleEnvelope ∧ s = sampleSignature ∧ key = samplePublicKey

def sampleResidual : ResidualBucket := ⟨.D, lit "0.400000", JsNumber.ofInt 2, lit "c2"⟩

def sampleSource : DataAxisEntry := ⟨lit "did:aps:b", lit "0.600000", lit "b1"⟩

def sampleHop (id signer scope : String) (depth : Int) : GovernanceAxisEntry :=
  ⟨lit id, lit signer, lit scope, JsNumber.ofInt depth⟩

def sampleProvider : ComputeAxisEntry := ⟨lit "did:aps:c", lit "1.000000", lit "a5"⟩

/-- The residual bucket first and the hops from the leaf to the root: not in normal order. -/
def sampleParams : ConstructAttributionParams where
  action := ⟨lit "did:aps:agent", lit "read", .obj [], lit "n1"⟩
  axes := {
    D := [.residual sampleResidual, .entry sampleSource]
    P := []
    G := [sampleHop "d1" "did:aps:s" "f4" 1, sampleHop "d0" "did:aps:r" "e3" 0]
    C := [.entry sampleProvider] }
  issuer := lit "did:aps:gw"
  issuerPrivateKey := samplePrivateKey
  timestamp := some (lit "2026-01-02T03:04:05.006Z")

def samplePrimitive : AttributionPrimitive where
  action_ref := lit "ddb19e85b603556e869ede8dce8927aebda4c2183cee4a853744814fe8e43012"
  axes := {
    D := [.entry sampleSource, .residual sampleResidual]
    P := []
    G := [sampleHop "d0" "did:aps:r" "e3" 0, sampleHop "d1" "did:aps:s" "f4" 1]
    C := [.entry sampleProvider] }
  merkle_root := lit "cf7bffe261f9454b439c84a69a7df56588c3c6d209fe3155ded37cbe60c293c6"
  issuer := lit "did:aps:gw"
  timestamp := lit "2026-01-02T03:04:05.006Z"
  signature := sampleSignature

theorem samplePlatform_keyPair : KeyPair samplePlatform samplePrivateKey samplePublicKey := by
  constructor
  · intro m s hs
    simp only [samplePlatform] at hs
    split at hs
    · cases hs
      rw [sampleSignature]
      repeat rw [lit_ofList]
      decide +kernel
    · cases hs
  · intro m s hs
    simp only [samplePlatform] at hs
    split at hs
    · rename_i hm
      cases hs
      simp [samplePlatform, hm.1]
    · cases hs

theorem attribution_projections_sample :
    constructAttributionPrimitive samplePlatform sampleParams [] = .ok samplePrimitive ∧
    ∀ tag, ∃ projection, projectAttribution samplePlatform samplePrimitive tag = .ok projection ∧
      verifyAttributionProjection samplePlatform projection samplePublicKey = .ok .valid ∧
      canonicalize integerText projection.axis_data = canonicalize integerText (selectAxis samplePrimitive.axes tag) := by
  have hconstruct : constructAttributionPrimitive samplePlatform sampleParams [] = .ok samplePrimitive := by
    rw [samplePlatform, sampleParams, samplePrimitive, sampleEnvelope, sampleSignature]
    repeat rw [lit_ofList]
    repeat rw [ascii_ofList]
    decide +kernel
  obtain ⟨hcomplete, hsound, -⟩ := attribution_projections (P := samplePlatform) integerText_rendering
  refine ⟨hconstruct, ?_⟩
  intro tag
  obtain ⟨projection, hproject, hverify⟩ :=
    hcomplete sampleParams [] samplePrimitive samplePublicKey samplePlatform_keyPair hconstruct tag
  -- its own projection hashes nothing but what the root was hashed from
  obtain ⟨frame, hframe⟩ := constructed_of_ok hconstruct
  have hown : projection = projected samplePrimitive frame tag := by
    rw [hframe.project tag] at hproject
    exact (Except.ok.inj hproject).symm
  have hfree : CollisionFree samplePlatform.sha256 (axesInputs samplePlatform samplePrimitive.axes) := by
    apply CollisionFree.of_nodup
    rw [samplePlatform, samplePrimitive]
    repeat rw [lit_ofList]
    repeat rw [ascii_ofList]
    decide +kernel
  refine ⟨projection, hproject, hverify, ?_⟩
  apply hsound sampleParams [] samplePrimitive projection samplePublicKey tag hconstruct hverify
  · rw [hown]
    rfl
  · rw [hown]
    rfl
  · apply hfree.mono
    intro x hx
    rw [List.mem_append, hown] at hx
    exact hx.elim id (hframe.inputs tag x)

end AgentPassport.ProjectionSoundness
