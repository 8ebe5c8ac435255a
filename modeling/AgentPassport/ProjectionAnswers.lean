import AgentPassport.ProjectionSoundness

/-! When the verifier of a projection answers at all: it is handed whatever `JSON.parse` gave
(`v2/attribution-primitive/verify.ts`), and two of its steps can throw outside a `try`. -/
namespace AgentPassport.ProjectionAnswers
open JsText Js ByteBlocks Sha256 LegacyCanonical CanonicalInjective
open CanonicalJcs (sortByName)
open DelegationSchema (isLowerHexOf)
open Attribution Outcome

/-- `typeof value === 'string' && test(value)`. -/
def isText (test : Str → Bool) : JsValue → Bool
  | .str s => test s
  | _ => false

/-- `Array.isArray(path) && path.length === 2 && path.every(isText)`. -/
def isPath : JsValue → Bool
  | .arr items => items.length = 2 && items.all (isText (isLowerHexOf 64))
  | _ => false

def isProjectionStructurallyValid (p : JsValue) : Bool :=
  p.isObject && isText (isLowerHexOf 64) (p.get (lit "action_ref"))
    && isText (isLowerHexOf 64) (p.get (lit "merkle_root")) && isText (isLowerHexOf 128) (p.get (lit "signature"))
    && isText (fun s => s ≠ []) (p.get (lit "issuer")) && isText (fun s => s ≠ []) (p.get (lit "timestamp"))
    && isPath (p.get (lit "merkle_path"))

def text : JsValue → Str
  | .str s => s
  | _ => []

def texts : JsValue → List Str
  | .arr items => items.map text
  | _ => []

def fields (p : JsValue) : AttributionProjection where
  action_ref := text (p.get (lit "action_ref"))
  axis_tag := text (p.get (lit "axis_tag"))
  axis_data := p.get (lit "axis_data")
  merkle_path := texts (p.get (lit "merkle_path"))
  merkle_root := text (p.get (lit "merkle_root"))
  issuer := text (p.get (lit "issuer"))
  timestamp := text (p.get (lit "timestamp"))
  signature := text (p.get (lit "signature"))

/-- The tag a value is, when `VALID_TAGS` has it. -/
def validTag : JsValue → Option AttributionAxisTag
  | .str s => tagOf s
  | _ => none

/-- `verifyAttributionProjection` on a value of any shape. -/
def verifyAttributionProjection (P : Platform) (projection : JsValue) (issuerPublicKeyHex : Str) :
    Except AttributionError AttributionVerifyResult :=
  if !isProjectionStructurallyValid projection then return .invalid .MALFORMED
  else
    match validTag (projection.get (lit "axis_tag")) with
    | none => return .invalid .INVALID_AXIS_TAG
    | some tag => do
      let axisLeaf ← hashAxisLeaf P (projection.get (lit "axis_data"))
      match reconstructRoot P axisLeaf (fields projection).merkle_path tag with
      | none => return .invalid .MALFORMED
      | some computedRoot => verifyEnvelope P (fields projection) computedRoot issuerPublicKeyHex

/-- What `JSON.parse` can return. -/
inductive Parsed : JsValue → Prop
  | null : Parsed .null
  | bool (b : Bool) : Parsed (.bool b)
  | num (n : JsNumber) : Parsed (.num n)
  | str (s : Str) : Parsed (.str s)
  | arr {items : List JsValue} (h : ∀ v ∈ items, Parsed v) : Parsed (.arr items)
  | obj {members : List (Str × JsValue)} (h : ∀ m ∈ members, Parsed m.2) : Parsed (.obj members)

variable {P : Platform} {numText : Double → Str} {p : JsValue}

theorem canonicalizeItems_returns {items : List JsValue}
    (h : ∀ v ∈ items, ∃ t, canonicalize numText v = .ok (some t)) :
    ∃ parts, canonicalizeItems numText items = .ok parts := by
  induction items with
  | nil => exact ⟨[], by rw [canonicalizeItems]; rfl⟩
  | cons v rest ih =>
    obtain ⟨⟨t, ht⟩, hrest⟩ := List.forall_mem_cons.mp h
    obtain ⟨parts, hparts⟩ := ih hrest
    exact ⟨some t :: parts, by rw [canonicalizeItems, ht, hparts]; rfl⟩

theorem mapPairs_returns {members : List (Str × JsValue × Except LegacyError (Option Str))}
    (h : ∀ m ∈ members, ∃ t, m.2.2 = .ok t) : ∃ pairs, mapPairs members = .ok pairs := by
  induction members with
  | nil => exact ⟨[], rfl⟩
  | cons m rest ih =>
    obtain ⟨⟨t, ht⟩, hrest⟩ := List.forall_mem_cons.mp h
    obtain ⟨pairs, hpairs⟩ := ih hrest
    obtain ⟨name, v, written⟩ := m
    obtain rfl : written = .ok t := ht
    exact ⟨pairText name t :: pairs, by rw [mapPairs, hpairs]; rfl⟩

theorem canonicalize_returns {v : JsValue} (h : Parsed v) : ∃ t, canonicalize numText v = .ok (some t) := by
  induction h with
  | null => exact ⟨_, by rw [canonicalize]; rfl⟩
  | bool b => exact ⟨_, by simp only [canonicalize]; rfl⟩
  | num n =>
    cases n with
    | finite d => exact ⟨_, by simp only [canonicalize]; rfl⟩
    | nan => exact ⟨_, by simp only [canonicalize]; rfl⟩
    | infinite neg => exact ⟨_, by simp only [canonicalize]; rfl⟩
  | str s => exact ⟨_, by simp only [canonicalize]; rfl⟩
  | arr _ ih =>
    obtain ⟨parts, hparts⟩ := canonicalizeItems_returns ih
    exact ⟨_, by rw [canonicalize, hparts]; rfl⟩
  | @obj members _ ih =>
    have hwritten : ∀ m ∈ (sortByName (canonicalizeMembers numText members)).filter (fun m => !nullish m.2.1),
        ∃ t, m.2.2 = .ok t := by
      intro m hm
      have hmem := (sortByName_perm _).mem_iff.mp (List.mem_of_mem_filter hm)
      rw [canonicalizeMembers_eq] at hmem
      obtain ⟨member, hmember, rfl⟩ := List.mem_map.mp hmem
      obtain ⟨t, ht⟩ := ih member hmember
      exact ⟨some t, ht⟩
    obtain ⟨pairs, hpairs⟩ := mapPairs_returns hwritten
    exact ⟨_, by rw [canonicalize, hpairs]; rfl⟩

theorem Parsed.get (h : Parsed p) (name : Str) : Parsed (p.get name) ∨ p.get name = .undefined := by
  cases h with
  | @obj members hmembers =>
    rw [JsValue.get]
    cases hmember : member? name members with
    | none => exact .inr rfl
    | some v =>
      obtain ⟨m, hm, rfl⟩ := Option.map_eq_some_iff.mp hmember
      exact .inl (hmembers m (List.mem_of_find?_eq_some hm))
  | null => exact .inr rfl
  | bool b => exact .inr rfl
  | num n => exact .inr rfl
  | str s => exact .inr rfl
  | arr h => exact .inr rfl

theorem hashAxisLeaf_returns (h : Parsed p) (name : Str) : ∃ leaf, hashAxisLeaf P (p.get name) = .ok leaf := by
  have htext : ∃ t, canonicalize P.numText (p.get name) = .ok (some t) := by
    obtain hparsed | hmissing := h.get name
    · exact canonicalize_returns hparsed
    · rw [hmissing]
      exact ⟨_, by rw [canonicalize]; rfl⟩
  obtain ⟨t, ht⟩ := htext
  rw [hashAxisLeaf, ht]
  exact ⟨_, rfl⟩

theorem envelopeBytes_returns (P : Platform) (action_ref merkle_root issuer : Str) {timestamp : Str}
    (h : isCanonicalTimestamp timestamp = true) :
    ∃ envelope, envelopeBytes P action_ref merkle_root issuer timestamp = .ok envelope := by
  have hparsed : Parsed (envelopeValue action_ref merkle_root issuer timestamp) := by
    refine .obj ?_
    intro m hm
    simp only [List.mem_cons, List.not_mem_nil, or_false] at hm
    obtain rfl | rfl | rfl | rfl := hm
    · exact .str _
    · exact .str _
    · exact .str _
    · exact .str _
  obtain ⟨t, ht⟩ : ∃ t, canonicalize P.numText (envelopeValue action_ref merkle_root issuer timestamp) = .ok (some t) :=
    canonicalize_returns hparsed
  rw [envelopeBytes, assertCanonicalTimestamp, if_pos h, ht]
  exact ⟨_, rfl⟩

theorem verifyEnvelope_returns_iff (q : AttributionProjection) (root : Block 32) (publicKey : Str) :
    (∃ result, verifyEnvelope P q root publicKey = .ok result) ↔
      (hex root = toLowerCase q.merkle_root → isCanonicalTimestamp q.timestamp = true) := by
  rw [verifyEnvelope]
  by_cases hroot : hex root = toLowerCase q.merkle_root
  · rw [if_neg (not_not_intro hroot)]
    by_cases htimestamp : isCanonicalTimestamp q.timestamp = true
    · obtain ⟨envelope, henvelope⟩ := envelopeBytes_returns P q.action_ref q.merkle_root q.issuer htimestamp
      rw [henvelope]
      exact iff_of_true ⟨_, rfl⟩ fun _ => htimestamp
    · refine iff_of_false ?_ fun h => htimestamp (h hroot)
      intro hreturned
      obtain ⟨result, hresult⟩ := hreturned
      obtain ⟨envelope, henvelope, -⟩ := bind_eq_ok.mp hresult
      obtain ⟨done, hasserted, -⟩ := bind_eq_ok.mp henvelope
      rw [assertCanonicalTimestamp, if_neg htimestamp] at hasserted
      cases hasserted
  · rw [if_pos hroot]
    exact iff_of_true ⟨_, rfl⟩ fun h => absurd h hroot

theorem isText_iff {test : Str → Bool} {v : JsValue} : isText test v = true ↔ ∃ s, v = .str s ∧ test s = true := by
  cases v <;> simp [isText]

theorem path_digests {v : JsValue} (h : isPath v = true) : ∃ a b : Block 32, texts v = [hex a, hex b] := by
  cases v with
  | arr items =>
    rw [isPath, Bool.and_eq_true, decide_eq_true_iff] at h
    obtain ⟨hlength, hall⟩ := h
    obtain ⟨first, second, rfl⟩ := List.length_eq_two.mp hlength
    rw [List.all_cons, List.all_cons, List.all_nil, Bool.and_true, Bool.and_eq_true, isText_iff, isText_iff] at hall
    obtain ⟨⟨s, rfl, hs⟩, t, rfl, ht⟩ := hall
    obtain ⟨a, rfl⟩ := exists_hex hs
    obtain ⟨b, rfl⟩ := exists_hex ht
    exact ⟨a, b, rfl⟩
  | undefined => cases h
  | null => cases h
  | bool b => cases h
  | num n => cases h
  | str s => cases h
  | other type => cases h
  | date iso => cases h
  | obj members => cases h

theorem reconstructRoot_digests (leaf a b : Block 32) (tag : AttributionAxisTag) :
    reconstructRoot P leaf [hex a, hex b] tag = some (rootAbove P leaf a b tag) := by
  simp [reconstructRoot, asBlock_hex]

def RootMatches (P : Platform) (p : JsValue) : Prop :=
  ∃ tag leaf root, validTag (p.get (lit "axis_tag")) = some tag ∧ hashAxisLeaf P (p.get (lit "axis_data")) = .ok leaf ∧
    reconstructRoot P leaf (texts (p.get (lit "merkle_path"))) tag = some root ∧
    hex root = text (p.get (lit "merkle_root"))

/-- The verifier answers on a parsed value exactly where the value is not of the right shape, or its root is not the
one above its axis content, or its timestamp is canonical. -/
theorem projection_answered_iff (P : Platform) {p : JsValue} (hp : Parsed p) (publicKey : Str) :
    (∃ result, verifyAttributionProjection P p publicKey = .ok result) ↔
      (isProjectionStructurallyValid p = true → RootMatches P p →
        isCanonicalTimestamp (text (p.get (lit "timestamp"))) = true) := by
  rw [verifyAttributionProjection]
  by_cases hvalid : isProjectionStructurallyValid p = true
  · have hshape := hvalid
    simp only [isProjectionStructurallyValid, Bool.and_eq_true] at hshape
    obtain ⟨⟨⟨⟨⟨⟨-, -⟩, hrootText⟩, -⟩, -⟩, -⟩, hpath⟩ := hshape
    obtain ⟨rootText, hrootText, hhex⟩ := isText_iff.mp hrootText
    obtain ⟨a, b, hdigests⟩ := path_digests hpath
    obtain ⟨leaf, hleaf⟩ := hashAxisLeaf_returns (P := P) hp (lit "axis_data")
    rw [hvalid, hleaf]
    cases htag : validTag (p.get (lit "axis_tag")) with
    | none =>
      refine iff_of_true ⟨_, rfl⟩ ?_
      intro _ hmatches
      obtain ⟨tag, -, -, htag', -⟩ := hmatches
      rw [htag] at htag'
      cases htag'
    | some tag =>
      have hmatches : RootMatches P p ↔ hex (rootAbove P leaf a b tag) = text (p.get (lit "merkle_root")) := by
        constructor
        · intro h
          obtain ⟨tag', leaf', root, htag', hleaf', hroot, hsame⟩ := h
          cases htag.symm.trans htag'
          cases hleaf.symm.trans hleaf'
          rw [hdigests, reconstructRoot_digests] at hroot
          cases hroot
          exact hsame
        · intro hsame
          refine ⟨tag, leaf, _, htag, hleaf, ?_, hsame⟩
          rw [hdigests, reconstructRoot_digests]
      have hlower : toLowerCase (fields p).merkle_root = text (p.get (lit "merkle_root")) := by
        rw [fields, hrootText]
        exact toLowerCase_of_hex hhex
      have hsteps : (∃ result, verifyEnvelope P (fields p) (rootAbove P leaf a b tag) publicKey = .ok result) ↔
          (RootMatches P p → isCanonicalTimestamp (text (p.get (lit "timestamp"))) = true) := by
        rw [verifyEnvelope_returns_iff, hlower, hmatches]
        rfl
      have hroot : reconstructRoot P leaf (fields p).merkle_path tag = some (rootAbove P leaf a b tag) := by
        rw [fields, hdigests, reconstructRoot_digests]
      simp only [Bool.not_true, Bool.false_eq_true, if_false, bind, Except.bind, hroot, forall_const]
      exact hsteps
  · rw [Bool.not_eq_true] at hvalid
    rw [hvalid]
    exact iff_of_true ⟨_, rfl⟩ fun h => nomatch h

def sampleProjection (timestamp : String) : JsValue :=
  .obj [(lit "action_ref", .str (lit "ddb19e85b603556e869ede8dce8927aebda4c2183cee4a853744814fe8e43012")),
    (lit "axis_tag", .str (lit "D")), (lit "axis_data", .arr []),
    (lit "merkle_path", .arr [.str (List.replicate 64 0x61), .str (List.replicate 64 0x61)]),
    (lit "merkle_root", .str (lit "1b3191c9558554b0f0b303f4a5326cc8527139f24ffb44776f2d9739c2973c03")),
    (lit "issuer", .str (lit "did:aps:gw")), (lit "timestamp", .str (lit timestamp)),
    (lit "signature", .str (List.replicate 128 0x30))]

def samplePlatform : Platform where
  numText := integerText
  sha256 := ofTable [
    (ascii "[]", lit "4f53cda18c2baa0c0354bb5f9a3ecbe5ed12ab4d8e11ba873c2f11161202b945"),
    (bufferFromHex (lit "4f53cda18c2baa0c0354bb5f9a3ecbe5ed12ab4d8e11ba873c2f11161202b945" ++ List.replicate 64 0x61),
      lit "f2e001ea6b433267bc43cf928e01a9df75657bbe8dca10f73e5b6e035fead0b6"),
    (bufferFromHex (lit "f2e001ea6b433267bc43cf928e01a9df75657bbe8dca10f73e5b6e035fead0b6" ++ List.replicate 64 0x61),
      lit "1b3191c9558554b0f0b303f4a5326cc8527139f24ffb44776f2d9739c2973c03")]
  sign _ _ := none
  verify _ _ _ := false

theorem sample_parsed (timestamp : String) : Parsed (sampleProjection timestamp) := by
  refine .obj ?_
  simp only [List.forall_mem_cons, List.not_mem_nil, false_implies, implies_true, and_true]
  refine ⟨.str _, .str _, .arr (fun v hv => nomatch hv), .arr ?_, .str _, .str _, .str _, .str _⟩
  simp only [List.forall_mem_cons, List.not_mem_nil, false_implies, implies_true, and_true]
  exact ⟨.str _, .str _⟩

theorem projection_answered_dated : ∃ result,
    verifyAttributionProjection samplePlatform (sampleProjection "2026-01-02T03:04:05.006Z") [] = .ok result := by
  refine (projection_answered_iff samplePlatform (sample_parsed _) []).mpr ?_
  intro _ _
  decide

/-- The root is right and the timestamp is not: the verifier throws. -/
theorem unread_timestamp_throws : Parsed (sampleProjection "2026-01-02") ∧
    verifyAttributionProjection samplePlatform (sampleProjection "2026-01-02") [] =
      .error (.timestamp (lit "2026-01-02")) := by
  refine ⟨sample_parsed _, ?_⟩
  rw [samplePlatform, sampleProjection]
  repeat rw [lit_ofList]
  repeat rw [ascii_ofList]
  decide +kernel

end AgentPassport.ProjectionAnswers
