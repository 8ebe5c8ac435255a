import AgentPassport.PromotedTree
import AgentPassport.Sha256

/-! The receipt tree (`core/attribution.ts`): nodes are hex strings, and a path may bring any strings
as siblings. Still a root determines its receipts, and a path to it starts at one of them. -/
namespace AgentPassport.ReceiptMerkle
open JsText ByteBlocks Sha256 Utf8 PromotedTree DelegationSchema

structure MerkleProofNode where
  hash : Str
  position : Str
  deriving DecidableEq

structure MerkleProof where
  receiptHash : Str
  root : Str
  proof : List MerkleProofNode
  index : Nat
  deriving DecidableEq

def leafText (leaf : Str) : Str := 0x00 :: leaf

def nodeText (pair : Str × Str) : Str := 0x01 :: (pair.1 ++ pair.2)

def emptyText : Str := lit "empty"

section
variable (sha256 : Hash)

def hashLeafNode (leaf : Str) : Str := hex (sha256 (utf8 (leafText leaf)))

def hashInternalNode (left right : Str) : Str := hex (sha256 (utf8 (nodeText (left, right))))

/-- The last level reached over the sorted leaves. -/
def topLevel (leafHashes : List Str) : List Str :=
  reduce (hashInternalNode sha256) leafHashes.length ((sortNames leafHashes).map (hashLeafNode sha256))

def buildMerkleRoot (leafHashes : List Str) : Str :=
  if leafHashes = [] then hex (sha256 (utf8 emptyText)) else (topLevel sha256 leafHashes).headD []

def positionOf : Side → Str
  | .left => lit "left"
  | .right => lit "right"

def proofNode (step : Side × Str) : MerkleProofNode := ⟨step.2, positionOf step.1⟩

/-- A level where the node has no sibling leaves no entry. -/
def generateMerkleProof (leafHashes : List Str) (targetHash : Str) : Option MerkleProof :=
  if leafHashes = [] then none
  else
    let sorted := sortNames leafHashes
    match sorted.idxOf? targetHash with
    | none => none
    | some targetIndex =>
      some {
        receiptHash := targetHash
        root := (topLevel sha256 leafHashes).headD []
        proof := ((siblings (hashInternalNode sha256) leafHashes.length (sorted.map (hashLeafNode sha256))
          targetIndex).filterMap id).map proofNode
        index := targetIndex }

def climb (hash : Str) : List MerkleProofNode → Str
  | [] => hash
  | node :: rest =>
    climb (if node.position = lit "left" then hashInternalNode sha256 node.hash hash
      else hashInternalNode sha256 hash node.hash) rest

def verifyMerkleProof (proof : MerkleProof) : Bool :=
  climb sha256 (hashLeafNode sha256 proof.receiptHash) proof.proof = proof.root

def rootInputs (leafHashes : List Str) : List (List UInt8) :=
  if leafHashes = [] then [utf8 emptyText]
  else
    leafHashes.map (fun leaf => utf8 (leafText leaf)) ++
      (formed (hashInternalNode sha256) leafHashes.length
        ((sortNames leafHashes).map (hashLeafNode sha256))).map (fun pair => utf8 (nodeText pair))

def stepOf (node : MerkleProofNode) : Side × Str :=
  (if node.position = lit "left" then .left else .right, node.hash)

def proofInputs (proof : MerkleProof) : List (List UInt8) :=
  utf8 (leafText proof.receiptHash) ::
    (walked (hashInternalNode sha256) (hashLeafNode sha256 proof.receiptHash) (proof.proof.map stepOf)).map
      (fun pair => utf8 (nodeText pair))

end

def IsDigest (s : Str) : Prop := ∃ digest : Block 32, s = hex digest

def inputText : Str ⊕ Str × Str → Str
  | .inl leaf => leafText leaf
  | .inr pair => nodeText pair

/-- What is hashed in a tree over plain leaves: these, and pairs of digests. -/
def InTree : Str ⊕ Str × Str → Prop
  | .inl leaf => Plain leaf
  | .inr pair => IsDigest pair.1 ∧ IsDigest pair.2

/-- What is hashed along a path: anything, and pairs that hold a digest. -/
def OnPath : Str ⊕ Str × Str → Prop
  | .inl _ => True
  | .inr pair => IsDigest pair.1 ∨ IsDigest pair.2

theorem IsDigest.length {s : Str} (h : IsDigest s) : s.length = 64 := by
  obtain ⟨digest, rfl⟩ := h
  rw [hex, Multibase.bytesToHex_length, digest.size]

theorem IsDigest.plain {s : Str} (h : IsDigest s) : Plain s := by
  obtain ⟨digest, rfl⟩ := h
  intro c hc
  have hlower := lower_of_bytesToHex digest.bytes c hc
  simp only [isLowerHex, isDigit, Bool.or_eq_true, Bool.and_eq_true, decide_eq_true_eq, UInt16.le_iff_toNat_le] at hlower
  obtain ⟨-, hle⟩ | ⟨-, hle⟩ := hlower
  · exact Nat.lt_of_le_of_lt hle (by decide)
  · exact Nat.lt_of_le_of_lt hle (by decide)

variable {x : Str ⊕ Str × Str}

theorem plain_inputText (h : InTree x) : Plain (inputText x) := by
  cases x with
  | inl leaf => exact List.forall_mem_cons.mpr ⟨by decide, h⟩
  | inr pair =>
    refine List.forall_mem_cons.mpr ⟨by decide, ?_⟩
    exact List.forall_mem_append.mpr ⟨h.1.plain, h.2.plain⟩

theorem InTree.onPath (h : InTree x) : OnPath x := by
  cases x with
  | inl leaf => trivial
  | inr pair => exact .inl h.1

theorem pair_of_append {p q : Str × Str} (hp : OnPath (.inr p)) (hq : InTree (.inr q))
    (h : p.1 ++ p.2 = q.1 ++ q.2) : p = q := by
  obtain hleft | hright := hp
  · obtain ⟨hfirst, hsecond⟩ := List.append_inj h (hleft.length.trans hq.1.length.symm)
    exact Prod.ext hfirst hsecond
  · obtain ⟨hfirst, hsecond⟩ := List.append_inj' h (hright.length.trans hq.2.length.symm)
    exact Prod.ext hfirst hsecond

theorem inputText_inj {x y : Str ⊕ Str × Str} (hx : OnPath x) (hy : InTree y) (h : inputText x = inputText y) :
    x = y := by
  cases x with
  | inl a =>
    cases y with
    | inl b => rw [(List.cons.inj (h : leafText a = leafText b)).2]
    | inr q => exact absurd (List.cons.inj (h : leafText a = nodeText q)).1 (by decide)
  | inr p =>
    cases y with
    | inl b => exact absurd (List.cons.inj (h : nodeText p = leafText b)).1 (by decide)
    | inr q => rw [pair_of_append hx hy (List.cons.inj (h : nodeText p = nodeText q)).2]

section
variable {sha256 : Hash}

theorem value_eq (x : Str ⊕ Str × Str) :
    value (hashLeafNode sha256) (hashInternalNode sha256) x = hex (sha256 (utf8 (inputText x))) := by
  cases x <;> rfl

variable {inputs : List (List UInt8)}

theorem separates (hfree : CollisionFree sha256 inputs) (x y : Str ⊕ Str × Str)
    (hx : OnPath x ∧ utf8 (inputText x) ∈ inputs) (hy : InTree y ∧ utf8 (inputText y) ∈ inputs)
    (h : value (hashLeafNode sha256) (hashInternalNode sha256) x = value (hashLeafNode sha256) (hashInternalNode sha256) y) :
    x = y := by
  rw [value_eq, value_eq] at h
  have hbytes := hfree _ hx.2 _ hy.2 (hex_inj h)
  exact inputText_inj hx.1 hy.1 ((plain_inputText hy.1).eq_of_utf8 hbytes)

theorem topLevel_single {leafHashes : List Str} (h : leafHashes ≠ []) :
    topLevel sha256 leafHashes = [buildMerkleRoot sha256 leafHashes] := by
  have hlength := (sortNames_perm leafHashes).length_eq
  obtain ⟨r, hr⟩ : ∃ r, topLevel sha256 leafHashes = [r] := by
    apply reduce_single
    · intro hnil
      rw [List.map_eq_nil_iff.mp hnil] at hlength
      exact h (List.length_eq_zero_iff.mp hlength.symm)
    · rw [List.length_map, hlength]
      omega
  rw [buildMerkleRoot, if_neg h, hr]
  rfl

theorem buildMerkleRoot_perm {leafHashes leafHashes' : List Str} (h : leafHashes.Perm leafHashes') :
    buildMerkleRoot sha256 leafHashes = buildMerkleRoot sha256 leafHashes' := by
  have htop : topLevel sha256 leafHashes = topLevel sha256 leafHashes' := by
    rw [topLevel, topLevel, h.length_eq, sortNames_eq_of_perm h]
  have hnil : leafHashes = [] ↔ leafHashes' = [] := by
    rw [← List.length_eq_zero_iff, ← List.length_eq_zero_iff, h.length_eq]
  rw [buildMerkleRoot, buildMerkleRoot, htop]
  simp only [hnil]

variable {leafHashes : List Str}

theorem commits_of_root (hne : leafHashes ≠ []) (hplain : ∀ leaf ∈ leafHashes, Plain leaf)
    (hsub : ∀ x ∈ rootInputs sha256 leafHashes, x ∈ inputs) :
    ∃ t, Commits (hashLeafNode sha256) (hashInternalNode sha256)
      (fun x => InTree x ∧ utf8 (inputText x) ∈ inputs) (sortNames leafHashes) (buildMerkleRoot sha256 leafHashes) t := by
  rw [rootInputs, if_neg hne] at hsub
  apply exists_commits_leaves (n := leafHashes.length)
  · intro leaf hleaf
    have hmem := (sortNames_perm leafHashes).mem_iff.mp hleaf
    exact ⟨hplain leaf hmem, hsub _ (List.mem_append_left _ (List.mem_map_of_mem hmem))⟩
  · intro p hp
    have hdigests : IsDigest p.1 ∧ IsDigest p.2 := by
      refine formed_forall (fun a b => ⟨_, rfl⟩) ?_ p hp
      intro x hx
      obtain ⟨leaf, -, rfl⟩ := List.mem_map.mp hx
      exact ⟨_, rfl⟩
    exact ⟨hdigests, hsub _ (List.mem_append_right _ (List.mem_map_of_mem hp))⟩
  · exact topLevel_single hne

theorem empty_mem_rootInputs : utf8 emptyText ∈ rootInputs sha256 [] := List.mem_singleton_self _

theorem value_ne_empty (hempty : utf8 emptyText ∈ inputs) (hfree : CollisionFree sha256 inputs)
    (hx : utf8 (inputText x) ∈ inputs) :
    value (hashLeafNode sha256) (hashInternalNode sha256) x ≠ buildMerkleRoot sha256 [] := by
  intro h
  have hplain : Plain emptyText := forall_of_all (by decide)
  rw [value_eq, buildMerkleRoot, if_pos rfl] at h
  have htext := hplain.eq_of_utf8 (hfree _ hx _ hempty (hex_inj h))
  cases x with
  | inl leaf => exact absurd (List.cons.inj (htext : leafText leaf = emptyText)).1 (by decide)
  | inr pair => exact absurd (List.cons.inj (htext : nodeText pair = emptyText)).1 (by decide)

theorem root_ne_empty (hne : leafHashes ≠ []) (hplain : ∀ leaf ∈ leafHashes, Plain leaf)
    (hsub : ∀ x ∈ rootInputs sha256 leafHashes, x ∈ inputs) (hempty : utf8 emptyText ∈ inputs)
    (hfree : CollisionFree sha256 inputs) : buildMerkleRoot sha256 leafHashes ≠ buildMerkleRoot sha256 [] := by
  obtain ⟨t, ht⟩ := commits_of_root hne hplain hsub
  obtain ⟨x, hx, hdigest⟩ := t.exists_input (hashLeafNode sha256) (hashInternalNode sha256)
  rw [← ht.digest_eq, hdigest]
  exact value_ne_empty hempty hfree (ht.inputs_mem x hx).2

theorem perm_of_root {leafHashes leafHashes' : List Str} (hplain : ∀ leaf ∈ leafHashes, Plain leaf)
    (hplain' : ∀ leaf ∈ leafHashes', Plain leaf)
    (hfree : CollisionFree sha256 (rootInputs sha256 leafHashes ++ rootInputs sha256 leafHashes'))
    (h : buildMerkleRoot sha256 leafHashes = buildMerkleRoot sha256 leafHashes') : leafHashes.Perm leafHashes' := by
  have hsub : ∀ x ∈ rootInputs sha256 leafHashes, x ∈ rootInputs sha256 leafHashes ++ rootInputs sha256 leafHashes' :=
    fun x hx => List.mem_append_left _ hx
  have hsub' : ∀ x ∈ rootInputs sha256 leafHashes', x ∈ rootInputs sha256 leafHashes ++ rootInputs sha256 leafHashes' :=
    fun x hx => List.mem_append_right _ hx
  by_cases hne : leafHashes = []
  · subst hne
    by_cases hne' : leafHashes' = []
    · subst hne'
      exact .refl _
    · exact absurd h.symm (root_ne_empty hne' hplain' hsub' (hsub _ empty_mem_rootInputs) hfree)
  · by_cases hne' : leafHashes' = []
    · subst hne'
      exact absurd h (root_ne_empty hne hplain hsub (hsub' _ empty_mem_rootInputs) hfree)
    · obtain ⟨t, ht⟩ := commits_of_root hne hplain hsub
      obtain ⟨t', ht'⟩ := commits_of_root hne' hplain' hsub'
      rw [← h] at ht'
      have hsep : Separates (hashLeafNode sha256) (hashInternalNode sha256) _ := fun x y hx hy =>
        separates hfree x y ⟨hx.1.onPath, hx.2⟩ hy
      have hsorted := hsep.leaves_inj ht ht'
      exact (sortNames_perm leafHashes).symm.trans (hsorted ▸ sortNames_perm leafHashes')

theorem climb_eq_walk (hash : Str) (nodes : List MerkleProofNode) :
    climb sha256 hash nodes = walk (hashInternalNode sha256) hash (nodes.map stepOf) := by
  fun_induction climb sha256 hash nodes with
  | case1 => rfl
  | case2 hash node rest ih =>
    rw [ih, List.map_cons, walk, walk, List.foldl_cons, stepOf]
    split <;> rfl

theorem stepOf_proofNode (step : Side × Str) : stepOf (proofNode step) = step := by
  obtain ⟨side, hash⟩ := step
  cases side with
  | left => rw [stepOf, proofNode, positionOf, if_pos rfl]
  | right =>
    have hright : lit "right" ≠ lit "left" := by decide
    rw [stepOf, proofNode, positionOf, if_neg hright]

theorem proof_of_mem {leafHashes : List Str} {targetHash : Str} (h : targetHash ∈ leafHashes) :
    ∃ proof, generateMerkleProof sha256 leafHashes targetHash = some proof ∧ proof.receiptHash = targetHash ∧
      proof.root = buildMerkleRoot sha256 leafHashes ∧ verifyMerkleProof sha256 proof = true := by
  have hne : leafHashes ≠ [] := List.ne_nil_of_mem h
  have hmem := (sortNames_perm leafHashes).mem_iff.mpr h
  obtain ⟨i, hi⟩ := Option.isSome_iff_exists.mp (List.isSome_idxOf?.mpr hmem)
  obtain ⟨hlt, hget, -⟩ := List.idxOf?_eq_some_iff.mp hi
  have htop := @topLevel_single sha256 _ hne
  rw [generateMerkleProof, if_neg hne]
  simp only [hi, htop, List.headD_cons]
  refine ⟨_, rfl, rfl, rfl, ?_⟩
  have hnode : ((sortNames leafHashes).map (hashLeafNode sha256))[i]? = some (hashLeafNode sha256 targetHash) := by
    rw [List.getElem?_map, List.getElem?_eq_getElem hlt, hget]
    rfl
  have hsteps : stepOf ∘ proofNode = id := funext stepOf_proofNode
  rw [verifyMerkleProof, decide_eq_true_eq, climb_eq_walk, List.map_map, hsteps, List.map_id]
  exact walk_siblings _ hnode htop

theorem mem_of_proof {proof : MerkleProof} (hplain : ∀ leaf ∈ leafHashes, Plain leaf)
    (hfree : CollisionFree sha256 (rootInputs sha256 leafHashes ++ proofInputs sha256 proof))
    (hroot : proof.root = buildMerkleRoot sha256 leafHashes) (h : verifyMerkleProof sha256 proof = true) :
    proof.receiptHash ∈ leafHashes := by
  have hsub : ∀ x ∈ rootInputs sha256 leafHashes, x ∈ rootInputs sha256 leafHashes ++ proofInputs sha256 proof :=
    fun x hx => List.mem_append_left _ hx
  have hpath : ∀ x ∈ proofInputs sha256 proof, x ∈ rootInputs sha256 leafHashes ++ proofInputs sha256 proof :=
    fun x hx => List.mem_append_right _ hx
  have hleaf : OnPath (.inl proof.receiptHash) ∧ utf8 (leafText proof.receiptHash) ∈ _ :=
    ⟨trivial, hpath _ List.mem_cons_self⟩
  have hwalked : ∀ p ∈ walked (hashInternalNode sha256) (hashLeafNode sha256 proof.receiptHash) (proof.proof.map stepOf),
      OnPath (.inr p) ∧ utf8 (nodeText p) ∈ rootInputs sha256 leafHashes ++ proofInputs sha256 proof := by
    intro p hp
    have hstart : IsDigest (hashLeafNode sha256 proof.receiptHash) := ⟨_, rfl⟩
    exact ⟨walked_forall (fun a b => ⟨_, rfl⟩) hstart _ p hp,
      hpath _ (List.mem_cons_of_mem _ (List.mem_map_of_mem hp))⟩
  rw [verifyMerkleProof, decide_eq_true_eq, climb_eq_walk, hroot] at h
  by_cases hne : leafHashes = []
  · subst hne
    obtain ⟨x, hx, hvalue⟩ := walk_input (W := fun x => OnPath x ∧ utf8 (inputText x) ∈ _) hleaf hwalked
    exact absurd (hvalue.symm.trans h) (value_ne_empty (hsub _ empty_mem_rootInputs) hfree hx.2)
  · obtain ⟨t, ht⟩ := commits_of_root hne hplain hsub
    rw [← (sortNames_perm leafHashes).mem_iff, ← ht.frontier_eq]
    exact mem_of_walk (separates hfree) ht.inputs_mem hleaf hwalked (h.trans ht.digest_eq.symm)

end

/-- A root tells every list of receipts from every other, and a path to it from anything but a receipt. -/
theorem receipt_tree (sha256 : Hash) :
    (∀ leafHashes, ∀ targetHash ∈ leafHashes,
      ∃ proof, generateMerkleProof sha256 leafHashes targetHash = some proof ∧ proof.receiptHash = targetHash ∧
        proof.root = buildMerkleRoot sha256 leafHashes ∧ verifyMerkleProof sha256 proof = true) ∧
    (∀ leafHashes leafHashes' : List Str, leafHashes.Perm leafHashes' →
      buildMerkleRoot sha256 leafHashes = buildMerkleRoot sha256 leafHashes') ∧
    (∀ leafHashes leafHashes', (∀ leaf ∈ leafHashes, Plain leaf) → (∀ leaf ∈ leafHashes', Plain leaf) →
      CollisionFree sha256 (rootInputs sha256 leafHashes ++ rootInputs sha256 leafHashes') →
      buildMerkleRoot sha256 leafHashes = buildMerkleRoot sha256 leafHashes' → leafHashes.Perm leafHashes') ∧
    ∀ leafHashes proof, (∀ leaf ∈ leafHashes, Plain leaf) →
      CollisionFree sha256 (rootInputs sha256 leafHashes ++ proofInputs sha256 proof) →
      proof.root = buildMerkleRoot sha256 leafHashes → verifyMerkleProof sha256 proof = true →
      proof.receiptHash ∈ leafHashes := by
  refine ⟨fun _ _ h => proof_of_mem h, fun _ _ h => buildMerkleRoot_perm h, ?_, ?_⟩
  · intro leafHashes leafHashes' hplain hplain' hfree h
    exact perm_of_root hplain hplain' hfree h
  · intro leafHashes proof hplain hfree hroot h
    exact mem_of_proof hplain hfree hroot h

/-! Three receipts: the odd leaf goes up beside the node of the other two. -/

def sampleReceipts : List Str := [
  lit "774ad7ab1a3d41b114b5f4a34e2d8fc19c2ee8d83dfc133f1d80068ed205597f",
  lit "de84f16f82e8cf8c184f7883460865481ba6f1fa5b48c3ae4e75b9e9786a6b03",
  lit "fea5396a7f4325c408b1b65b33a4d77ba5486ceba941804d8889a8546cfbab96"]

def sampleLeaves : List Str := [
  lit "e5f618cfbee316fbf8c4983cb21e780c647eca522534a37ea1a7a057f4a9c4a6",
  lit "58e228167bbfc8b6ec943114faa980f8a51a9b5b4da68c6d4ca9f6e00071dc33",
  lit "c76af4c45f8322d05198601e0057a81dbccc1ac305fb018fe311e766422ab5d4"]

def samplePair : Str := lit "f98d77aae2e6a5837bd94f6e48bdf179aba998cbcf42a9da634568b4f260ba14"

def sampleRoot : Str := lit "dfbc3a631e05e361b756c9e52032aa23981cabf18485218b59ddcf5d5b1063e5"

def sampleHash : Hash := ofTable (
  List.zip (sampleReceipts.map (fun leaf => utf8 (leafText leaf))) sampleLeaves ++ [
    (utf8 (nodeText (sampleLeaves.getD 0 [], sampleLeaves.getD 1 [])), samplePair),
    (utf8 (nodeText (samplePair, sampleLeaves.getD 2 [])), sampleRoot)])

def sampleProof : MerkleProof :=
  ⟨sampleReceipts.getD 2 [], sampleRoot, [⟨samplePair, lit "left"⟩], 7⟩

theorem sampleReceipts_root : buildMerkleRoot sampleHash sampleReceipts = sampleRoot := by
  rw [sampleHash, sampleReceipts, sampleLeaves, samplePair, sampleRoot]
  repeat rw [lit_ofList]
  decide +kernel

theorem receipt_tree_three :
    buildMerkleRoot sampleHash sampleReceipts = sampleRoot ∧
    buildMerkleRoot sampleHash sampleReceipts.reverse = sampleRoot ∧
    sampleReceipts.Perm sampleReceipts.reverse ∧ sampleProof.receiptHash ∈ sampleReceipts := by
  obtain ⟨-, hperm, hinj, hsound⟩ := receipt_tree sampleHash
  have hroot := sampleReceipts_root
  have hreverse := hperm sampleReceipts sampleReceipts.reverse (List.reverse_perm sampleReceipts).symm
  have hplain : ∀ leaf ∈ sampleReceipts, Plain leaf := by
    intro leaf hleaf
    refine forall_of_all ?_
    exact List.all_eq_true.mp (by decide : sampleReceipts.all (fun leaf => leaf.all _) = true) leaf hleaf
  have hfree : CollisionFree sampleHash (rootInputs sampleHash sampleReceipts) := by
    apply CollisionFree.of_nodup
    rw [sampleHash, sampleReceipts, sampleLeaves, samplePair, sampleRoot]
    repeat rw [lit_ofList]
    decide +kernel
  refine ⟨hroot, hreverse.symm.trans hroot, hinj _ _ hplain ?_ ?_ hreverse, hsound _ _ hplain ?_ hroot.symm ?_⟩
  · intro leaf hleaf
    exact hplain leaf (List.mem_reverse.mp hleaf)
  · apply hfree.mono
    rw [sampleHash, sampleReceipts, sampleLeaves, samplePair, sampleRoot]
    repeat rw [lit_ofList]
    decide
  · apply hfree.mono
    rw [sampleHash, sampleProof, sampleReceipts, sampleLeaves, samplePair, sampleRoot]
    repeat rw [lit_ofList]
    decide
  · rw [sampleProof, sampleHash, sampleReceipts, sampleLeaves, samplePair, sampleRoot]
    repeat rw [lit_ofList]
    decide

end AgentPassport.ReceiptMerkle
