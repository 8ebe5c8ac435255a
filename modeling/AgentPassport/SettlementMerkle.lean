import AgentPassport.JsArithmetic
import AgentPassport.PromotedTree
import AgentPassport.Sha256

/-! The settlement tree over any number of leaves (`v2/attribution-settlement/merkle.ts`): every
path that is built verifies, a root determines its leaves, and a path that verifies ends at one. -/
namespace AgentPassport.SettlementMerkle
open JsText Js ByteBlocks Sha256 PromotedTree

def LEAF_TAG : List UInt8 := [0x00]
def NODE_TAG : List UInt8 := [0x01]

def PROMOTED_LEVEL : Str := lit "promoted"

inductive MerkleError where
  | noLeaf
  | outOfRange (targetIndex leaves : Nat)
  deriving DecidableEq

/-- `idx % 2 === 1`, for an index that is not negative. -/
def isRight : JsNumber → Bool
  | .finite d => d.scaled % (2 * scaleOne) = scaleOne
  | _ => false

/-- `Math.floor(idx / 2)`: what halving rounds away is below the integer it is floored to. -/
def half : JsNumber → JsNumber
  | .finite d => JsNumber.ofInt (d.scaled / (2 * scaleOne))
  | idx => idx

def leafInput (leaf : List UInt8) : List UInt8 := LEAF_TAG ++ leaf

def nodeInput (pair : Block 32 × Block 32) : List UInt8 := NODE_TAG ++ (pair.1.bytes ++ pair.2.bytes)

section
variable (sha256 : Hash)

def hashLeafNode (leaf : List UInt8) : Block 32 := sha256 (leafInput leaf)

def hashInternalNode (left right : Block 32) : Block 32 := sha256 (nodeInput (left, right))

/-- The root; a level without nodes has none. -/
def buildMerkleRoot (leaves : List (List UInt8)) : Except MerkleError (Block 32) :=
  match reduce (hashInternalNode sha256) leaves.length (leaves.map (hashLeafNode sha256)) with
  | root :: _ => .ok root
  | [] => .error .noLeaf

def pathToken : Option (Side × Block 32) → Str
  | some (_, digest) => hex digest
  | none => PROMOTED_LEVEL

def buildContributorMerklePath (leaves : List (List UInt8)) (targetIndex : Nat) : Except MerkleError (List Str) :=
  if leaves = [] then .error .noLeaf
  else if leaves.length ≤ targetIndex then .error (.outOfRange targetIndex leaves.length)
  else
    .ok ((siblings (hashInternalNode sha256) leaves.length (leaves.map (hashLeafNode sha256)) targetIndex).map pathToken)

/-- The loop over the path; none when an entry is neither the token nor a digest. -/
def climb : List Str → Block 32 → JsNumber → Option (Block 32)
  | [], acc, _ => some acc
  | siblingHex :: rest, acc, idx =>
    if siblingHex = PROMOTED_LEVEL then climb rest acc (half idx)
    else if !isHexOf 64 siblingHex then none
    else
      match asBlock (bufferFromHex siblingHex) with
      | none => none
      | some sibling =>
        climb rest (if isRight idx then hashInternalNode sha256 sibling acc else hashInternalNode sha256 acc sibling)
          (half idx)

def verifyMerklePath (leaf : List UInt8) (leafIndex : JsNumber) (path : List Str) (expectedRootHex : Str) : Bool :=
  if leafIndex.lt (zeroOf false) then false
  else
    match climb sha256 path (hashLeafNode sha256 leaf) leafIndex with
    | none => false
    | some acc => hex acc = toLowerCase expectedRootHex

def rootInputs (leaves : List (List UInt8)) : List (List UInt8) :=
  leaves.map leafInput ++
    (formed (hashInternalNode sha256) leaves.length (leaves.map (hashLeafNode sha256))).map nodeInput

def pathSteps : List Str → JsNumber → List (Side × Block 32)
  | [], _ => []
  | siblingHex :: rest, idx =>
    if siblingHex = PROMOTED_LEVEL then pathSteps rest (half idx)
    else
      match asBlock (bufferFromHex siblingHex) with
      | none => []
      | some sibling => (if isRight idx then .left else .right, sibling) :: pathSteps rest (half idx)

def pathInputs (leaf : List UInt8) (leafIndex : JsNumber) (path : List Str) : List (List UInt8) :=
  leafInput leaf ::
    (walked (hashInternalNode sha256) (hashLeafNode sha256 leaf) (pathSteps path leafIndex)).map nodeInput

end

def inputBytes : List UInt8 ⊕ Block 32 × Block 32 → List UInt8
  | .inl leaf => leafInput leaf
  | .inr pair => nodeInput pair

theorem nodeInput_inj {p q : Block 32 × Block 32} (h : nodeInput p = nodeInput q) : p = q := by
  have hbytes := List.append_cancel_left h
  obtain ⟨hleft, hright⟩ := List.append_inj hbytes (by rw [p.1.size, q.1.size])
  exact Prod.ext (Block.ext_bytes hleft) (Block.ext_bytes hright)

theorem inputBytes_inj {x y : List UInt8 ⊕ Block 32 × Block 32} (h : inputBytes x = inputBytes y) : x = y := by
  cases x with
  | inl a =>
    cases y with
    | inl b => rw [List.append_cancel_left (show leafInput a = leafInput b from h)]
    | inr q => cases (List.cons.inj (show leafInput a = nodeInput q from h)).1
  | inr p =>
    cases y with
    | inl b => cases (List.cons.inj (show nodeInput p = leafInput b from h)).1
    | inr q => rw [nodeInput_inj h]

section
variable {sha256 : Hash}

theorem value_eq (x : List UInt8 ⊕ Block 32 × Block 32) :
    value (hashLeafNode sha256) (hashInternalNode sha256) x = sha256 (inputBytes x) := by
  cases x <;> rfl

theorem separates_of_collisionFree {inputs : List (List UInt8)} (h : CollisionFree sha256 inputs) :
    Separates (hashLeafNode sha256) (hashInternalNode sha256) (fun x => inputBytes x ∈ inputs) := by
  intro x y hx hy heq
  rw [value_eq, value_eq] at heq
  exact inputBytes_inj (h _ hx _ hy heq)

theorem root_single {leaves : List (List UInt8)} (h : leaves ≠ []) :
    ∃ r, reduce (hashInternalNode sha256) leaves.length (leaves.map (hashLeafNode sha256)) = [r] := by
  apply reduce_single
  · exact fun hnil => h (List.map_eq_nil_iff.mp hnil)
  · rw [List.length_map]
    omega

theorem buildMerkleRoot_ok {leaves : List (List UInt8)} {root : Block 32}
    (h : buildMerkleRoot sha256 leaves = .ok root) :
    reduce (hashInternalNode sha256) leaves.length (leaves.map (hashLeafNode sha256)) = [root] := by
  have hne : leaves ≠ [] := by
    intro hnil
    rw [hnil] at h
    cases h
  obtain ⟨r, hr⟩ := root_single hne
  rw [buildMerkleRoot, hr] at h
  cases h
  exact hr

theorem buildMerkleRoot_total {leaves : List (List UInt8)} (h : leaves ≠ []) :
    ∃ root, buildMerkleRoot sha256 leaves = .ok root := by
  obtain ⟨r, hr⟩ := root_single h
  exact ⟨r, by rw [buildMerkleRoot, hr]⟩

theorem commits_of_root {leaves : List (List UInt8)} {root : Block 32} {inputs : List (List UInt8)}
    (h : buildMerkleRoot sha256 leaves = .ok root) (hsub : ∀ x ∈ rootInputs sha256 leaves, x ∈ inputs) :
    ∃ t, Commits (hashLeafNode sha256) (hashInternalNode sha256) (fun x => inputBytes x ∈ inputs) leaves root t := by
  apply exists_commits_leaves (n := leaves.length)
  · intro a ha
    exact hsub _ (List.mem_append_left _ (List.mem_map_of_mem ha))
  · intro p hp
    exact hsub _ (List.mem_append_right _ (List.mem_map_of_mem hp))
  · exact buildMerkleRoot_ok h

theorem leaves_of_root {xs ys : List (List UInt8)} {root : Block 32}
    (hfree : CollisionFree sha256 (rootInputs sha256 xs ++ rootInputs sha256 ys))
    (hx : buildMerkleRoot sha256 xs = .ok root) (hy : buildMerkleRoot sha256 ys = .ok root) : xs = ys := by
  obtain ⟨t, ht⟩ := commits_of_root hx (fun x hx => List.mem_append_left (rootInputs sha256 ys) hx)
  obtain ⟨t', ht'⟩ := commits_of_root hy (fun x hx => List.mem_append_right (rootInputs sha256 xs) hx)
  exact (separates_of_collisionFree hfree).leaves_inj ht ht'

theorem climb_eq_walk {path : List Str} {acc r : Block 32} {idx : JsNumber} (h : climb sha256 path acc idx = some r) :
    walk (hashInternalNode sha256) acc (pathSteps path idx) = r := by
  fun_induction climb sha256 path acc idx with
  | case1 acc idx => exact Option.some.inj h
  | case2 rest acc idx ih =>
    rw [pathSteps, if_pos rfl]
    exact ih h
  | case3 => cases h
  | case4 => cases h
  | case5 s rest acc idx htoken hhex sibling hsibling ih =>
    rw [pathSteps, if_neg htoken, hsibling]
    have hup := ih h
    cases hright : isRight idx with
    | false =>
      rw [hright] at hup
      exact hup
    | true =>
      rw [hright] at hup
      exact hup

theorem climb_of_verified {root : Block 32} {leaf : List UInt8} {j : JsNumber} {path : List Str}
    (h : verifyMerklePath sha256 leaf j path (hex root) = true) :
    climb sha256 path (hashLeafNode sha256 leaf) j = some root := by
  rw [verifyMerklePath] at h
  split at h
  · cases h
  · split at h
    · cases h
    · rename_i acc hclimb
      rw [toLowerCase_hex, decide_eq_true_eq] at h
      rw [hclimb, hex_inj h]

theorem position_of_path {leaves : List (List UInt8)} {root : Block 32} {leaf : List UInt8} {j : JsNumber}
    {path : List Str} (hfree : CollisionFree sha256 (rootInputs sha256 leaves ++ pathInputs sha256 leaf j path))
    (hroot : buildMerkleRoot sha256 leaves = .ok root)
    (h : verifyMerklePath sha256 leaf j path (hex root) = true) :
    ∃ i, leaves[i]? = some leaf ∧ pathSteps path j = (siblings (hashInternalNode sha256) leaves.length
      (leaves.map (hashLeafNode sha256)) i).filterMap id := by
  refine (separates_of_collisionFree hfree).exists_leaf_position ?_ ?_ ?_ ?_ (buildMerkleRoot_ok hroot)
    (climb_eq_walk (climb_of_verified h))
  · intro a ha
    exact List.mem_append_left _ (List.mem_append_left _ (List.mem_map_of_mem ha))
  · intro p hp
    exact List.mem_append_left _ (List.mem_append_right _ (List.mem_map_of_mem hp))
  · exact List.mem_append_right _ List.mem_cons_self
  · intro p hp
    exact List.mem_append_right _ (List.mem_cons_of_mem _ (List.mem_map_of_mem hp))

theorem isRight_ofInt {n : Nat} (h : n < 2 ^ 53) : isRight (JsNumber.ofInt n) = decide (n % 2 = 1) := by
  obtain ⟨d, hd, hscaled⟩ := ofInt_exact h
  have hpos := scaleOne_pos
  rw [hd, isRight, hscaled, Int.mul_comm 2, Int.mul_comm (n : Int), Int.mul_emod_mul_of_pos _ _ hpos]
  have hbit : scaleOne * ((n : Int) % 2) = scaleOne ↔ n % 2 = 1 := by
    constructor
    · intro heq
      have hone : ((n : Int) % 2) = 1 := by
        apply Int.eq_of_mul_eq_mul_left (Int.ne_of_gt hpos)
        rw [heq, Int.mul_one]
      omega
    · intro heq
      rw [show ((n : Int) % 2) = 1 by omega, Int.mul_one]
  rw [decide_eq_decide]
  exact hbit

theorem half_ofInt {n : Nat} (h : n < 2 ^ 53) : half (JsNumber.ofInt n) = JsNumber.ofInt ((n / 2 : Nat) : Int) := by
  obtain ⟨d, hd, hscaled⟩ := ofInt_exact h
  have hpos := scaleOne_pos
  rw [hd, half, hscaled, Int.mul_ediv_mul_of_pos_left _ _ hpos, Int.natCast_ediv]
  rfl

theorem lt_zero_ofInt {n : Nat} (h : n < 2 ^ 53) : (JsNumber.ofInt n).lt (zeroOf false) = false := by
  obtain ⟨d, hd, hscaled⟩ := ofInt_exact h
  have hpos := scaleOne_pos
  rw [hd, zeroOf, lt_false_iff_le, zeroOf_scaled, hscaled]
  exact Int.mul_nonneg (Int.natCast_nonneg n) (Int.le_of_lt hpos)

theorem hex_ne_promoted (digest : Block 32) : hex digest ≠ PROMOTED_LEVEL := by
  intro h
  have hlength := congrArg List.length h
  rw [hex, Multibase.bytesToHex_length, digest.size] at hlength
  exact absurd hlength (by decide)

theorem sibling_side {level : List (Block 32)} {i : Nat} {side : Side} {digest : Block 32}
    (h : sibling level i = some (side, digest)) : side = if i % 2 = 1 then .left else .right := by
  rw [sibling] at h
  split at h
  · rename_i hodd
    obtain ⟨_, -, hpair⟩ := Option.map_eq_some_iff.mp h
    rw [if_pos hodd]
    exact (Prod.mk.inj hpair).1.symm
  · rename_i heven
    obtain ⟨_, -, hpair⟩ := Option.map_eq_some_iff.mp h
    rw [if_neg heven]
    exact (Prod.mk.inj hpair).1.symm

theorem climb_siblings {n i : Nat} {level : List (Block 32)} (acc : Block 32) (hi : i < 2 ^ 53) :
    climb sha256 ((siblings (hashInternalNode sha256) n level i).map pathToken) acc (JsNumber.ofInt i) =
      some (walk (hashInternalNode sha256) acc ((siblings (hashInternalNode sha256) n level i).filterMap id)) := by
  induction n generalizing level i acc with
  | zero => rfl
  | succ n ih =>
    rw [siblings]
    split
    · rw [List.map_cons]
      cases hsibling : sibling level i with
      | none =>
        rw [climb, pathToken, if_pos rfl, half_ofInt hi, ih acc (by omega)]
        rfl
      | some s =>
        obtain ⟨side, digest⟩ := s
        rw [climb, pathToken, if_neg (hex_ne_promoted digest), isHexOf_of_lower (hex_lower digest), asBlock_hex,
          isRight_ofInt hi, half_ofInt hi]
        simp only [Bool.not_true, Bool.false_eq_true, if_false, decide_eq_true_eq]
        rw [ih _ (by omega), sibling_side hsibling]
        split <;> rfl
    · rfl

theorem path_verifies {leaves : List (List UInt8)} {leaf : List UInt8} {i : Nat} (hi : leaves[i]? = some leaf)
    (hsize : leaves.length < 2 ^ 32) :
    ∃ root path, buildMerkleRoot sha256 leaves = .ok root ∧ buildContributorMerklePath sha256 leaves i = .ok path ∧
      verifyMerklePath sha256 leaf (JsNumber.ofInt i) path (hex root) = true := by
  obtain ⟨hlt, -⟩ := List.getElem?_eq_some_iff.mp hi
  have hne : leaves ≠ [] := List.ne_nil_of_length_pos (by omega)
  obtain ⟨root, hroot⟩ := buildMerkleRoot_total hne
  have hnode : (leaves.map (hashLeafNode sha256))[i]? = some (hashLeafNode sha256 leaf) := by
    rw [List.getElem?_map, hi]
    rfl
  have hpath : buildContributorMerklePath sha256 leaves i = .ok ((siblings (hashInternalNode sha256) leaves.length
      (leaves.map (hashLeafNode sha256)) i).map pathToken) := by
    rw [buildContributorMerklePath, if_neg hne, if_neg (by omega)]
  refine ⟨root, _, hroot, hpath, ?_⟩
  rw [verifyMerklePath, lt_zero_ofInt (by omega), if_neg Bool.false_ne_true, climb_siblings _ (by omega),
    walk_siblings _ hnode (buildMerkleRoot_ok hroot)]
  simp

theorem sibling_isSome {level : List (Block 32)} {i : Nat} (h : i < level.length) :
    (sibling level i).isSome ↔ i % 2 = 1 ∨ i + 1 < level.length := by
  rw [sibling]
  split
  · rename_i hodd
    simp only [Option.isSome_map, isSome_getElem?]
    omega
  · rename_i heven
    simp only [Option.isSome_map, isSome_getElem?]
    omega

def promotedLevels (path : List Str) : List Bool := path.map (fun siblingHex => decide (siblingHex = PROMOTED_LEVEL))

theorem index_of_sides {n i k : Nat} {level : List (Block 32)} {path : List Str} (hn : level.length ≤ n + 1)
    (hsize : level.length < 2 ^ 53) (hi : i < level.length) (hk : k < level.length)
    (hlevels : promotedLevels path = (siblings (hashInternalNode sha256) n level i).map Option.isNone)
    (hsteps : pathSteps path (JsNumber.ofInt k) = (siblings (hashInternalNode sha256) n level i).filterMap id) :
    k = i := by
  induction n generalizing level i k path with
  | zero => omega
  | succ n ih =>
    rw [siblings] at hlevels hsteps
    by_cases hlength : 1 < level.length
    · rw [if_pos hlength] at hlevels hsteps
      have hup := up_length (hashInternalNode sha256) level
      have ih := @ih (i / 2) (k / 2) (up (hashInternalNode sha256) level)
      cases path with
      | nil => cases hlevels
      | cons siblingHex rest =>
        obtain ⟨htoken, hrest⟩ := List.cons.inj hlevels
        have hsome := sibling_isSome hi
        rw [pathSteps, half_ofInt (by omega)] at hsteps
        cases hsibling : sibling level i with
        | none =>
          rw [hsibling] at htoken hsteps hsome
          rw [if_pos (of_decide_eq_true htoken)] at hsteps
          have hhalf := ih (by omega) (by omega) (by omega) (by omega) hrest hsteps
          simp only [Option.isSome_none, Bool.false_eq_true, false_iff] at hsome
          omega
        | some s =>
          obtain ⟨side, digest⟩ := s
          rw [hsibling] at htoken hsteps
          rw [if_neg (of_decide_eq_false htoken), isRight_ofInt (by omega)] at hsteps
          cases hblock : asBlock (bufferFromHex siblingHex) with
          | none =>
            rw [hblock] at hsteps
            cases hsteps
          | some other =>
            rw [hblock] at hsteps
            obtain ⟨hpair, htail⟩ := List.cons.inj hsteps
            have hhalf := ih (by omega) (by omega) (by omega) (by omega) hrest htail
            have hside := (Prod.mk.inj hpair).1
            rw [sibling_side hsibling] at hside
            simp only [decide_eq_true_eq] at hside
            have hparity : k % 2 = 1 ↔ i % 2 = 1 := by
              constructor
              · intro hodd
                by_contra heven
                rw [if_pos hodd, if_neg heven] at hside
                cases hside
              · intro hodd
                by_contra heven
                rw [if_neg heven, if_pos hodd] at hside
                cases hside
            omega
    · omega

/-- A path that verifies starts at one of the leaves and goes past its siblings; where it also has an entry for
each level, as it was built, an index in range is that of the leaf. -/
theorem verified_path_position {leaves : List (List UInt8)} {root : Block 32} {leaf : List UInt8} {j : JsNumber}
    {path : List Str} (hsize : leaves.length < 2 ^ 32)
    (hfree : CollisionFree sha256 (rootInputs sha256 leaves ++ pathInputs sha256 leaf j path))
    (hroot : buildMerkleRoot sha256 leaves = .ok root)
    (h : verifyMerklePath sha256 leaf j path (hex root) = true) :
    ∃ i, leaves[i]? = some leaf ∧
      pathSteps path j = (siblings (hashInternalNode sha256) leaves.length
        (leaves.map (hashLeafNode sha256)) i).filterMap id ∧
      ∀ k < leaves.length, j = JsNumber.ofInt k →
        promotedLevels path = (siblings (hashInternalNode sha256) leaves.length
          (leaves.map (hashLeafNode sha256)) i).map Option.isNone → k = i := by
  obtain ⟨i, hleaf, hsteps⟩ := position_of_path hfree hroot h
  refine ⟨i, hleaf, hsteps, ?_⟩
  intro k hk hj hlevels
  obtain ⟨hi, -⟩ := List.getElem?_eq_some_iff.mp hleaf
  rw [hj] at hsteps
  refine index_of_sides ?_ ?_ ?_ ?_ hlevels hsteps
  · rw [List.length_map]
    omega
  · rw [List.length_map]
    omega
  · rw [List.length_map]
    exact hi
  · rw [List.length_map]
    exact hk

end

/-! Three leaves: the last one is promoted past the pair of the others. -/

def sampleLeaves : List (List UInt8) := [[0x61], [0x62], [0x63]]

def digestOf (digestHex : Str) : Block 32 := (asBlock (bufferFromHex digestHex)).getD (Block.zero 32)

def samplePair : Str := lit "b137985ff484fb600db93107c77b0365c80d78f5b429ded0fd97361d077999eb"

def sampleRoot : Str := lit "36642e73c2540ab121e3a6bf9545b0a24982cd830eb13d3cd19de3ce6c021ec1"

def sampleNodes : List Str := [
  lit "022a6979e6dab7aa5ae4c3e5e45f7e977112a7e63593820dbec1ec738a24f93c",
  lit "57eb35615d47f34ec714cacdf5fd74608a5e8e102724e80b24b287c0c27b6a31",
  lit "597fcb31282d34654c200d3418fca5705c648ebf326ec73d8ddef11841f876d8"]

def sampleHash : Hash := ofTable (
  List.zip (sampleLeaves.map leafInput) sampleNodes ++ [
    (nodeInput (digestOf (sampleNodes.getD 0 []), digestOf (sampleNodes.getD 1 [])), samplePair),
    (nodeInput (digestOf samplePair, digestOf (sampleNodes.getD 2 [])), sampleRoot)])

theorem sample_root : buildMerkleRoot sampleHash sampleLeaves = .ok (digestOf sampleRoot) := by
  rw [sampleHash, sampleNodes, samplePair, sampleRoot]
  repeat rw [lit_ofList]
  decide

theorem leaves_of_root_sample : ([[0x61], [0x62], [0x63]] : List (List UInt8)) = sampleLeaves := by
  refine leaves_of_root ?_ sample_root sample_root
  rw [sampleHash, sampleNodes, samplePair, sampleRoot]
  repeat rw [lit_ofList]
  decide +kernel

/-- The leaf that is promoted has a path as the others do. -/
theorem path_verifies_last : ∃ root path, buildMerkleRoot sampleHash sampleLeaves = .ok root ∧
    buildContributorMerklePath sampleHash sampleLeaves 2 = .ok path ∧
      verifyMerklePath sampleHash [0x63] (JsNumber.ofInt 2) path (hex root) = true :=
  path_verifies rfl (by decide)

/-- The path built for the last leaf is read with the index of the last leaf. -/
theorem verified_path_position_last :
    verifyMerklePath sampleHash [0x63] (JsNumber.ofInt 2) [PROMOTED_LEVEL, samplePair] sampleRoot = true ∧
      ∃ i, sampleLeaves[i]? = some ([0x63] : List UInt8) ∧ 2 = i := by
  have hdigest : hex (digestOf sampleRoot) = sampleRoot := by
    rw [sampleRoot, lit_ofList]
    decide
  have hroot : buildMerkleRoot sampleHash sampleLeaves = .ok (digestOf sampleRoot) := by
    rw [sampleHash, sampleNodes, samplePair, sampleRoot]
    repeat rw [lit_ofList]
    decide
  have hfree : CollisionFree sampleHash (rootInputs sampleHash sampleLeaves ++
      pathInputs sampleHash [0x63] (JsNumber.ofInt 2) [PROMOTED_LEVEL, samplePair]) := by
    rw [sampleHash, sampleNodes, samplePair, sampleRoot, PROMOTED_LEVEL]
    repeat rw [lit_ofList]
    decide +kernel
  have hverified : verifyMerklePath sampleHash [0x63] (JsNumber.ofInt 2) [PROMOTED_LEVEL, samplePair]
      (hex (digestOf sampleRoot)) = true := by
    rw [sampleHash, sampleNodes, samplePair, sampleRoot, PROMOTED_LEVEL]
    repeat rw [lit_ofList]
    decide +kernel
  obtain ⟨i, hleaf, -, hindex⟩ := verified_path_position (by decide) hfree hroot hverified
  have hi : i = 2 := by
    match i with
    | 0 => cases hleaf
    | 1 => cases hleaf
    | 2 => rfl
    | _ + 3 => cases hleaf
  rw [hdigest] at hverified
  refine ⟨hverified, i, hleaf, hindex 2 (by decide) rfl ?_⟩
  rw [hi, sampleHash, sampleNodes, samplePair, sampleRoot, PROMOTED_LEVEL]
  repeat rw [lit_ofList]
  decide

/-- Without the entry of the level it is promoted at, the last leaf is accepted under the index of another. -/
theorem last_leaf_at_other_index :
    sampleLeaves.Nodup ∧ buildMerkleRoot sampleHash sampleLeaves = .ok (digestOf sampleRoot) ∧
      CollisionFree sampleHash (rootInputs sampleHash sampleLeaves ++
        pathInputs sampleHash [0x63] (JsNumber.ofInt 1) [samplePair]) ∧
      verifyMerklePath sampleHash [0x63] (JsNumber.ofInt 1) [samplePair] (hex (digestOf sampleRoot)) = true ∧
      sampleLeaves[1]? ≠ some ([0x63] : List UInt8) := by
  rw [sampleHash, sampleNodes, samplePair, sampleRoot]
  repeat rw [lit_ofList]
  decide +kernel

end AgentPassport.SettlementMerkle
