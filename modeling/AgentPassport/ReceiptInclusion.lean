import AgentPassport.ReceiptLedger

/-! Inclusion proofs for the receipts of a batch (`core/receipt-ledger.ts`). The verifier takes an empty
path for the answer that there is no proof; a batch of one receipt has no other path. -/
namespace AgentPassport.ReceiptInclusion
open JsText Sha256 PromotedTree ReceiptMerkle ReceiptLedger
open DelegationSchema (sortNames sortNames_perm)

structure ReceiptInclusionProof where
  batchId : Str
  merkleRoot : Str
  receiptHash : Str
  proof : List MerkleProofNode
  leafIndex : Int
  verified : Bool
  deriving DecidableEq

section
variable (sha256 : Hash)

def proveInclusion (batch : ReceiptBatch) (receiptHash : Str) : ReceiptInclusionProof :=
  match generateMerkleProof sha256 batch.receiptHashes receiptHash with
  | none => ⟨batch.batchId, batch.merkleRoot, receiptHash, [], -1, false⟩
  | some merkleProof =>
    ⟨batch.batchId, batch.merkleRoot, receiptHash, merkleProof.proof, merkleProof.index,
      verifyMerkleProof sha256 merkleProof⟩

def verifyInclusion (proof : ReceiptInclusionProof) : Bool :=
  if proof.leafIndex = -1 ∨ proof.proof.length = 0 then false
  else verifyMerkleProof sha256 ⟨proof.receiptHash, proof.merkleRoot, proof.proof, proof.leafIndex.toNat⟩

/-- Every receipt of the batch can be proved, and nothing else. -/
def Provable (batch : ReceiptBatch) : Prop :=
  (∀ h ∈ batch.receiptHashes, verifyInclusion sha256 (proveInclusion sha256 batch h) = true) ∧
    ∀ h, h ∉ batch.receiptHashes → verifyInclusion sha256 (proveInclusion sha256 batch h) = false

end

section
variable {N : Type*} {join : N → N → N}

/-- In a level of more than one node only an odd last node has no sibling, and then the level above has
more than one node too. -/
theorem siblings_ne_nil {n i : Nat} {level : List N} (hi : i < level.length) (hlevel : 1 < level.length)
    (hn : level.length ≤ n + 1) : (siblings join n level i).filterMap id ≠ [] := by
  induction n generalizing level i with
  | zero => omega
  | succ n ih =>
    rw [siblings, if_pos hlevel, List.filterMap_cons]
    cases hsibling : sibling level i with
    | some s => exact List.cons_ne_nil _ _
    | none =>
      have hlength := up_length join level
      have hlast : i % 2 = 0 ∧ level.length ≤ i + 1 := by
        rw [sibling] at hsibling
        split at hsibling
        · rw [Option.map_eq_none_iff, List.getElem?_eq_none_iff] at hsibling
          omega
        · rw [Option.map_eq_none_iff, List.getElem?_eq_none_iff] at hsibling
          omega
      exact ih (by omega) (by omega) (by omega)

theorem siblings_single (n i : Nat) (x : N) : siblings join n [x] i = [] := by
  cases n with
  | zero => rfl
  | succ n => rfl

end

section
variable {sha256 : Hash} {batch : ReceiptBatch} {h : Str}

theorem path_length {leafHashes : List Str} {proof : MerkleProof}
    (hproof : generateMerkleProof sha256 leafHashes h = some proof) :
    proof.proof.length = 0 ↔ leafHashes.length = 1 := by
  have hlength : (sortNames leafHashes).length = leafHashes.length := (sortNames_perm leafHashes).length_eq
  rw [generateMerkleProof] at hproof
  split at hproof
  · cases hproof
  · rename_i hne
    dsimp only at hproof
    split at hproof
    · cases hproof
    · rename_i i hi
      cases hproof
      obtain ⟨hlt, -, -⟩ := List.idxOf?_eq_some_iff.mp hi
      have hpos := List.length_pos_iff.mpr hne
      rw [List.length_map, List.length_eq_zero_iff]
      constructor
      · intro hnil
        by_contra hmany
        refine siblings_ne_nil ?_ ?_ ?_ hnil
        · rwa [List.length_map]
        · rw [List.length_map, hlength]
          omega
        · rw [List.length_map, hlength]
          omega
      · intro hone
        obtain ⟨x, hx⟩ := List.length_eq_one_iff.mp (hlength.trans hone)
        rw [hx, List.map_singleton, siblings_single]
        rfl

theorem no_proof (hmem : h ∉ batch.receiptHashes) : generateMerkleProof sha256 batch.receiptHashes h = none := by
  rw [generateMerkleProof]
  split
  · rfl
  · have hsorted : h ∉ sortNames batch.receiptHashes := fun hin => hmem ((sortNames_perm _).mem_iff.mp hin)
    dsimp only
    rw [List.idxOf?_eq_none_iff.mpr hsorted]

theorem foreign_not_included (hmem : h ∉ batch.receiptHashes) :
    verifyInclusion sha256 (proveInclusion sha256 batch h) = false := by
  rw [proveInclusion, no_proof hmem, verifyInclusion, if_pos (.inl rfl)]

theorem proved_verified (hmem : h ∈ batch.receiptHashes) : (proveInclusion sha256 batch h).verified = true := by
  obtain ⟨proof, hproof, -, -, hverifies⟩ := @proof_of_mem sha256 _ _ hmem
  rw [proveInclusion, hproof]
  exact hverifies

theorem member_included_iff (hroot : batch.merkleRoot = buildMerkleRoot sha256 batch.receiptHashes)
    (hmem : h ∈ batch.receiptHashes) :
    verifyInclusion sha256 (proveInclusion sha256 batch h) = true ↔ batch.receiptHashes.length ≠ 1 := by
  obtain ⟨proof, hproof, hreceipt, hproofRoot, hverifies⟩ := @proof_of_mem sha256 _ _ hmem
  have hpath := path_length hproof
  have hindex : (proof.index : Int) ≠ -1 := by omega
  have hsame : verifyMerkleProof sha256 ⟨h, batch.merkleRoot, proof.proof, proof.index⟩ = true := by
    rw [← hreceipt, hroot, ← hproofRoot]
    exact hverifies
  rw [proveInclusion, hproof, verifyInclusion]
  dsimp only
  constructor
  · intro hincluded hone
    rw [if_pos (.inr (hpath.mpr hone))] at hincluded
    cases hincluded
  · intro hmany
    rw [if_neg, Int.toNat_natCast]
    · exact hsame
    · intro hexit
      obtain hminus | hempty := hexit
      · exact hindex hminus
      · exact hmany (hpath.mp hempty)

end

/-- A batch whose root is that of its receipts has all of them proved, and nothing else, unless it is a
batch of one receipt. -/
theorem committed_provable_iff (sha256 : Hash) (batch : ReceiptBatch)
    (hroot : batch.merkleRoot = buildMerkleRoot sha256 batch.receiptHashes) :
    Provable sha256 batch ↔ batch.receiptHashes.length ≠ 1 := by
  constructor
  · intro hprovable hone
    obtain ⟨h, hh⟩ := List.length_eq_one_iff.mp hone
    have hmem : h ∈ batch.receiptHashes := by
      rw [hh]
      exact List.mem_singleton_self h
    exact (member_included_iff hroot hmem).mp (hprovable.1 h hmem) hone
  · intro hmany
    exact ⟨fun h hmem => (member_included_iff hroot hmem).mpr hmany, fun h hmem => foreign_not_included hmem⟩

section Sample

def threeBatch : ReceiptBatch := { paidBatch with
  merkleRoot := sampleRoot
  receiptCount := .ofInt (3 : Nat)
  receiptHashes := sampleReceipts }

theorem committed_provable_three : Provable sampleHash threeBatch :=
  (committed_provable_iff sampleHash threeBatch sampleReceipts_root.symm).mpr (by decide)

theorem paidBatch_root : buildMerkleRoot sampleRuntime.sha256 [paidReceipt] = paidRoot := by
  rw [buildMerkleRoot, if_neg (List.cons_ne_nil _ _)]
  decide

/-- The proof of the only receipt of a batch is refused, though it says of itself that it is verified. -/
theorem single_receipt_refused :
    (proveInclusion sampleRuntime.sha256 paidBatch paidReceipt).verified = true ∧
    ¬ ∀ (sha256 : Hash) (batch : ReceiptBatch), batch.merkleRoot = buildMerkleRoot sha256 batch.receiptHashes →
      Provable sha256 batch := by
  have hmem : paidReceipt ∈ paidBatch.receiptHashes := List.mem_cons_self
  refine ⟨proved_verified hmem, ?_⟩
  intro h
  have hprovable := h sampleRuntime.sha256 paidBatch paidBatch_root.symm
  exact (member_included_iff paidBatch_root.symm hmem).mp (hprovable.1 paidReceipt hmem) rfl

end Sample

end AgentPassport.ReceiptInclusion
