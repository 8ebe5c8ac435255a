import AgentPassport.LegacyCanonical
import AgentPassport.ReceiptMerkle
import AgentPassport.JsArithmetic

/-! The receipt ledger (`core/receipt-ledger.ts`). A batch names its predecessor by id and Merkle
root; what the predecessor itself names is not in either, so an unchanged head fixes the number of
batches and the receipts of the last two, and an earlier batch as far as the roots named agree. -/
namespace AgentPassport.ReceiptLedger
open JsText Js LegacyCanonical Sha256 ReceiptMerkle Utf8 Outcome CanonicalInjective

/-- The text of a finite number, SHA-256, and Ed25519 as `verify` of `crypto/keys.ts`, none when it throws. -/
structure Runtime where
  numText : Double → Str
  sha256 : Hash
  verify : Str → Str → Str → Option Bool

structure ReceiptBatch where
  batchId : Str
  merkleRoot : Str
  receiptCount : JsNumber
  receiptHashes : List Str
  epoch : JsNumber
  previousBatchId : Option Str
  previousMerkleRoot : Option Str
  committedAt : Str
  committedBy : Str
  signature : Str

structure BatchVerification where
  valid : Bool
  errors : List Str
  signatureValid : Bool
  rootValid : Bool
  chainValid : Bool

structure BatchChainVerification where
  valid : Bool
  errors : List Str
  batchCount : Nat
  totalReceipts : JsNumber

/-- `string | null`. -/
def textOrNull : Option Str → JsValue
  | some s => .str s
  | none => .null

def signable (batch : ReceiptBatch) : JsValue := .obj [
  (lit "batchId", .str batch.batchId), (lit "merkleRoot", .str batch.merkleRoot),
  (lit "receiptCount", .num batch.receiptCount), (lit "epoch", .num batch.epoch),
  (lit "previousBatchId", textOrNull batch.previousBatchId),
  (lit "previousMerkleRoot", textOrNull batch.previousMerkleRoot),
  (lit "committedAt", .str batch.committedAt), (lit "committedBy", .str batch.committedBy)]

def nextEpoch (epoch : JsNumber) : JsNumber := epoch.add (.finite .one)

/-- `if (cond) errors.push(text)`. -/
def pushIf (cond : Bool) (text : Str) : List Str := if cond then [text] else []

section
variable (R : Runtime)

def Runtime.text : JsNumber → Str := JsNumber.text R.numText

/-- What the links of a batch get wrong; no predecessor is given as undefined, that there is none as null. -/
def chainErrors (batch : ReceiptBatch) : Option (Option ReceiptBatch) → List Str
  | some (some previousBatch) =>
    pushIf (batch.previousBatchId ≠ some previousBatch.batchId) (lit "Previous batch ID mismatch") ++
    pushIf (batch.previousMerkleRoot ≠ some previousBatch.merkleRoot) (lit "Previous Merkle root mismatch") ++
    pushIf (!batch.epoch.eq (nextEpoch previousBatch.epoch))
      (lit "Epoch not sequential: expected " ++ R.text (nextEpoch previousBatch.epoch) ++ lit ", got " ++
        R.text batch.epoch)
  | some none =>
    pushIf (batch.previousBatchId ≠ none) (lit "First batch should have null previousBatchId") ++
    pushIf (!batch.epoch.eq (zeroOf false)) (lit "First batch should have epoch 0")
  | none => []

def verifyBatch (batch : ReceiptBatch) (previousBatch : Option (Option ReceiptBatch)) :
    Except LegacyError BatchVerification := do
  let rootValid := decide (buildMerkleRoot R.sha256 batch.receiptHashes = batch.merkleRoot)
  let canonical := (← canonicalize R.numText (signable batch)).getD []
  let signatureValid := (R.verify canonical batch.signature batch.committedBy).getD false
  let chain := chainErrors R batch previousBatch
  let errors :=
    pushIf (!rootValid) (lit "Merkle root does not match receipt hashes") ++
    pushIf (!batch.receiptCount.eq (.ofInt batch.receiptHashes.length)) (lit "Receipt count mismatch") ++
    pushIf (!signatureValid) (lit "Invalid batch signature") ++ chain
  return {
    valid := errors.isEmpty
    errors
    signatureValid
    rootValid
    chainValid := chain.isEmpty }

/-- The loop over the batches from position `i`, after `previousBatch`. -/
def verifyFrom (i : Nat) (previousBatch : Option ReceiptBatch) :
    List ReceiptBatch → List Str → JsNumber → Except LegacyError (List Str × JsNumber)
  | [], errors, totalReceipts => return (errors, totalReceipts)
  | batch :: rest, errors, totalReceipts => do
    let result ← verifyBatch R batch (some previousBatch)
    let errors := errors ++ result.errors.map (fun err =>
      lit "Batch " ++ R.text (.ofInt i) ++ lit " (epoch " ++ R.text batch.epoch ++ lit "): " ++ err)
    verifyFrom (i + 1) (some batch) rest errors (totalReceipts.add batch.receiptCount)

def verifyBatchChain (batches : List ReceiptBatch) : Except LegacyError BatchChainVerification :=
  if batches = [] then return ⟨true, [], 0, zeroOf false⟩
  else do
    let (errors, totalReceipts) ← verifyFrom R 0 none batches [] (zeroOf false)
    return ⟨errors.isEmpty, errors, batches.length, totalReceipts⟩

/-- `verifyBatchChain(batches).valid`. -/
def Accepted (batches : List ReceiptBatch) : Prop :=
  ∃ result, verifyBatchChain R batches = .ok result ∧ result.valid = true

end
/-- What a batch says of its predecessor. -/
def Links (batch : ReceiptBatch) : Option ReceiptBatch → Prop
  | some previousBatch =>
    batch.previousBatchId = some previousBatch.batchId ∧
    batch.previousMerkleRoot = some previousBatch.merkleRoot ∧
    batch.epoch.eq (nextEpoch previousBatch.epoch) = true
  | none => batch.previousBatchId = none ∧ batch.epoch.eq (zeroOf false) = true

def Chained (R : Runtime) : Option ReceiptBatch → List ReceiptBatch → Prop
  | _, [] => True
  | previousBatch, batch :: rest =>
    buildMerkleRoot R.sha256 batch.receiptHashes = batch.merkleRoot ∧ Links batch previousBatch ∧
      Chained R (some batch) rest

theorem pushIf_eq_nil {cond : Bool} {text : Str} : pushIf cond text = [] ↔ cond = false := by
  cases cond <;> simp [pushIf]

section
variable {R : Runtime}

variable {batch : ReceiptBatch}

theorem links_of_chainErrors {previousBatch : Option ReceiptBatch} (h : chainErrors R batch (some previousBatch) = []) :
    Links batch previousBatch := by
  cases previousBatch with
  | none =>
    simp only [chainErrors, List.append_eq_nil_iff, pushIf_eq_nil, decide_eq_false_iff_not, not_not,
      Bool.not_eq_false'] at h
    exact h
  | some previousBatch =>
    simp only [chainErrors, List.append_eq_nil_iff, pushIf_eq_nil, decide_eq_false_iff_not, not_not,
      Bool.not_eq_false'] at h
    exact ⟨h.1.1, h.1.2, h.2⟩

theorem verifyBatch_sound {previousBatch : Option ReceiptBatch} {result : BatchVerification}
    (h : verifyBatch R batch (some previousBatch) = .ok result) (herrors : result.errors = []) :
    buildMerkleRoot R.sha256 batch.receiptHashes = batch.merkleRoot ∧ Links batch previousBatch := by
  obtain ⟨canonical, -, hresult⟩ := bind_eq_ok.mp h
  cases hresult
  simp only [List.append_eq_nil_iff, pushIf_eq_nil, Bool.not_eq_false', decide_eq_true_eq] at herrors
  obtain ⟨⟨⟨hroot, -⟩, -⟩, hchain⟩ := herrors
  exact ⟨hroot, links_of_chainErrors hchain⟩

theorem verifyFrom_sound {i : Nat} {previousBatch : Option ReceiptBatch} {batches : List ReceiptBatch}
    {errors : List Str} {totalReceipts total : JsNumber}
    (h : verifyFrom R i previousBatch batches errors totalReceipts = .ok ([], total)) :
    errors = [] ∧ Chained R previousBatch batches := by
  induction batches generalizing i previousBatch errors totalReceipts with
  | nil =>
    cases h
    exact ⟨rfl, trivial⟩
  | cons batch rest ih =>
    obtain ⟨result, hresult, hrest⟩ := bind_eq_ok.mp h
    obtain ⟨herrors, hchained⟩ := ih hrest
    obtain ⟨hbefore, hhere⟩ := List.append_eq_nil_iff.mp herrors
    obtain ⟨hroot, hlinks⟩ := verifyBatch_sound hresult (List.map_eq_nil_iff.mp hhere)
    exact ⟨hbefore, hroot, hlinks, hchained⟩

theorem chained_of_accepted {batches : List ReceiptBatch} (h : Accepted R batches) : Chained R none batches := by
  obtain ⟨result, hresult, hvalid⟩ := h
  rw [verifyBatchChain] at hresult
  split at hresult
  · rename_i hnil
    rw [hnil]
    trivial
  · obtain ⟨⟨errors, total⟩, hfrom, hok⟩ := bind_eq_ok.mp hresult
    cases hok
    have hnil : errors = [] := List.isEmpty_iff.mp hvalid
    subst hnil
    exact (verifyFrom_sound hfrom).2

variable {batches : List ReceiptBatch} {previousBatch : Option ReceiptBatch}

theorem Chained.root (h : Chained R previousBatch batches) : ∀ batch ∈ batches,
    buildMerkleRoot R.sha256 batch.receiptHashes = batch.merkleRoot := by
  induction batches generalizing previousBatch with
  | nil => exact fun batch hbatch => absurd hbatch List.not_mem_nil
  | cons batch rest ih => exact List.forall_mem_cons.mpr ⟨h.1, ih h.2.2⟩

theorem Chained.links {i : Nat} {a b : ReceiptBatch} (h : Chained R previousBatch batches)
    (ha : batches[i]? = some a) (hb : batches[i + 1]? = some b) : Links b (some a) := by
  induction batches generalizing previousBatch i with
  | nil => cases ha
  | cons batch rest ih =>
    cases i with
    | zero =>
      cases ha
      cases rest with
      | nil => cases hb
      | cons next rest =>
        cases hb
        exact h.2.2.2.1
    | succ i => exact ih h.2.2 ha hb

theorem epoch_at {i : Nat} (h : Chained R none batches) (hi : batches[i]? = some batch) (hlt : i < 2 ^ 53) :
    batch.epoch.IsNat i := by
  induction i generalizing batch with
  | zero =>
    cases batches with
    | nil => cases hi
    | cons first rest =>
      cases hi
      exact .of_eq h.2.1.2 isNat_zero
  | succ i ih =>
    obtain ⟨hbound, -⟩ := List.getElem?_eq_some_iff.mp hi
    have hprev : batches[i]? = some (batches.get ⟨i, Nat.lt_of_succ_lt hbound⟩) := List.getElem?_eq_getElem _
    exact .of_eq (h.links hprev hi).2.2 ((ih hprev (Nat.lt_of_succ_lt hlt)).succ hlt)

end

def batchInputs (R : Runtime) (batches : List ReceiptBatch) : List (List UInt8) :=
  batches.flatMap (fun batch => rootInputs R.sha256 batch.receiptHashes)

def PlainReceipts (batches : List ReceiptBatch) : Prop :=
  ∀ batch ∈ batches, ∀ leaf ∈ batch.receiptHashes, Plain leaf

section
variable {R : Runtime} {batches batches' : List ReceiptBatch} {head : ReceiptBatch}

theorem length_eq_of_head (h : Chained R none batches) (h' : Chained R none batches')
    (hlast : batches.getLast? = some head) (hlast' : batches'.getLast? = some head)
    (hlength : batches.length < 2 ^ 32) (hlength' : batches'.length < 2 ^ 32) : batches.length = batches'.length := by
  rw [List.getLast?_eq_getElem?] at hlast hlast'
  have hepoch := epoch_at h hlast (by omega)
  have hepoch' := epoch_at h' hlast' (by omega)
  have hindex := hepoch.unique hepoch'
  obtain ⟨hbound, -⟩ := List.getElem?_eq_some_iff.mp hlast
  obtain ⟨hbound', -⟩ := List.getElem?_eq_some_iff.mp hlast'
  omega

theorem receipts_iff_root (h : Chained R none batches) (h' : Chained R none batches') {a b : ReceiptBatch}
    (ha : a ∈ batches) (hb : b ∈ batches') (hplain : PlainReceipts batches) (hplain' : PlainReceipts batches')
    (hfree : CollisionFree R.sha256 (batchInputs R batches ++ batchInputs R batches')) :
    a.receiptHashes.Perm b.receiptHashes ↔ a.merkleRoot = b.merkleRoot := by
  rw [← h.root a ha, ← h'.root b hb]
  constructor
  · exact buildMerkleRoot_perm
  · refine perm_of_root (hplain a ha) (hplain' b hb) (hfree.mono ?_)
    intro x hx
    obtain hx | hx := List.mem_append.mp hx
    · exact List.mem_append_left _ (List.mem_flatMap.mpr ⟨a, ha, hx⟩)
    · exact List.mem_append_right _ (List.mem_flatMap.mpr ⟨b, hb, hx⟩)

theorem receipts_iff_named (h : Chained R none batches) (h' : Chained R none batches') {i : Nat}
    {a b next next' : ReceiptBatch} (ha : batches[i]? = some a) (hb : batches'[i]? = some b)
    (hnext : batches[i + 1]? = some next) (hnext' : batches'[i + 1]? = some next')
    (hplain : PlainReceipts batches) (hplain' : PlainReceipts batches')
    (hfree : CollisionFree R.sha256 (batchInputs R batches ++ batchInputs R batches')) :
    a.receiptHashes.Perm b.receiptHashes ↔ next.previousMerkleRoot = next'.previousMerkleRoot := by
  rw [receipts_iff_root h h' (List.mem_of_getElem? ha) (List.mem_of_getElem? hb) hplain hplain' hfree,
    (h.links ha hnext).2.1, (h'.links hb hnext').2.1, Option.some.injEq]

/-- The head fixes the length, and the receipts of the last two batches. -/
theorem head_commits (h : Accepted R batches) (h' : Accepted R batches')
    (hlast : batches.getLast? = some head) (hlast' : batches'.getLast? = some head)
    (hlength : batches.length < 2 ^ 32) (hlength' : batches'.length < 2 ^ 32)
    (hplain : PlainReceipts batches) (hplain' : PlainReceipts batches')
    (hfree : CollisionFree R.sha256 (batchInputs R batches ++ batchInputs R batches')) :
    batches.length = batches'.length ∧
    (∀ (i : Nat) (a b : ReceiptBatch), batches[i]? = some a → batches'[i]? = some b → batches.length ≤ i + 2 →
      a.receiptHashes.Perm b.receiptHashes) ∧
    ∀ (i : Nat) (a b next next' : ReceiptBatch), batches[i]? = some a → batches'[i]? = some b →
      batches[i + 1]? = some next → batches'[i + 1]? = some next' →
      (a.receiptHashes.Perm b.receiptHashes ↔ next.previousMerkleRoot = next'.previousMerkleRoot) := by
  have hchained := chained_of_accepted h
  have hchained' := chained_of_accepted h'
  have hsame := length_eq_of_head hchained hchained' hlast hlast' hlength hlength'
  refine ⟨hsame, ?_, ?_⟩
  · intro i a b ha hb hi
    rw [List.getLast?_eq_getElem?] at hlast hlast'
    obtain ⟨hbound, -⟩ := List.getElem?_eq_some_iff.mp ha
    obtain hend | hbefore : i = batches.length - 1 ∨ i + 1 = batches.length - 1 := by omega
    · rw [← hend, ha] at hlast
      rw [← hsame, ← hend, hb] at hlast'
      rw [Option.some.inj hlast, Option.some.inj hlast']
    · rw [← hbefore] at hlast
      rw [← hsame, ← hbefore] at hlast'
      exact (receipts_iff_named hchained hchained' ha hb hlast hlast' hplain hplain' hfree).mpr rfl
  · intro i a b next next' ha hb hnext hnext'
    exact receipts_iff_named hchained hchained' ha hb hnext hnext' hplain hplain' hfree

end

/-! Two accepted chains with one head: the second was made by another key, from other receipts. -/

def committerKey : Str := lit "8a88e3dd7409f195fd52db2d3cba5d72ca6709bf1d94121bf3748801b40f6f5c"

def otherKey : Str := lit "8139770ea87d175f56a35466c34c7ecccb8d8a91b4ee37a25df60f5b8fc9b394"

def paidReceipt : Str := lit "56b7f24a47f84eba21c50244f2880110547eea5bc55ca5f0b4cd57f2936e482f"

def unpaidReceipt : Str := lit "b3c3b4d76d605dddae4bf102527775d3848de3f895d5d4bd657f5832b1ad1d59"

def middleReceipt : Str := lit "1623126585a29ed7e9f756979339fe046226759931a22138be37316b76c6a36c"

def headReceipt : Str := lit "2715b4050047a3952dc20e6d59e66768f763acac60c928509b0219333f2e634e"

def paidRoot : Str := lit "51229cac35f3e927b8f8071a1cfef51de4a356237b44e8448fe90ba7deceba3a"

def unpaidRoot : Str := lit "f78d8276d253f65e19e6f33c331fc4c2d9e429d7085c1a52b7a2547a3aaa31d1"

def middleRoot : Str := lit "fa4c2ad43d79dd6601c919f88750e817ddea7fcdcce82300623bd3019b53fdc4"

def headRoot : Str := lit "c3866a6536a7681f002e805d2b92e00595e38f3197e3641f49f7bf830ea0c732"

def sampleBatch (batchId receipt root : Str) (epoch : Nat) (previous : Option (Str × Str)) (committedAt : String)
    (committedBy signature : Str) : ReceiptBatch where
  batchId
  merkleRoot := root
  receiptCount := .ofInt (1 : Nat)
  receiptHashes := [receipt]
  epoch := .ofInt epoch
  previousBatchId := previous.map Prod.fst
  previousMerkleRoot := previous.map Prod.snd
  committedAt := lit committedAt
  committedBy
  signature

def paidBatch : ReceiptBatch := sampleBatch (lit "b0") paidReceipt paidRoot 0 none
  "2026-01-01T00:00:00.000Z" committerKey
  (lit "caad38d76f0586010f2a94b6956b06cacd6496ecfde0f84b28d9d2262879a811" ++
    lit "fb20d562421c7c66567ea20dfd00945b11a9a5a0cc524bacbdce35662cfbad03")

def paidNext : ReceiptBatch := sampleBatch (lit "b1") middleReceipt middleRoot 1 (some (lit "b0", paidRoot))
  "2026-01-02T00:00:00.000Z" committerKey
  (lit "141ca51e6e164b60ea946435b3c4fc61ff3b40b00096af1c8793b0d831c1a4ef" ++
    lit "7850f1d1e3c96a7b235829ff25541dba4f311be4fbaa8033ce62e7260684e008")

def headBatch : ReceiptBatch := sampleBatch (lit "b2") headReceipt headRoot 2 (some (lit "b1", middleRoot))
  "2026-01-03T00:00:00.000Z" committerKey
  (lit "820a3e40daf343e625254d74f4b9c65de6c738246431c6b959bb4b92477c9664" ++
    lit "2cc3fcecdcba2ccde0eb9d40f95a78f8aa4aa3843bfb9af9d058dfe25cfdb104")

def unpaidBatch : ReceiptBatch := sampleBatch (lit "b0") unpaidReceipt unpaidRoot 0 none
  "2026-01-01T00:00:00.000Z" otherKey
  (lit "46c5bc0b6fc6cee31bd3b2b0c3d73b677ac58c4a32f3785731f989f6a0fd1e9a" ++
    lit "3113c8e358354f19fd778453bdfce9c7ba0fc94fb604a2fe698de3f099b5ab07")

def unpaidNext : ReceiptBatch := sampleBatch (lit "b1") middleReceipt middleRoot 1 (some (lit "b0", unpaidRoot))
  "2026-01-02T00:00:00.000Z" otherKey
  (lit "5a7c839c02fb6d0247d866f822cf6b168d5ae8f89de161db063a37b7c1e8082b" ++
    lit "31943db0f3358a33276f5fbd05db6b6569986b1ca596b8e15dacd5421c9a730f")

def sampleTexts : List Str := [
  lit "\x7b\"batchId\":\"b0\",\"committedAt\":\"2026-01-01T00:00:00.000Z\",\"committedBy\":\"8a88e3" ++
    lit "dd7409f195fd52db2d3cba5d72ca6709bf1d94121bf3748801b40f6f5c\",\"epoch\":0,\"merkleRoot\":\"51" ++
    lit "229cac35f3e927b8f8071a1cfef51de4a356237b44e8448fe90ba7deceba3a\",\"receiptCount\":1\x7d",
  lit "\x7b\"batchId\":\"b1\",\"committedAt\":\"2026-01-02T00:00:00.000Z\",\"committedBy\":\"8a88e3" ++
    lit "dd7409f195fd52db2d3cba5d72ca6709bf1d94121bf3748801b40f6f5c\",\"epoch\":1,\"merkleRoot\":\"fa" ++
    lit "4c2ad43d79dd6601c919f88750e817ddea7fcdcce82300623bd3019b53fdc4\",\"previousBatchId\":\"b0\"," ++
    lit "\"previousMerkleRoot\":\"51229cac35f3e927b8f8071a1cfef51de4a356237b44e8448fe90ba7deceba3a\"," ++
    lit "\"receiptCount\":1\x7d",
  lit "\x7b\"batchId\":\"b2\",\"committedAt\":\"2026-01-03T00:00:00.000Z\",\"committedBy\":\"8a88e3" ++
    lit "dd7409f195fd52db2d3cba5d72ca6709bf1d94121bf3748801b40f6f5c\",\"epoch\":2,\"merkleRoot\":\"c3" ++
    lit "866a6536a7681f002e805d2b92e00595e38f3197e3641f49f7bf830ea0c732\",\"previousBatchId\":\"b1\"," ++
    lit "\"previousMerkleRoot\":\"fa4c2ad43d79dd6601c919f88750e817ddea7fcdcce82300623bd3019b53fdc4\"," ++
    lit "\"receiptCount\":1\x7d",
  lit "\x7b\"batchId\":\"b0\",\"committedAt\":\"2026-01-01T00:00:00.000Z\",\"committedBy\":\"813977" ++
    lit "0ea87d175f56a35466c34c7ecccb8d8a91b4ee37a25df60f5b8fc9b394\",\"epoch\":0,\"merkleRoot\":\"f7" ++
    lit "8d8276d253f65e19e6f33c331fc4c2d9e429d7085c1a52b7a2547a3aaa31d1\",\"receiptCount\":1\x7d",
  lit "\x7b\"batchId\":\"b1\",\"committedAt\":\"2026-01-02T00:00:00.000Z\",\"committedBy\":\"813977" ++
    lit "0ea87d175f56a35466c34c7ecccb8d8a91b4ee37a25df60f5b8fc9b394\",\"epoch\":1,\"merkleRoot\":\"fa" ++
    lit "4c2ad43d79dd6601c919f88750e817ddea7fcdcce82300623bd3019b53fdc4\",\"previousBatchId\":\"b0\"," ++
    lit "\"previousMerkleRoot\":\"f78d8276d253f65e19e6f33c331fc4c2d9e429d7085c1a52b7a2547a3aaa31d1\"," ++
    lit "\"receiptCount\":1\x7d"]

def sampleBatches : List ReceiptBatch := [paidBatch, paidNext, headBatch, unpaidBatch, unpaidNext]

/-- A signature counts when it stands on one of the batches, over the text and under the key it has there. -/
def sampleRuntime : Runtime where
  numText := integerText
  sha256 := ofTable [
    (utf8 (leafText paidReceipt), paidRoot), (utf8 (leafText unpaidReceipt), unpaidRoot),
    (utf8 (leafText middleReceipt), middleRoot), (utf8 (leafText headReceipt), headRoot)]
  verify message signature key := some ((sampleTexts.zip sampleBatches).any (fun row =>
    row.1 = message && row.2.signature = signature && row.2.committedBy = key))

theorem paid_accepted : Accepted sampleRuntime [paidBatch, paidNext, headBatch] := by
  apply exists_ok_of_map
  rw [sampleRuntime, sampleTexts, sampleBatches, paidBatch, paidNext, headBatch, unpaidBatch, unpaidNext,
    paidReceipt, unpaidReceipt, middleReceipt, headReceipt, committerKey]
  repeat rw [lit_ofList]
  decide +kernel

theorem unpaid_accepted : Accepted sampleRuntime [unpaidBatch, unpaidNext, headBatch] := by
  apply exists_ok_of_map
  rw [sampleRuntime, sampleTexts, sampleBatches, paidBatch, paidNext, headBatch, unpaidBatch, unpaidNext,
    paidReceipt, unpaidReceipt, middleReceipt, headReceipt, otherKey]
  repeat rw [lit_ofList]
  decide +kernel

theorem plainReceipts_of_all {batches : List ReceiptBatch}
    (h : batches.all (fun batch => batch.receiptHashes.all (fun leaf => leaf.all (fun c => decide (c.toNat < 0x80)))) =
      true) : PlainReceipts batches := by
  intro batch hbatch leaf hleaf
  exact forall_of_all (List.all_eq_true.mp (List.all_eq_true.mp h batch hbatch) leaf hleaf)

theorem sample_collisionFree : CollisionFree sampleRuntime.sha256
    (batchInputs sampleRuntime [paidBatch, paidNext, headBatch] ++
      batchInputs sampleRuntime [unpaidBatch, unpaidNext, headBatch]) := by
  have hdistinct : CollisionFree sampleRuntime.sha256 (batchInputs sampleRuntime
      [paidBatch, paidNext, headBatch, unpaidBatch]) := .of_nodup (by decide)
  apply hdistinct.mono
  decide

/-- The last two batches agree in their receipts. -/
theorem head_commits_paid : paidNext.receiptHashes.Perm unpaidNext.receiptHashes := by
  have hcommits := @head_commits sampleRuntime _ _ headBatch paid_accepted unpaid_accepted rfl rfl (by decide) (by decide)
    (plainReceipts_of_all (by decide)) (plainReceipts_of_all (by decide)) sample_collisionFree
  exact hcommits.2.1 1 paidNext unpaidNext rfl rfl (by decide)

/-- Another history under the same head: its first batch holds other receipts. -/
theorem head_leaves_history_open :
    ¬ ∀ (R : Runtime) (batches batches' : List ReceiptBatch) (head : ReceiptBatch),
      Accepted R batches → Accepted R batches' → batches.getLast? = some head → batches'.getLast? = some head →
      PlainReceipts batches → PlainReceipts batches' →
      CollisionFree R.sha256 (batchInputs R batches ++ batchInputs R batches') →
      batches.length = batches'.length ∧
        ∀ (i : Nat) (a b : ReceiptBatch), batches[i]? = some a → batches'[i]? = some b →
          a.receiptHashes.Perm b.receiptHashes := by
  intro h
  obtain ⟨-, hreceipts⟩ := h sampleRuntime _ _ headBatch paid_accepted unpaid_accepted rfl rfl
    (plainReceipts_of_all (by decide)) (plainReceipts_of_all (by decide)) sample_collisionFree
  have hperm := hreceipts 0 paidBatch unpaidBatch rfl rfl
  have hmem : paidReceipt ∈ unpaidBatch.receiptHashes := hperm.mem_iff.mp List.mem_cons_self
  exact absurd (List.mem_singleton.mp hmem) (by decide)

end AgentPassport.ReceiptLedger
