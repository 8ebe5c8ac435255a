import AgentPassport.CanonicalBytes
import AgentPassport.ContextProvenance

/-! The commitment of a context-provenance attestation: what is built passes the verifier's
recomputation, an inclusion proof that is accepted leads to a leaf of the partition, and a root
over all entries determines their preimages. -/
namespace AgentPassport.ContextCommitment
open JsText Js ByteBlocks Sha256 Utf8 CanonicalJcs CanonicalInjective CanonicalWrite CanonicalBytes
open PromotedTree Outcome ContextProvenance
open Multibase (hexToBytes hexToBytes_bytesToHex)

section
variable {P : Platform}

theorem duplicateCtxId_none {l : List ContextItem} (h : duplicateCtxId l = none) :
    l.IsChain (fun a b => b.ctx_id ≠ a.ctx_id) := by
  fun_induction duplicateCtxId l with
  | case1 a b rest heq => cases h
  | case2 a b rest hne ih => exact List.isChain_cons_cons.mpr ⟨hne, ih h⟩
  | case3 l hl =>
    match l with
    | [] => exact List.isChain_nil
    | [a] => exact List.isChain_singleton a
    | a :: b :: rest => exact absurd rfl (hl a b rest)

theorem sortByCtxId_perm (leaves : List ContextItem) : (sortByCtxId leaves).Perm leaves :=
  List.perm_insertionSort _ leaves

theorem ids_nodup {sorted : List ContextItem} (hsorted : sorted.Pairwise (fun a b => a.ctx_id ≤ b.ctx_id))
    (hchain : sorted.IsChain (fun a b => b.ctx_id ≠ a.ctx_id)) : (sorted.map (·.ctx_id)).Nodup := by
  induction sorted with
  | nil => exact List.nodup_nil
  | cons a rest ih =>
    obtain ⟨ha, hrest⟩ := List.pairwise_cons.mp hsorted
    refine List.nodup_cons.mpr ⟨?_, ih hrest (List.isChain_of_isChain_cons hchain)⟩
    intro hmem
    obtain ⟨c, hc, hid⟩ := List.mem_map.mp hmem
    cases rest with
    | nil => cases hc
    | cons b rest =>
      -- between two equal ids every id is the same, the neighbour's too
      have hba : b.ctx_id ≤ a.ctx_id := by
        have hid : c.ctx_id = a.ctx_id := hid
        rw [← hid]
        cases hc with
        | head => exact List.le_refl _
        | tail _ hc => exact (List.pairwise_cons.mp hrest).1 c hc
      have hab := ha b List.mem_cons_self
      exact (List.isChain_cons_cons.mp hchain).1 (List.le_antisymm hba hab)

theorem sortByCtxId_pairwise (leaves : List ContextItem) :
    (sortByCtxId leaves).Pairwise (fun a b => a.ctx_id ≤ b.ctx_id) := by
  have htotal : Std.Total (fun a b : ContextItem => a.ctx_id ≤ b.ctx_id) := ⟨fun a b => List.le_total _ _⟩
  have htrans : IsTrans ContextItem (fun a b => a.ctx_id ≤ b.ctx_id) := ⟨fun a b c => List.le_trans⟩
  exact List.pairwise_insertionSort _ leaves

/-- What sorting the leaves of a partition gives. -/
structure Ordered (leaves sorted : List ContextItem) : Prop where
  nonempty : leaves ≠ []
  perm : sorted.Perm leaves
  nodup : (sorted.map (·.ctx_id)).Nodup
  eq : sorted = sortByCtxId leaves

theorem ordered_of_ok {e : CpaError} {leaves sorted : List ContextItem} (h : sortedLeaves e leaves = .ok sorted) :
    Ordered leaves sorted := by
  rw [sortedLeaves] at h
  split at h
  · cases h
  · rename_i hne
    split at h
    · cases h
    · rename_i hnone
      cases h
      exact ⟨hne, sortByCtxId_perm leaves, ids_nodup (sortByCtxId_pairwise leaves) (duplicateCtxId_none hnone), rfl⟩

theorem duplicateCtxId_of_nodup {l : List ContextItem} (h : (l.map (·.ctx_id)).Nodup) : duplicateCtxId l = none := by
  fun_induction duplicateCtxId l with
  | case1 a b rest heq =>
    rw [List.map_cons, List.map_cons, heq] at h
    exact absurd List.mem_cons_self (List.nodup_cons.mp h).1
  | case2 a b rest hne ih => exact ih (List.nodup_cons.mp h).2
  | case3 => rfl

theorem sortedLeaves_ok (e : CpaError) {leaves : List ContextItem} (hne : leaves ≠ [])
    (hnodup : (leaves.map (·.ctx_id)).Nodup) : sortedLeaves e leaves = .ok (sortByCtxId leaves) := by
  have hsorted : ((sortByCtxId leaves).map (·.ctx_id)).Nodup :=
    ((sortByCtxId_perm leaves).map _).nodup_iff.mpr hnodup
  rw [sortedLeaves, if_neg hne, duplicateCtxId_of_nodup hsorted]
  rfl

variable (P) in
def textBytes (leaf : ContextItem) : List UInt8 :=
  match canonicalizeJCS P.numText (leafPreimage leaf) with
  | .ok text => utf8 text
  | .error _ => []

variable (P) in
def leafNode (textBytes : List UInt8) : Block 32 := P.sha256 (leafInput textBytes)

variable {leaf : ContextItem}

theorem leafHash_ok {digest : Block 32} (h : leafHash P leaf = .ok digest) :
    ∃ text, canonicalizeJCS P.numText (leafPreimage leaf) = .ok text ∧ textBytes P leaf = utf8 text ∧
      digest = leafNode P (textBytes P leaf) := by
  rw [leafHash] at h
  cases htext : canonicalizeJCS P.numText (leafPreimage leaf) with
  | error e =>
    rw [htext] at h
    cases h
  | ok text =>
    rw [htext] at h
    cases h
    have hbytes : textBytes P leaf = utf8 text := by rw [textBytes, htext]
    exact ⟨text, rfl, hbytes, by rw [leafNode, hbytes]⟩

theorem leafHash_of_write {digest : Block 32} (h : leafHashForWrite P leaf = .ok digest) :
    leafHash P leaf = .ok digest := by
  rw [leafHashForWrite] at h
  cases htext : canonicalizeJCSForWrite P.numText (leafPreimage leaf) with
  | error e =>
    rw [htext] at h
    cases h
  | ok text =>
    rw [htext] at h
    rw [leafHash, canonicalizeJCS_of_write htext]
    exact h

variable {items : List ContextItem}

variable {digests : List (Block 32)}

theorem digestAll_mono {f g : ContextItem → Except CpaError (Block 32)} (hfg : ∀ x d, f x = .ok d → g x = .ok d)
    (h : digestAll f items = .ok digests) : digestAll g items = .ok digests := by
  induction items generalizing digests with
  | nil => exact h
  | cons x rest ih =>
    rw [digestAll] at h ⊢
    obtain ⟨d, hd, h⟩ := bind_eq_ok.mp h
    obtain ⟨ds, hds, h⟩ := bind_eq_ok.mp h
    exact bind_eq_ok.mpr ⟨d, hfg x d hd, bind_eq_ok.mpr ⟨ds, ih hds, h⟩⟩

theorem digestAll_leaves (h : digestAll (leafHash P) items = .ok digests) :
    digests = (items.map (textBytes P)).map (leafNode P) ∧ ∀ x ∈ items, ∃ d, leafHash P x = .ok d := by
  induction items generalizing digests with
  | nil =>
    cases h
    exact ⟨rfl, fun x hx => absurd hx List.not_mem_nil⟩
  | cons x rest ih =>
    rw [digestAll] at h
    obtain ⟨d, hd, h⟩ := bind_eq_ok.mp h
    obtain ⟨ds, hds, h⟩ := bind_eq_ok.mp h
    cases h
    obtain ⟨heq, hall⟩ := ih hds
    obtain ⟨-, -, -, hleaf⟩ := leafHash_ok hd
    refine ⟨by rw [heq, hleaf]; rfl, List.forall_mem_cons.mpr ⟨⟨d, hd⟩, hall⟩⟩

theorem digestAll_total {f : ContextItem → Except CpaError (Block 32)} (h : ∀ x ∈ items, ∃ d, f x = .ok d) :
    ∃ digests, digestAll f items = .ok digests := by
  induction items with
  | nil => exact ⟨[], rfl⟩
  | cons x rest ih =>
    obtain ⟨⟨d, hd⟩, hrest⟩ := List.forall_mem_cons.mp h
    obtain ⟨ds, hds⟩ := ih hrest
    exact ⟨d :: ds, bind_eq_ok.mpr ⟨d, hd, bind_eq_ok.mpr ⟨ds, hds, rfl⟩⟩⟩

theorem digestAll_length {f : ContextItem → Except CpaError (Block 32)} (h : digestAll f items = .ok digests) :
    digests.length = items.length := by
  induction items generalizing digests with
  | nil =>
    cases h
    rfl
  | cons x rest ih =>
    rw [digestAll] at h
    obtain ⟨d, hd, h⟩ := bind_eq_ok.mp h
    obtain ⟨ds, hds, h⟩ := bind_eq_ok.mp h
    cases h
    rw [List.length_cons, List.length_cons, ih hds]

theorem reduceLevel_eq {level : List (Block 32)} {root : Block 32} :
    reduceLevel P level = .ok root ↔ level ≠ [] ∧ reduce (nodeHash P) level.length level = [root] := by
  rw [reduceLevel]
  constructor
  · intro h
    have hne : level ≠ [] := by
      intro hnil
      rw [hnil] at h
      cases h
    obtain ⟨r, hr⟩ := reduce_single (nodeHash P) (n := level.length) hne (by omega)
    rw [hr] at h
    cases h
    exact ⟨hne, hr⟩
  · rintro ⟨-, h⟩
    rw [h]
    rfl

theorem reduceLevel_total {level : List (Block 32)} (h : level ≠ []) : ∃ root, reduceLevel P level = .ok root := by
  obtain ⟨r, hr⟩ := reduce_single (nodeHash P) (n := level.length) h (by omega)
  exact ⟨r, reduceLevel_eq.mpr ⟨h, hr⟩⟩

/-- A partition's root: over which leaves, and that each of them has a text. -/
structure Rooted (P : Platform) (leaves : List ContextItem) (root : Block 32) : Prop where
  ordered : Ordered leaves (sortByCtxId leaves)
  hashed : ∀ x ∈ leaves, ∃ d, leafHash P x = .ok d
  digests : digestAll (leafHash P) (sortByCtxId leaves) =
    .ok (((sortByCtxId leaves).map (textBytes P)).map (leafNode P))
  reduced : reduce (nodeHash P) leaves.length (((sortByCtxId leaves).map (textBytes P)).map (leafNode P)) = [root]

theorem rooted_of_ok {leaves : List ContextItem} {root : Block 32} (h : buildPartitionRootBytes P leaves = .ok root) :
    Rooted P leaves root := by
  rw [buildPartitionRootBytes, buildPartitionRootBytesImpl] at h
  obtain ⟨sorted, hsorted, h⟩ := bind_eq_ok.mp h
  obtain ⟨digests, hdigests, h⟩ := bind_eq_ok.mp h
  have hordered := ordered_of_ok hsorted
  have heq := hordered.eq
  subst heq
  obtain ⟨hleaves, hall⟩ := digestAll_leaves hdigests
  subst hleaves
  refine ⟨hordered, ?_, hdigests, ?_⟩
  · intro x hx
    exact hall x (hordered.perm.mem_iff.mpr hx)
  · have hlength : (((sortByCtxId leaves).map (textBytes P)).map (leafNode P)).length = leaves.length := by
      rw [List.length_map, List.length_map, hordered.perm.length_eq]
    have hreduced := (reduceLevel_eq.mp h).2
    rwa [hlength] at hreduced

theorem partitionRoot_of_write {leaves : List ContextItem} {root : Block 32}
    (h : buildPartitionRootBytesForWrite P leaves = .ok root) : buildPartitionRootBytes P leaves = .ok root := by
  rw [buildPartitionRootBytesForWrite, buildPartitionRootBytesImpl] at h
  obtain ⟨sorted, hsorted, h⟩ := bind_eq_ok.mp h
  obtain ⟨digests, hdigests, h⟩ := bind_eq_ok.mp h
  rw [buildPartitionRootBytes, buildPartitionRootBytesImpl]
  exact bind_eq_ok.mpr ⟨sorted, hsorted, bind_eq_ok.mpr ⟨digests, digestAll_mono (fun _ _ => leafHash_of_write) hdigests, h⟩⟩

theorem partitionRoot_total {leaf : ContextItem → Except CpaError (Block 32)} {leaves : List ContextItem}
    (hne : leaves ≠ []) (hnodup : (leaves.map (·.ctx_id)).Nodup) (hleaf : ∀ x ∈ leaves, ∃ d, leaf x = .ok d) :
    ∃ root, buildPartitionRootBytesImpl P leaves leaf = .ok root := by
  have hperm := sortByCtxId_perm leaves
  obtain ⟨digests, hdigests⟩ := digestAll_total (fun x (hx : x ∈ sortByCtxId leaves) => hleaf x (hperm.mem_iff.mp hx))
  have hlevel : digests ≠ [] := by
    intro hnil
    have hlength := digestAll_length hdigests
    rw [hnil, hperm.length_eq] at hlength
    exact hne (List.length_eq_zero_iff.mp hlength.symm)
  obtain ⟨root, hroot⟩ := reduceLevel_total (P := P) hlevel
  exact ⟨root, bind_eq_ok.mpr ⟨_, sortedLeaves_ok _ hne hnodup, bind_eq_ok.mpr ⟨digests, hdigests, hroot⟩⟩⟩

theorem asBlock_hexToBytes (digest : Block 32) : asBlock (hexToBytes (hex digest)) = some digest := by
  rw [hex, hexToBytes_bytesToHex, asBlock_bytes]

theorem foldPath_steps (steps : List (Side × Block 32)) (acc : Block 32) :
    foldPath P (steps.map (fun s => ⟨hex s.2, s.1⟩)) acc = some (walk (nodeHash P) acc steps) := by
  induction steps generalizing acc with
  | nil => rfl
  | cons s steps ih =>
    rw [List.map_cons, foldPath, hex_lower, asBlock_hexToBytes]
    simp only [Bool.not_true, Bool.false_eq_true, if_false]
    rw [ih]
    rfl

theorem find_sorted {leaves : List ContextItem} {index : Nat} (hordered : Ordered leaves (sortByCtxId leaves))
    (hmem : leaf ∈ leaves) (h : findCtxId leaf.ctx_id (sortByCtxId leaves) = .ok index) :
    (sortByCtxId leaves)[index]? = some leaf := by
  rw [findCtxId] at h
  split at h
  · rename_i found hfound
    cases h
    obtain ⟨hlt, hid, -⟩ := List.findIdx?_eq_some_iff_getElem.mp hfound
    rw [List.getElem?_eq_some_iff]
    refine ⟨hlt, ?_⟩
    refine List.inj_on_of_nodup_map hordered.nodup (List.getElem_mem hlt) (hordered.perm.mem_iff.mpr hmem) ?_
    exact of_decide_eq_true hid
  · cases h

variable {proof : InclusionProof}

theorem built_proof_verifies {leaves : List ContextItem} {root : Block 32} (hroot : Rooted P leaves root)
    (hmem : leaf ∈ leaves) (h : buildInclusionProofForWrite P leaves leaf.ctx_id = .ok proof) :
    verifyInclusionProof P leaf proof (hex root) = true := by
  rw [buildInclusionProofForWrite, buildInclusionProofImpl] at h
  obtain ⟨sorted, hsorted, h⟩ := bind_eq_ok.mp h
  obtain ⟨index, hindex, h⟩ := bind_eq_ok.mp h
  obtain ⟨current, hcurrent, h⟩ := bind_eq_ok.mp h
  cases h
  have heq := (ordered_of_ok hsorted).eq
  subst heq
  have hcurrent := digestAll_mono (fun _ _ => leafHash_of_write) hcurrent
  rw [hroot.digests] at hcurrent
  cases hcurrent
  obtain ⟨d, hd⟩ := hroot.hashed leaf hmem
  obtain ⟨-, -, -, hdigest⟩ := leafHash_ok hd
  have hnode : (((sortByCtxId leaves).map (textBytes P)).map (leafNode P))[index]? = some d := by
    rw [List.getElem?_map, List.getElem?_map, find_sorted hroot.ordered hmem hindex, hdigest]
    rfl
  have hlength : (((sortByCtxId leaves).map (textBytes P)).map (leafNode P)).length = leaves.length := by
    rw [List.length_map, List.length_map, hroot.ordered.perm.length_eq]
  have hwalk := walk_siblings (nodeHash P) hnode hroot.reduced
  rw [verifyInclusionProof, hex_lower, hd]
  simp only [Bool.not_true, Bool.false_eq_true, if_false, ne_eq, not_true_eq_false, foldPath_steps, hlength, hwalk,
    decide_true]

theorem declaredRoot_of_hex {part : CpaPartition} {root : Block 32} (h : part.partition_root = hex root) :
    declaredRoot part = root := by
  rw [declaredRoot, h, asBlock_hexToBytes]
  rfl

theorem proof_ctxId {leaves : List ContextItem} {ctx_id : Str}
    (h : buildInclusionProofForWrite P leaves ctx_id = .ok proof) : proof.ctx_id = ctx_id := by
  rw [buildInclusionProofForWrite, buildInclusionProofImpl] at h
  obtain ⟨sorted, -, h⟩ := bind_eq_ok.mp h
  obtain ⟨index, -, h⟩ := bind_eq_ok.mp h
  obtain ⟨current, -, h⟩ := bind_eq_ok.mp h
  cases h
  rfl

theorem discloseLeaves_ok {leaves chosen : List ContextItem} {disclosed : List (ContextItem × InclusionProof)}
    (h : discloseLeaves P leaves chosen = .ok disclosed) : disclosed.map (·.1) = chosen ∧
      ∀ d ∈ disclosed, buildInclusionProofForWrite P leaves d.1.ctx_id = .ok d.2 := by
  induction chosen generalizing disclosed with
  | nil =>
    cases h
    exact ⟨rfl, fun d hd => absurd hd List.not_mem_nil⟩
  | cons leaf rest ih =>
    rw [discloseLeaves] at h
    obtain ⟨proof, hproof, h⟩ := bind_eq_ok.mp h
    obtain ⟨others, hothers, h⟩ := bind_eq_ok.mp h
    cases h
    obtain ⟨hfirst, hall⟩ := ih hothers
    exact ⟨by rw [List.map_cons, hfirst], List.forall_mem_cons.mpr ⟨hproof, hall⟩⟩

theorem sortProofs_perm (proofs : List InclusionProof) : (sortProofs proofs).Perm proofs :=
  List.perm_insertionSort _ proofs

section Disclosed
variable {leaves : List ContextItem} {root : Block 32} {disclosed : List (ContextItem × InclusionProof)}
  (hroot : Rooted P leaves root) (hmem : ∀ d ∈ disclosed, d.1 ∈ leaves)
  (hbuilt : ∀ d ∈ disclosed, buildInclusionProofForWrite P leaves d.1.ctx_id = .ok d.2)
include hroot hmem hbuilt

theorem checkDisclosed_built (hleaf : leaf ∈ sortByCtxId (disclosed.map (·.1))) :
    checkDisclosed P (sortProofs (disclosed.map (·.2))) (hex root) leaf = [] := by
  obtain ⟨d, hd, hfst⟩ := List.mem_map.mp ((sortByCtxId_perm _).mem_iff.mp hleaf)
  subst hfst
  rw [checkDisclosed]
  cases hfind : proofByCtx (sortProofs (disclosed.map (·.2))) d.1.ctx_id with
  | none =>
    have hproof : d.2 ∈ (sortProofs (disclosed.map (·.2))).reverse :=
      List.mem_reverse.mpr ((sortProofs_perm _).mem_iff.mpr (List.mem_map_of_mem hd))
    have hnone := List.find?_eq_none.mp hfind d.2 hproof
    exact absurd (decide_eq_true (proof_ctxId (hbuilt d hd))) hnone
  | some proof =>
    have hid : proof.ctx_id = d.1.ctx_id := by
      have hfound := List.find?_some hfind
      exact of_decide_eq_true hfound
    have hproof := List.mem_reverse.mp (List.mem_of_find?_eq_some hfind)
    obtain ⟨d', hd', hsnd⟩ := List.mem_map.mp ((sortProofs_perm _).mem_iff.mp hproof)
    subst hsnd
    have hsame := hbuilt d' hd'
    rw [← proof_ctxId (hbuilt d' hd'), hid] at hsame
    have hverify := built_proof_verifies hroot (hmem d hd) hsame
    simp only [hverify]
    rfl

theorem checkPartition_built (channel : ContextChannel) :
    checkPartition P (inclusionPartition channel (hex root) leaves.length disclosed) = [] := by
  cases disclosed with
  | nil => simp [checkPartition, inclusionPartition, reasonIf]
  | cons first rest =>
    have hlength : (sortByCtxId ((first :: rest).map (·.1))).length = (first :: rest).length := by
      rw [(sortByCtxId_perm _).length_eq, List.length_map]
    have hlength' : (sortProofs ((first :: rest).map (·.2))).length = (first :: rest).length := by
      rw [(sortProofs_perm _).length_eq, List.length_map]
    have hdisclosed : (sortByCtxId ((first :: rest).map (·.1))).flatMap
        (checkDisclosed P (sortProofs ((first :: rest).map (·.2))) (hex root)) = [] := by
      rw [List.flatMap_eq_nil_iff]
      intro leaf hleaf
      exact checkDisclosed_built hroot hmem hbuilt hleaf
    have hproofs : (sortProofs ((first :: rest).map (·.2))).flatMap (fun proof =>
        reasonIf (!(sortByCtxId ((first :: rest).map (·.1))).any (fun leaf => leaf.ctx_id = proof.ctx_id))
          .INCLUSION_PROOF_INVALID) = [] := by
      rw [List.flatMap_eq_nil_iff]
      intro proof hproof
      obtain ⟨d, hd, rfl⟩ := List.mem_map.mp ((sortProofs_perm _).mem_iff.mp hproof)
      have hany : (sortByCtxId ((first :: rest).map (·.1))).any (fun leaf => leaf.ctx_id = d.2.ctx_id) = true := by
        rw [List.any_eq_true]
        refine ⟨d.1, (sortByCtxId_perm _).mem_iff.mpr (List.mem_map_of_mem hd), ?_⟩
        exact decide_eq_true (proof_ctxId (hbuilt d hd)).symm
      rw [hany]
      rfl
    have hpos : 0 < (first :: rest).length := Nat.succ_pos _
    simp only [checkPartition, inclusionPartition, if_pos hpos, Option.getD_some, hdisclosed, hproofs, hlength,
      hlength']
    simp [reasonIf]

end Disclosed

/-- What a partition that was built has been built for. -/
structure Passes (P : Platform) (mode : DisclosureMode) (part : CpaPartition × Block 32) : Prop where
  declared : declaredRoot part.1 = part.2
  fullSet : mode = .fullSet → recomputePartition P part.1 = ([], [part.2])
  inclusion : mode = .inclusion → checkPartition P part.1 = []

variable {disclose : List Str}

theorem passes_of_ok {mode : DisclosureMode} {channel : ContextChannel} {leaves : List ContextItem}
    {part : CpaPartition × Block 32} (h : buildPartition P mode disclose channel leaves = .ok part) :
    Passes P mode part := by
  rw [buildPartition] at h
  obtain ⟨root, hroot, h⟩ := bind_eq_ok.mp h
  have hread := partitionRoot_of_write hroot
  cases mode with
  | fullSet =>
    cases h
    refine ⟨declaredRoot_of_hex rfl, ?_, fun hmode => by cases hmode⟩
    intro _
    have hdeclared : declaredRoot ⟨channel, hex root, leaves.length, none, some leaves, none⟩ = root :=
      declaredRoot_of_hex rfl
    simp only [recomputePartition, Option.getD_some, hread, hdeclared]
    simp [reasonIf]
  | inclusion =>
    obtain ⟨disclosed, hdisclosed, h⟩ := bind_eq_ok.mp h
    cases h
    obtain ⟨hfirst, hbuilt⟩ := discloseLeaves_ok hdisclosed
    refine ⟨declaredRoot_of_hex rfl, fun hmode => (by cases hmode), ?_⟩
    intro _
    apply checkPartition_built (rooted_of_ok hread) _ hbuilt
    intro d hd
    have hchosen : d.1 ∈ disclosed.map (·.1) := List.mem_map_of_mem hd
    rw [hfirst] at hchosen
    exact List.mem_of_mem_filter hchosen

variable {built : List (CpaPartition × Block 32)}

theorem buildPartitions_passes {mode : DisclosureMode} {channels : List ContextChannel}
    (h : buildPartitions P mode disclose items channels = .ok built) : ∀ part ∈ built, Passes P mode part := by
  induction channels generalizing built with
  | nil =>
    cases h
    exact fun part hpart => absurd hpart List.not_mem_nil
  | cons channel rest ih =>
    rw [buildPartitions] at h
    split at h
    · exact ih h
    · obtain ⟨part, hpart, h⟩ := bind_eq_ok.mp h
      obtain ⟨parts, hparts, h⟩ := bind_eq_ok.mp h
      cases h
      exact List.forall_mem_cons.mpr ⟨passes_of_ok hpart, ih hparts⟩

/-- A partition that discloses, of all items of its channel, those asked for, each with a proof that is
accepted against the root over all of them. -/
structure Discloses (P : Platform) (disclose : List Str) (items : List ContextItem) (part : CpaPartition) : Prop where
  root : ∃ root, buildPartitionRootBytes P (bucket items part.channel) = .ok root ∧ part.partition_root = hex root
  leaves : (part.leaves.getD []).Perm ((bucket items part.channel).filter (fun item => item.ctx_id ∈ disclose))
  proofs : ∀ leaf ∈ part.leaves.getD [], ∃ proof ∈ part.inclusion_proofs.getD [],
    verifyInclusionProof P leaf proof part.partition_root = true
  count : (part.inclusion_proofs.getD []).length = (part.leaves.getD []).length

theorem inclusionPartition_lists (channel : ContextChannel) (root : Str) (leaf_count : Nat)
    (disclosed : List (ContextItem × InclusionProof)) :
    ((inclusionPartition channel root leaf_count disclosed).leaves.getD []).Perm (disclosed.map (·.1)) ∧
      ((inclusionPartition channel root leaf_count disclosed).inclusion_proofs.getD []).Perm (disclosed.map (·.2)) := by
  cases disclosed with
  | nil => exact ⟨.nil, .nil⟩
  | cons d rest => exact ⟨sortByCtxId_perm _, sortProofs_perm _⟩

theorem discloses_of_ok {channel : ContextChannel} {part : CpaPartition × Block 32}
    (h : buildPartition P .inclusion disclose channel (bucket items channel) = .ok part) :
    part.1.channel = channel ∧ Discloses P disclose items part.1 := by
  rw [buildPartition] at h
  obtain ⟨root, hroot, h⟩ := bind_eq_ok.mp h
  obtain ⟨disclosed, hdisclosed, h⟩ := bind_eq_ok.mp h
  cases h
  have hread := partitionRoot_of_write hroot
  obtain ⟨hfirst, hbuilt⟩ := discloseLeaves_ok hdisclosed
  obtain ⟨hleaves, hproofs⟩ := inclusionPartition_lists channel (hex root) (bucket items channel).length disclosed
  refine ⟨rfl, ⟨root, hread, rfl⟩, hfirst ▸ hleaves, ?_, ?_⟩
  · intro leaf hleaf
    obtain ⟨d, hd, rfl⟩ := List.mem_map.mp (hleaves.mem_iff.mp hleaf)
    have hchosen : d.1 ∈ disclosed.map (·.1) := List.mem_map_of_mem hd
    rw [hfirst] at hchosen
    exact ⟨d.2, hproofs.mem_iff.mpr (List.mem_map_of_mem hd),
      built_proof_verifies (rooted_of_ok hread) (List.mem_of_mem_filter hchosen) (hbuilt d hd)⟩
  · rw [hproofs.length_eq, hleaves.length_eq, List.length_map, List.length_map]

theorem buildPartitions_discloses {channels : List ContextChannel}
    (h : buildPartitions P .inclusion disclose items channels = .ok built) :
    built.map (fun part => part.1.channel) = channels.filter (fun channel => bucket items channel ≠ []) ∧
      ∀ part ∈ built, Discloses P disclose items part.1 := by
  induction channels generalizing built with
  | nil =>
    cases h
    exact ⟨rfl, fun part hpart => absurd hpart List.not_mem_nil⟩
  | cons channel rest ih =>
    rw [buildPartitions] at h
    split at h
    · rename_i hempty
      rw [List.filter_cons_of_neg (by simpa using hempty)]
      exact ih h
    · rename_i hne
      obtain ⟨part, hpart, h⟩ := bind_eq_ok.mp h
      obtain ⟨parts, hparts, h⟩ := bind_eq_ok.mp h
      cases h
      obtain ⟨hchannel, hdiscloses⟩ := discloses_of_ok hpart
      obtain ⟨hchannels, hall⟩ := ih hparts
      rw [List.filter_cons_of_pos (by simpa using hne), List.map_cons, hchannel, hchannels]
      exact ⟨rfl, List.forall_mem_cons.mpr ⟨hdiscloses, hall⟩⟩

/-- What `buildCPA` returns. -/
structure BuiltFrom (P : Platform) (input : BuildCpaInput) (cpa : ContextProvenanceAttestation)
    (built : List (CpaPartition × Block 32)) : Prop where
  built_eq : buildPartitions P input.mode input.disclose input.items CHANNEL_ORDER = .ok built
  mode : cpa.mode = input.mode
  partitions : cpa.partitions = built.map (·.1)
  root : cpa.root = hex (buildTopRootBytes P (built.map (·.2)))

variable {cpa : ContextProvenanceAttestation} {input : BuildCpaInput}

theorem builtFrom_of_ok (h : buildCPA P input = .ok cpa) : ∃ built, BuiltFrom P input cpa built := by
  rw [buildCPA] at h
  obtain ⟨built, hbuilt, h⟩ := bind_eq_ok.mp h
  obtain ⟨pubkey, -, h⟩ := bind_eq_ok.mp h
  obtain ⟨bytes, -, h⟩ := bind_eq_ok.mp h
  obtain ⟨signature, -, h⟩ := bind_eq_ok.mp h
  cases h
  exact ⟨built, ⟨hbuilt, rfl, rfl, rfl⟩⟩

theorem flatMap_eq_map {α β : Type*} {f : α → List β} {g : α → β} {l : List α} (h : ∀ x ∈ l, f x = [g x]) :
    l.flatMap f = l.map g := by
  induction l with
  | nil => rfl
  | cons x rest ih =>
    obtain ⟨hx, hrest⟩ := List.forall_mem_cons.mp h
    rw [List.flatMap_cons, hx, ih hrest]
    rfl

theorem BuiltFrom.recompute (h : BuiltFrom P input cpa built) : recompute P cpa = [] := by
  have hpasses := buildPartitions_passes h.built_eq
  rw [ContextProvenance.recompute, h.mode]
  cases hmode : input.mode with
  | fullSet =>
    have hreasons : cpa.partitions.flatMap (fun part => (recomputePartition P part).1) = [] := by
      rw [h.partitions, List.flatMap_eq_nil_iff]
      intro part hpart
      obtain ⟨b, hb, rfl⟩ := List.mem_map.mp hpart
      rw [(hpasses b hb).fullSet hmode]
    have hroots : cpa.partitions.flatMap (fun part => (recomputePartition P part).2) = built.map (·.2) := by
      rw [h.partitions, List.flatMap_map]
      apply flatMap_eq_map
      intro b hb
      rw [(hpasses b hb).fullSet hmode]
    simp only [recomputeFullSet, hreasons, hroots, h.root]
    simp [reasonIf]
  | inclusion =>
    have hreasons : cpa.partitions.flatMap (checkPartition P) = [] := by
      rw [h.partitions, List.flatMap_eq_nil_iff]
      intro part hpart
      obtain ⟨b, hb, rfl⟩ := List.mem_map.mp hpart
      exact (hpasses b hb).inclusion hmode
    have hroots : cpa.partitions.map declaredRoot = built.map (·.2) := by
      rw [h.partitions, List.map_map]
      apply List.map_congr_left
      intro b hb
      exact (hpasses b hb).declared
    simp only [recomputeInclusion, hreasons, hroots, h.root]
    simp [reasonIf]

/-- The four committed fields agree; the two zeros are one length. -/
structure SameLeaf (a b : ContextItem) : Prop where
  ctx_id : a.ctx_id = b.ctx_id
  channel : a.channel = b.channel
  content_ref : a.content_ref = b.content_ref
  byte_len : a.byte_len.eq b.byte_len = true

theorem writePairs_texts {members : List (Str × Except JcsError Str)} {out : List Str}
    (h : writePairs members = .ok out) : ∀ m ∈ members, ∃ s, m.2 = .ok s := by
  induction members generalizing out with
  | nil => exact fun m hm => absurd hm List.not_mem_nil
  | cons m rest ih =>
    obtain ⟨name, text⟩ := m
    obtain ⟨-, s, pairs, hs, hpairs, -⟩ := writePairs_cons_ok.mp h
    exact List.forall_mem_cons.mpr ⟨⟨s, hs⟩, ih hpairs⟩

theorem member_texts {numText : Double → Str} {members : List (Str × JsValue)} {text : Str}
    (h : canonicalizeJCS numText (.obj members) = .ok text) :
    ∀ m ∈ members, ∃ s, canonicalizeValue numText none m.2 = .ok s := by
  rw [canonicalizeJCS] at h
  obtain ⟨-, h⟩ := bind_unit_eq_ok.mp h
  rw [canonicalizeValue] at h
  obtain ⟨pairs, hpairs, -⟩ := bind_eq_ok.mp h
  intro m hm
  refine writePairs_texts hpairs (m.1, canonicalizeValue numText none m.2) ?_
  rw [(sortByName_perm _).mem_iff, canonicalizeMembers_eq_map]
  exact List.mem_map_of_mem hm

theorem wellFormed_of_text {numText : Double → Str} {s text : Str}
    (h : canonicalizeValue numText none (.str s) = .ok text) : WellFormed s := by
  rw [canonicalizeValue] at h
  obtain ⟨hnone, -⟩ := bind_unit_eq_ok.mp h
  rw [assertNoLoneSurrogate] at hnone
  split at hnone
  · cases hnone
  · assumption

theorem preimage_isJson {text : Str} (h : canonicalizeJCS P.numText (leafPreimage leaf) = .ok text) :
    IsJson (leafPreimage leaf) := by
  have htexts := member_texts h
  simp only [List.forall_mem_cons] at htexts
  obtain ⟨⟨_, hlen⟩, -, ⟨_, href⟩, ⟨_, hid⟩, -⟩ := htexts
  have hnumber : IsJson (.num leaf.byte_len) := by
    cases hn : leaf.byte_len with
    | finite d => exact .num d
    | nan =>
      rw [hn] at hlen
      cases hlen
    | infinite neg =>
      rw [hn] at hlen
      cases hlen
  have hchannel : WellFormed (channelText leaf.channel) := by
    cases leaf.channel <;> decide
  rw [leafPreimage]
  refine .obj ?_ ?_ ?_
  · simp only [List.map_cons, List.map_nil]
    decide
  · simp only [List.forall_mem_cons]
    exact ⟨by decide, by decide, by decide, by decide, fun m hm => absurd hm List.not_mem_nil⟩
  · simp only [List.forall_mem_cons]
    exact ⟨hnumber, .str hchannel, .str (wellFormed_of_text href), .str (wellFormed_of_text hid),
      fun m hm => absurd hm List.not_mem_nil⟩

theorem preimage_strip (leaf : ContextItem) : LegacyCanonical.strip (leafPreimage leaf) = leafPreimage leaf := by
  rw [leafPreimage, LegacyCanonical.strip_obj]
  rfl

theorem channelText_inj {a b : ContextChannel} (h : channelText a = channelText b) : a = b := by
  revert h
  cases a <;> cases b <;> decide

theorem sameLeaf_of_bytes (hnum : NumberRendering P.numText) {a b : ContextItem} {d e : Block 32}
    (ha : leafHash P a = .ok d) (hb : leafHash P b = .ok e) (h : textBytes P a = textBytes P b) : SameLeaf a b := by
  obtain ⟨s, hs, hsbytes, -⟩ := leafHash_ok ha
  obtain ⟨t, ht, htbytes, -⟩ := leafHash_ok hb
  have hja := preimage_isJson hs
  have hjb := preimage_isJson ht
  have hwell : ∀ {leaf : ContextItem}, IsJson (leafPreimage leaf) → WellFormed (emit P.numText (leafPreimage leaf)) := by
    intro leaf hj
    have hlegacy : LegacyCanonical.canonicalize P.numText (leafPreimage leaf) = _ := LegacyCanonical.canonicalize_json hj
    rw [preimage_strip] at hlegacy
    exact canonicalize_text hnum hlegacy
  rw [canonicalizeJCS_ok hja] at hs
  rw [canonicalizeJCS_ok hjb] at ht
  cases hs
  cases ht
  rw [hsbytes, htbytes] at h
  have hsame := (emit_eq_iff hnum hja hjb).mp (utf8_inj (hwell hja) (hwell hjb) h)
  cases hsame with
  | obj hnames hmembers =>
    have hlen := hmembers (lit "byte_len", .num a.byte_len) List.mem_cons_self (lit "byte_len", .num b.byte_len)
      List.mem_cons_self rfl
    have hchannel := hmembers (lit "channel", .str (channelText a.channel)) (by simp)
      (lit "channel", .str (channelText b.channel)) (by simp) rfl
    have href := hmembers (lit "content_ref", .str a.content_ref) (by simp)
      (lit "content_ref", .str b.content_ref) (by simp) rfl
    have hid := hmembers (lit "ctx_id", .str a.ctx_id) (by simp) (lit "ctx_id", .str b.ctx_id) (by simp) rfl
    refine ⟨?_, ?_, ?_, ?_⟩
    · generalize hx : a.ctx_id = x at hid
      generalize hy : b.ctx_id = y at hid
      cases hid
      rfl
    · generalize hx : channelText a.channel = x at hchannel
      generalize hy : channelText b.channel = y at hchannel
      cases hchannel
      exact channelText_inj (hx.trans hy.symm)
    · generalize hx : a.content_ref = x at href
      generalize hy : b.content_ref = y at href
      cases href
      rfl
    · generalize a.byte_len = x at hlen
      generalize b.byte_len = y at hlen
      cases hlen with
      | num heq => exact decide_eq_true heq

variable (P) in
def partitionInputs (leaves : List ContextItem) : List (List UInt8) :=
  (sortByCtxId leaves).map (fun leaf => leafInput (textBytes P leaf)) ++
    (formed (nodeHash P) leaves.length (((sortByCtxId leaves).map (textBytes P)).map (leafNode P))).map nodeInput

def stepsOf (path : List InclusionStep) : List (Side × Block 32) :=
  path.map (fun step => (step.side, (asBlock (hexToBytes step.sibling)).getD (Block.zero 32)))

variable (P) in
def proofInputs (leaf : ContextItem) (proof : InclusionProof) : List (List UInt8) :=
  leafInput (textBytes P leaf) ::
    (walked (nodeHash P) (leafNode P (textBytes P leaf)) (stepsOf proof.path)).map nodeInput

def inputBytes : List UInt8 ⊕ Block 32 × Block 32 → List UInt8
  | .inl text => leafInput text
  | .inr pair => nodeInput pair

theorem tags_ne {x y : List UInt8} : utf8 LEAF_TAG ++ x ≠ utf8 NODE_TAG ++ y := by
  intro h
  have hlength : (utf8 LEAF_TAG).length = (utf8 NODE_TAG).length := by decide
  exact absurd (List.append_inj h hlength).1 (by decide)

theorem nodeInput_inj {p q : Block 32 × Block 32} (h : nodeInput p = nodeInput q) : p = q := by
  obtain ⟨hleft, hright⟩ := List.append_inj (List.append_cancel_left h) (by rw [p.1.size, q.1.size])
  exact Prod.ext (Block.ext_bytes hleft) (Block.ext_bytes hright)

theorem inputBytes_inj {x y : List UInt8 ⊕ Block 32 × Block 32} (h : inputBytes x = inputBytes y) : x = y := by
  cases x with
  | inl a =>
    cases y with
    | inl b => rw [List.append_cancel_left (show leafInput a = leafInput b from h)]
    | inr q => exact absurd h tags_ne
  | inr p =>
    cases y with
    | inl b => exact absurd h.symm tags_ne
    | inr q => rw [nodeInput_inj h]

theorem inputBytes_ne_empty (x : List UInt8 ⊕ Block 32 × Block 32) : inputBytes x ≠ emptyInput := by
  cases x with
  | inl a => exact tags_ne
  | inr p =>
    intro h
    have hlength := congrArg List.length (List.append_cancel_left (show nodeInput p = emptyInput from h))
    rw [List.length_append, p.1.size, p.2.size] at hlength
    exact absurd hlength (by decide)

theorem value_eq (x : List UInt8 ⊕ Block 32 × Block 32) :
    value (leafNode P) (nodeHash P) x = P.sha256 (inputBytes x) := by
  cases x <;> rfl

variable {inputs : List (List UInt8)}

theorem separates_of_collisionFree (h : CollisionFree P.sha256 inputs) :
    Separates (leafNode P) (nodeHash P) (fun x => inputBytes x ∈ inputs) := by
  intro x y hx hy heq
  rw [value_eq, value_eq] at heq
  exact inputBytes_inj (h _ hx _ hy heq)

theorem Rooted.commits {leaves : List ContextItem} {root : Block 32} (h : Rooted P leaves root)
    (hsub : ∀ x ∈ partitionInputs P leaves, x ∈ inputs) :
    ∃ t, Commits (leafNode P) (nodeHash P) (fun x => inputBytes x ∈ inputs)
      ((sortByCtxId leaves).map (textBytes P)) root t := by
  apply exists_commits_leaves (n := leaves.length)
  · intro text htext
    obtain ⟨leaf, hleaf, rfl⟩ := List.mem_map.mp htext
    exact hsub _ (List.mem_append_left _ (List.mem_map_of_mem hleaf))
  · intro p hp
    exact hsub _ (List.mem_append_right _ (List.mem_map_of_mem hp))
  · exact h.reduced

theorem foldPath_walk {path : List InclusionStep} {acc r : Block 32} (h : foldPath P path acc = some r) :
    walk (nodeHash P) acc (stepsOf path) = r := by
  induction path generalizing acc with
  | nil => exact Option.some.inj h
  | cons step rest ih =>
    rw [foldPath] at h
    split at h
    · cases h
    · split at h
      · cases h
      · rename_i sibling hsibling
        have hwalk := ih h
        rw [stepsOf, List.map_cons, hsibling]
        exact hwalk

theorem leaf_of_proof (hnum : NumberRendering P.numText) {leaves : List ContextItem} {root : Block 32}
    (hroot : buildPartitionRootBytes P leaves = .ok root) (h : verifyInclusionProof P leaf proof (hex root) = true)
    (hfree : CollisionFree P.sha256 (partitionInputs P leaves ++ proofInputs P leaf proof)) :
    ∃ x ∈ leaves, SameLeaf x leaf := by
  have hrooted := rooted_of_ok hroot
  rw [verifyInclusionProof] at h
  split at h
  · cases h
  · split at h
    · cases h
    · split at h
      · cases h
      · rename_i acc hleaf
        split at h
        · cases h
        · rename_i r hfold
          have hr := hex_inj (of_decide_eq_true h)
          subst hr
          obtain ⟨-, -, -, rfl⟩ := leafHash_ok hleaf
          obtain ⟨t, ht⟩ := hrooted.commits (fun x hx => List.mem_append_left (proofInputs P leaf proof) hx)
          have hfrontier : textBytes P leaf ∈ t.frontier := by
            refine Separates.mem_of_walk (separates_of_collisionFree hfree) ht.inputs_mem ?_ ?_
              (?_ : walk _ _ (stepsOf proof.path) = _)
            · exact List.mem_append_right _ List.mem_cons_self
            · intro p hp
              exact List.mem_append_right _ (List.mem_cons_of_mem _ (List.mem_map_of_mem hp))
            · rw [foldPath_walk hfold, ht.digest_eq]
          rw [ht.frontier_eq] at hfrontier
          obtain ⟨x, hx, htext⟩ := List.mem_map.mp hfrontier
          have hmem := hrooted.ordered.perm.mem_iff.mp hx
          obtain ⟨d, hd⟩ := hrooted.hashed x hmem
          exact ⟨x, hmem, sameLeaf_of_bytes hnum hd hleaf htext⟩

variable (P) in
def fullSetInputs (c : ContextProvenanceAttestation) : List (List UInt8) :=
  (if c.partitions = [] then [emptyInput] else []) ++
    c.partitions.flatMap (fun part => partitionInputs P (part.leaves.getD [])) ++
    (formed (nodeHash P) c.partitions.length (c.partitions.map declaredRoot)).map nodeInput

def allLeaves (c : ContextProvenanceAttestation) : List ContextItem := c.partitions.flatMap (fun part => part.leaves.getD [])

theorem reasonIf_eq_nil {condition : Bool} {reason : CpaReasonCode} : reasonIf condition reason = [] ↔ condition = false := by
  cases condition <;> simp [reasonIf]

structure FullSet (P : Platform) (c : ContextProvenanceAttestation) : Prop where
  rooted : ∀ part ∈ c.partitions, Rooted P (part.leaves.getD []) (declaredRoot part)
  root : c.root = hex (buildTopRootBytes P (c.partitions.map declaredRoot))

variable {c : ContextProvenanceAttestation}

theorem fullSet_of_nil (h : recomputeFullSet P c = []) : FullSet P c := by
  rw [recomputeFullSet, List.append_eq_nil_iff] at h
  obtain ⟨hparts, hroot⟩ := h
  rw [List.flatMap_eq_nil_iff] at hparts
  have hpart : ∀ part ∈ c.partitions, Rooted P (part.leaves.getD []) (declaredRoot part) ∧
      (recomputePartition P part).2 = [declaredRoot part] := by
    intro part hpart
    have hnil := hparts part hpart
    rw [recomputePartition] at hnil ⊢
    cases hbuild : buildPartitionRootBytes P (part.leaves.getD []) with
    | error e =>
      simp only [hbuild] at hnil
      cases hnil
    | ok recomputed =>
      simp only [hbuild, List.append_eq_nil_iff, reasonIf_eq_nil, decide_eq_false_iff_not, not_not] at hnil
      have hdeclared : declaredRoot part = recomputed := declaredRoot_of_hex hnil.1.symm
      exact ⟨by rw [hdeclared]; exact rooted_of_ok hbuild, rfl⟩
  refine ⟨fun part hp => (hpart part hp).1, ?_⟩
  rw [flatMap_eq_map (fun part hp => (hpart part hp).2), reasonIf_eq_nil, decide_eq_false_iff_not, not_not] at hroot
  exact hroot.symm

theorem topRoot_reduce {roots : List (Block 32)} (h : roots ≠ []) :
    reduce (nodeHash P) roots.length roots = [buildTopRootBytes P roots] := by
  obtain ⟨r, hr⟩ := reduce_single (nodeHash P) (n := roots.length) h (by omega)
  rw [buildTopRootBytes, hr]

variable (P) in
def partTexts (part : CpaPartition) : List (List UInt8) := (sortByCtxId (part.leaves.getD [])).map (textBytes P)

theorem FullSet.commits (h : FullSet P c) (hne : c.partitions ≠ []) (hsub : ∀ x ∈ fullSetInputs P c, x ∈ inputs) :
    ∃ t, Commits (leafNode P) (nodeHash P) (fun x => inputBytes x ∈ inputs) (c.partitions.flatMap (partTexts P))
      (buildTopRootBytes P (c.partitions.map declaredRoot)) t := by
  have hparts : ∀ part ∈ c.partitions, ∃ t, Commits (leafNode P) (nodeHash P) (fun x => inputBytes x ∈ inputs)
      (partTexts P part) (declaredRoot part) t := by
    intro part hpart
    apply (h.rooted part hpart).commits
    intro x hx
    exact hsub x (List.mem_append_left _ (List.mem_append_right _ (List.mem_flatMap.mpr ⟨part, hpart, hx⟩)))
  obtain ⟨ts, hdigests, hfrontiers, hinputs⟩ := exists_trees (leafNode P) (nodeHash P) hparts
  have hlength : (c.partitions.map declaredRoot).length = c.partitions.length := List.length_map _
  have hroots : c.partitions.map declaredRoot ≠ [] := fun hnil => hne (List.map_eq_nil_iff.mp hnil)
  have hreduce := topRoot_reduce (P := P) hroots
  rw [hlength, ← hdigests] at hreduce
  have hcommits := exists_commits (leafNode P) (nodeHash P) (n := c.partitions.length) hinputs (by
    intro p hp
    rw [hdigests] at hp
    exact hsub _ (List.mem_append_right _ (List.mem_map_of_mem hp))) hreduce
  rwa [hfrontiers, hdigests] at hcommits

theorem root_ne_empty (hfree : CollisionFree P.sha256 inputs) (hempty : emptyInput ∈ inputs) {texts : List (List UInt8)}
    {root : Block 32} {t : HashTree (List UInt8)}
    (h : Commits (leafNode P) (nodeHash P) (fun x => inputBytes x ∈ inputs) texts root t) :
    P.sha256 emptyInput ≠ root := by
  intro heq
  obtain ⟨x, hx, hvalue⟩ := t.exists_input (leafNode P) (nodeHash P)
  rw [h.digest_eq, ← heq, value_eq] at hvalue
  exact inputBytes_ne_empty x (hfree _ hempty _ (h.inputs_mem x hx) hvalue).symm

theorem FullSet.hashed (h : FullSet P c) (hleaf : leaf ∈ allLeaves c) : ∃ d, leafHash P leaf = .ok d := by
  obtain ⟨part, hpart, hmem⟩ := List.mem_flatMap.mp hleaf
  exact (h.rooted part hpart).hashed leaf hmem

theorem mem_partTexts {text : List UInt8} :
    text ∈ c.partitions.flatMap (partTexts P) ↔ ∃ leaf ∈ allLeaves c, textBytes P leaf = text := by
  constructor
  · intro h
    obtain ⟨part, hpart, htext⟩ := List.mem_flatMap.mp h
    obtain ⟨leaf, hleaf, heq⟩ := List.mem_map.mp htext
    exact ⟨leaf, List.mem_flatMap.mpr ⟨part, hpart, (sortByCtxId_perm _).mem_iff.mp hleaf⟩, heq⟩
  · rintro ⟨leaf, hleaf, heq⟩
    obtain ⟨part, hpart, hmem⟩ := List.mem_flatMap.mp hleaf
    refine List.mem_flatMap.mpr ⟨part, hpart, List.mem_map.mpr ⟨leaf, ?_, heq⟩⟩
    exact (sortByCtxId_perm _).mem_iff.mpr hmem

theorem FullSet.texts_eq {c c' : ContextProvenanceAttestation} (h : FullSet P c) (h' : FullSet P c')
    (hfree : CollisionFree P.sha256 (fullSetInputs P c ++ fullSetInputs P c')) (hroot : c.root = c'.root) :
    c.partitions.flatMap (partTexts P) = c'.partitions.flatMap (partTexts P) := by
  have hleft : ∀ x ∈ fullSetInputs P c, x ∈ fullSetInputs P c ++ fullSetInputs P c' :=
    fun x hx => List.mem_append_left _ hx
  have hright : ∀ x ∈ fullSetInputs P c', x ∈ fullSetInputs P c ++ fullSetInputs P c' :=
    fun x hx => List.mem_append_right _ hx
  rw [h.root, h'.root] at hroot
  have hroots := hex_inj hroot
  have hempty : ∀ {c : ContextProvenanceAttestation}, c.partitions = [] →
      buildTopRootBytes P (c.partitions.map declaredRoot) = P.sha256 emptyInput ∧ emptyInput ∈ fullSetInputs P c := by
    intro c hnil
    rw [fullSetInputs, hnil, if_pos rfl]
    exact ⟨rfl, by simp⟩
  by_cases hnil : c.partitions = []
  · by_cases hnil' : c'.partitions = []
    · rw [hnil, hnil']
    · obtain ⟨t, ht⟩ := h'.commits hnil' hright
      obtain ⟨hsentinel, hmem⟩ := hempty hnil
      rw [hsentinel] at hroots
      exact absurd hroots (root_ne_empty hfree (hleft _ hmem) ht)
  · obtain ⟨t, ht⟩ := h.commits hnil hleft
    by_cases hnil' : c'.partitions = []
    · obtain ⟨hsentinel, hmem⟩ := hempty hnil'
      rw [hsentinel] at hroots
      exact absurd hroots.symm (root_ne_empty hfree (hright _ hmem) ht)
    · obtain ⟨t', ht'⟩ := h'.commits hnil' hright
      rw [hroots] at ht
      exact (separates_of_collisionFree hfree).leaves_inj ht ht'

/-- Each of these leaves has the preimage of one of those, and conversely. -/
def SameLeaves (xs ys : List ContextItem) : Prop := (∀ a ∈ xs, ∃ b ∈ ys, SameLeaf a b) ∧ ∀ b ∈ ys, ∃ a ∈ xs, SameLeaf a b

theorem FullSet.sameLeaves (hnum : NumberRendering P.numText) {c c' : ContextProvenanceAttestation} (h : FullSet P c)
    (h' : FullSet P c') (hfree : CollisionFree P.sha256 (fullSetInputs P c ++ fullSetInputs P c'))
    (hroot : c.root = c'.root) : SameLeaves (allLeaves c) (allLeaves c') := by
  have htexts := h.texts_eq h' hfree hroot
  constructor
  · intro a ha
    have htext := mem_partTexts (P := P).mpr ⟨a, ha, rfl⟩
    rw [htexts] at htext
    obtain ⟨b, hb, heq⟩ := mem_partTexts.mp htext
    obtain ⟨d, hd⟩ := h.hashed ha
    obtain ⟨e, he⟩ := h'.hashed hb
    exact ⟨b, hb, sameLeaf_of_bytes hnum hd he heq.symm⟩
  · intro b hb
    have htext := mem_partTexts (P := P).mpr ⟨b, hb, rfl⟩
    rw [← htexts] at htext
    obtain ⟨a, ha, heq⟩ := mem_partTexts.mp htext
    obtain ⟨d, hd⟩ := h.hashed ha
    obtain ⟨e, he⟩ := h'.hashed hb
    exact ⟨a, ha, sameLeaf_of_bytes hnum hd he heq⟩

theorem inclusionProof_total {leaves : List ContextItem} (hmem : leaf ∈ leaves) (hnodup : (leaves.map (·.ctx_id)).Nodup)
    (hleaf : ∀ x ∈ leaves, ∃ d, leafHashForWrite P x = .ok d) :
    ∃ proof, buildInclusionProofForWrite P leaves leaf.ctx_id = .ok proof := by
  have hperm := sortByCtxId_perm leaves
  obtain ⟨index, hindex⟩ : ∃ index, findCtxId leaf.ctx_id (sortByCtxId leaves) = .ok index := by
    rw [findCtxId]
    cases hfind : (sortByCtxId leaves).findIdx? (fun l => l.ctx_id = leaf.ctx_id) with
    | none =>
      have hnone := List.findIdx?_eq_none_iff.mp hfind leaf (hperm.mem_iff.mpr hmem)
      exact absurd rfl (of_decide_eq_false hnone)
    | some index => exact ⟨index, rfl⟩
  obtain ⟨digests, hdigests⟩ := digestAll_total (fun x (hx : x ∈ sortByCtxId leaves) => hleaf x (hperm.mem_iff.mp hx))
  have hsorted := sortedLeaves_ok .emptyProof (List.ne_nil_of_mem hmem) hnodup
  exact ⟨_, bind_eq_ok.mpr ⟨_, hsorted, bind_eq_ok.mpr ⟨index, hindex, bind_eq_ok.mpr ⟨digests, hdigests, rfl⟩⟩⟩⟩

theorem discloseLeaves_total {leaves chosen : List ContextItem} (hsub : ∀ x ∈ chosen, x ∈ leaves)
    (hnodup : (leaves.map (·.ctx_id)).Nodup) (hleaf : ∀ x ∈ leaves, ∃ d, leafHashForWrite P x = .ok d) :
    ∃ disclosed, discloseLeaves P leaves chosen = .ok disclosed := by
  induction chosen with
  | nil => exact ⟨[], rfl⟩
  | cons leaf rest ih =>
    obtain ⟨hmem, hrest⟩ := List.forall_mem_cons.mp hsub
    obtain ⟨proof, hproof⟩ := inclusionProof_total hmem hnodup hleaf
    obtain ⟨others, hothers⟩ := ih hrest
    exact ⟨_, bind_eq_ok.mpr ⟨proof, hproof, bind_eq_ok.mpr ⟨others, hothers, rfl⟩⟩⟩

theorem buildPartition_total (mode : DisclosureMode) (disclose : List Str) (channel : ContextChannel)
    {leaves : List ContextItem} (hne : leaves ≠ []) (hnodup : (leaves.map (·.ctx_id)).Nodup)
    (hleaf : ∀ x ∈ leaves, ∃ d, leafHashForWrite P x = .ok d) :
    ∃ part, buildPartition P mode disclose channel leaves = .ok part := by
  obtain ⟨root, hroot⟩ := partitionRoot_total (P := P) hne hnodup hleaf
  rw [buildPartition]
  cases mode with
  | fullSet => exact ⟨_, bind_eq_ok.mpr ⟨root, hroot, rfl⟩⟩
  | inclusion =>
    obtain ⟨disclosed, hdisclosed⟩ := discloseLeaves_total
      (fun x (hx : x ∈ leaves.filter (fun leaf => leaf.ctx_id ∈ disclose)) => List.mem_of_mem_filter hx) hnodup hleaf
    exact ⟨_, bind_eq_ok.mpr ⟨root, hroot, bind_eq_ok.mpr ⟨disclosed, hdisclosed, rfl⟩⟩⟩

theorem buildPartitions_total (mode : DisclosureMode) (disclose : List Str)
    (hnodup : ∀ channel, ((bucket items channel).map (·.ctx_id)).Nodup)
    (hleaf : ∀ x ∈ items, ∃ d, leafHashForWrite P x = .ok d) (channels : List ContextChannel) :
    ∃ built, buildPartitions P mode disclose items channels = .ok built := by
  induction channels with
  | nil => exact ⟨[], rfl⟩
  | cons channel rest ih =>
    rw [buildPartitions]
    split
    · exact ih
    · rename_i hne
      obtain ⟨built, hbuilt⟩ := ih
      obtain ⟨part, hpart⟩ := buildPartition_total mode disclose channel hne (hnodup channel)
        (fun x hx => hleaf x (List.mem_of_mem_filter hx))
      exact ⟨part :: built, bind_eq_ok.mpr ⟨part, hpart, bind_eq_ok.mpr ⟨built, hbuilt, rfl⟩⟩⟩

theorem buildPartition_leaves {channel : ContextChannel} {leaves : List ContextItem} {part : CpaPartition × Block 32}
    (h : buildPartition P .fullSet disclose channel leaves = .ok part) : part.1.leaves = some leaves := by
  rw [buildPartition] at h
  obtain ⟨root, -, h⟩ := bind_eq_ok.mp h
  cases h
  rfl

theorem buildPartitions_leaves {channels : List ContextChannel}
    (h : buildPartitions P .fullSet disclose items channels = .ok built) :
    built.flatMap (fun part => part.1.leaves.getD []) = channels.flatMap (bucket items) := by
  induction channels generalizing built with
  | nil =>
    cases h
    rfl
  | cons channel rest ih =>
    rw [buildPartitions] at h
    split at h
    · rename_i hempty
      rw [ih h, List.flatMap_cons, hempty, List.nil_append]
    · obtain ⟨part, hpart, h⟩ := bind_eq_ok.mp h
      obtain ⟨parts, hparts, h⟩ := bind_eq_ok.mp h
      cases h
      rw [List.flatMap_cons, List.flatMap_cons, ih hparts, buildPartition_leaves hpart]
      rfl

theorem BuiltFrom.mem_allLeaves (h : BuiltFrom P input cpa built) (hmode : input.mode = .fullSet) {item : ContextItem} :
    item ∈ allLeaves cpa ↔ item ∈ input.items := by
  have hbuilt := h.built_eq
  rw [hmode] at hbuilt
  have hleaves : allLeaves cpa = CHANNEL_ORDER.flatMap (bucket input.items) := by
    rw [allLeaves, h.partitions, List.flatMap_map]
    exact buildPartitions_leaves hbuilt
  rw [hleaves, List.mem_flatMap]
  constructor
  · intro hmem
    obtain ⟨channel, -, hitem⟩ := hmem
    exact List.mem_of_mem_filter hitem
  · intro hitem
    refine ⟨item.channel, ?_, List.mem_filter.mpr ⟨hitem, decide_eq_true rfl⟩⟩
    cases item.channel <;> decide

theorem BuiltFrom.fullSet (h : BuiltFrom P input cpa built) (hmode : input.mode = .fullSet) : FullSet P cpa := by
  have hnil := h.recompute
  rw [ContextProvenance.recompute, h.mode, hmode] at hnil
  exact fullSet_of_nil hnil

theorem SameLeaves.congr {xs ys xs' ys' : List ContextItem} (h : SameLeaves xs ys) (hx : ∀ {a}, a ∈ xs ↔ a ∈ xs')
    (hy : ∀ {a}, a ∈ ys ↔ a ∈ ys') : SameLeaves xs' ys' := by
  constructor
  · intro a ha
    obtain ⟨b, hb, hsame⟩ := h.1 a (hx.mpr ha)
    exact ⟨b, hy.mp hb, hsame⟩
  · intro b hb
    obtain ⟨a, ha, hsame⟩ := h.2 b (hy.mpr hb)
    exact ⟨a, hx.mp ha, hsame⟩

theorem built_sameLeaves (hnum : NumberRendering P.numText) {input input' : BuildCpaInput}
    {cpa cpa' : ContextProvenanceAttestation} (h : buildCPA P input = .ok cpa) (h' : buildCPA P input' = .ok cpa')
    (hmode : input.mode = .fullSet) (hmode' : input'.mode = .fullSet)
    (hfree : CollisionFree P.sha256 (fullSetInputs P cpa ++ fullSetInputs P cpa')) (hroot : cpa.root = cpa'.root) :
    SameLeaves input.items input'.items := by
  obtain ⟨built, hbuilt⟩ := builtFrom_of_ok h
  obtain ⟨built', hbuilt'⟩ := builtFrom_of_ok h'
  have hsame := FullSet.sameLeaves hnum (hbuilt.fullSet hmode) (hbuilt'.fullSet hmode') hfree hroot
  exact hsame.congr (hbuilt.mem_allLeaves hmode) (hbuilt'.mem_allLeaves hmode')

/-- Entries with unique ids in each channel, of which each has a text, are partitioned whatever is to
be disclosed, and what is built passes the recomputation; with inclusion proofs, each channel that has
items discloses those that were asked for, and proves them. A proof that is accepted against a
partition's root is for a leaf of the partition, and a root over all entries determines them. -/
theorem context_commitment (hnum : NumberRendering P.numText) :
    (∀ input : BuildCpaInput, (∀ channel, ((bucket input.items channel).map (·.ctx_id)).Nodup) →
      (∀ x ∈ input.items, ∃ d, leafHashForWrite P x = .ok d) →
      ∃ built, buildPartitions P input.mode input.disclose input.items CHANNEL_ORDER = .ok built) ∧
    (∀ input cpa, buildCPA P input = .ok cpa → recompute P cpa = [] ∧ (input.mode = .inclusion →
      cpa.partitions.map (·.channel) = CHANNEL_ORDER.filter (fun channel => bucket input.items channel ≠ []) ∧
        ∀ part ∈ cpa.partitions, Discloses P input.disclose input.items part)) ∧
    (∀ leaves root leaf proof, buildPartitionRootBytes P leaves = .ok root →
      verifyInclusionProof P leaf proof (hex root) = true →
      CollisionFree P.sha256 (partitionInputs P leaves ++ proofInputs P leaf proof) →
      ∃ x ∈ leaves, SameLeaf x leaf) ∧
    (∀ c c' : ContextProvenanceAttestation, recomputeFullSet P c = [] → recomputeFullSet P c' = [] →
      CollisionFree P.sha256 (fullSetInputs P c ++ fullSetInputs P c') → c.root = c'.root →
      SameLeaves (allLeaves c) (allLeaves c')) ∧
    ∀ input input' cpa cpa', buildCPA P input = .ok cpa → buildCPA P input' = .ok cpa' →
      input.mode = .fullSet → input'.mode = .fullSet →
      CollisionFree P.sha256 (fullSetInputs P cpa ++ fullSetInputs P cpa') → cpa.root = cpa'.root →
      SameLeaves input.items input'.items := by
  refine ⟨?_, ?_, ?_, ?_, ?_⟩
  · intro input hnodup hleaf
    exact buildPartitions_total input.mode input.disclose hnodup hleaf CHANNEL_ORDER
  · intro input cpa h
    obtain ⟨built, hbuilt⟩ := builtFrom_of_ok h
    refine ⟨hbuilt.recompute, ?_⟩
    intro hmode
    obtain ⟨hchannels, hall⟩ := buildPartitions_discloses (hmode ▸ hbuilt.built_eq)
    rw [hbuilt.partitions, List.map_map]
    exact ⟨hchannels, List.forall_mem_map.mpr hall⟩
  · intro leaves root leaf proof hroot h hfree
    exact leaf_of_proof hnum hroot h hfree
  · intro c c' h h' hfree hroot
    exact FullSet.sameLeaves hnum (fullSet_of_nil h) (fullSet_of_nil h') hfree hroot
  · intro input input' cpa cpa' h h' hmode hmode' hfree hroot
    exact built_sameLeaves hnum h h' hmode hmode' hfree hroot

end

/-! ### A signed sample

The digests and the signature are those of SHA-256 and of Ed25519 with the private key of 32 bytes
`01`. -/

def sampleItem (id : String) (channel : ContextChannel) (ref : String) (byteLen : Int) : ContextItem :=
  ⟨lit id, channel, lit ref, JsNumber.ofInt byteLen, none, none⟩

def sampleSecond : ContextItem := sampleItem "u2" .userSocket "a2" 5

def sampleUser : List ContextItem := [sampleItem "u1" .userSocket "a1" 3, sampleSecond]

def sampleTool : ContextItem := sampleItem "t1" .toolResult "b1" 7

def samplePrivateKey : Str := (List.replicate 32 (lit "01")).flatten

def samplePublicKey : Str := lit "8a88e3dd7409f195fd52db2d3cba5d72ca6709bf1d94121bf3748801b40f6f5c"

def sampleText : Str :=
  lit "\x7b\"action_ref\":\"r1\",\"attested_at\":\"2026-01-02T03:04:05Z\",\"mode\":\"full-set\",\"partitions\":[\x7b\"" ++
    lit "channel\":\"user-socket\",\"leaf_count\":2,\"leaves\":[\x7b\"byte_len\":3,\"channel\":\"user-socket\",\"con" ++
    lit "tent_ref\":\"a1\",\"ctx_id\":\"u1\"\x7d,\x7b\"byte_len\":5,\"channel\":\"user-socket\",\"content_ref\":\"a2\",\"ct" ++
    lit "x_id\":\"u2\"\x7d],\"partition_root\":\"d544041a9f7c9106b2e33488e36ded467b6c6f697a96a982da6357bb230" ++
    lit "5068b\"\x7d,\x7b\"channel\":\"tool-result\",\"leaf_count\":1,\"leaves\":[\x7b\"byte_len\":7,\"channel\":\"tool-re" ++
    lit "sult\",\"content_ref\":\"b1\",\"ctx_id\":\"t1\"\x7d],\"partition_root\":\"7d53d676724817afdd50d0d26f3e44c" ++
    lit "fdd658f0072fb8e7cee18a8409457beee\"\x7d],\"producer_did\":\"did:aps:p\",\"producer_pubkey\":\"8a88e3d" ++
    lit "d7409f195fd52db2d3cba5d72ca6709bf1d94121bf3748801b40f6f5c\",\"root\":\"72802654a7bd8ca22ce964e" ++
    lit "50c1470de3526df95a843453fa7b877e9b1d74c18\",\"signature\":\"\",\"version\":\"cpa/0.1\"\x7d"

def sampleSignature : Str :=
  lit "a3b1d99e98345a388324880779da011ffc6f1a496667e74597415d7b506bcaea" ++
    lit "f740a4e4d6f60190f0d8fa277f5ddc4734ae6bfb236cd0b8a802a367e51b8f09"

def sampleInclusionText : Str :=
  lit "\x7b\"action_ref\":\"r1\",\"attested_at\":\"2026-01-02T03:04:05Z\",\"mode\":\"inclusion\",\"part" ++
    lit "itions\":[\x7b\"channel\":\"user-socket\",\"context_profile\":\x7b\"channel\":\"user-socket\",\"" ++
    lit "hidden_leaf_count\":1\x7d,\"inclusion_proofs\":[\x7b\"ctx_id\":\"u2\",\"path\":[\x7b\"sibling\":" ++
    lit "\"2f0c26b22925317eece172b8abc026684efde2684f78520bba7eb7ec20039e12\",\"side\":\"left\"\x7d]\x7d]" ++
    lit ",\"leaf_count\":2,\"leaves\":[\x7b\"byte_len\":5,\"channel\":\"user-socket\",\"content_ref\":\"a" ++
    lit "2\",\"ctx_id\":\"u2\"\x7d],\"partition_root\":\"d544041a9f7c9106b2e33488e36ded467b6c6f697a96a982" ++
    lit "da6357bb2305068b\"\x7d,\x7b\"channel\":\"tool-result\",\"context_profile\":\x7b\"channel\":\"too" ++
    lit "l-result\",\"hidden_leaf_count\":1\x7d,\"leaf_count\":1,\"partition_root\":\"7d53d676724817afdd5" ++
    lit "0d0d26f3e44cfdd658f0072fb8e7cee18a8409457beee\"\x7d],\"producer_did\":\"did:aps:p\",\"producer_p" ++
    lit "ubkey\":\"8a88e3dd7409f195fd52db2d3cba5d72ca6709bf1d94121bf3748801b40f6f5c\",\"root\":\"72802654" ++
    lit "a7bd8ca22ce964e50c1470de3526df95a843453fa7b877e9b1d74c18\",\"signature\":\"\",\"version\":\"cpa/" ++
    lit "0.1\"\x7d"

def sampleInclusionSignature : Str :=
  lit "26c3d620625dd69ca0623102acc8a979515108d5632b745c4d996c609b544d16" ++
    lit "ac03c92ad7fe597da493324879ec5eab8054586510fe87b459b85d194aff880a"

def samplePlatform : Platform where
  numText := integerText
  sha256 := ofTable [
    (ascii "CPA:v0.1:leaf\n\x7b\"byte_len\":3,\"channel\":\"user-socket\",\"content_ref\":\"a1\",\"ctx_id\":\"u1\"\x7d",
      lit "2f0c26b22925317eece172b8abc026684efde2684f78520bba7eb7ec20039e12"),
    (ascii "CPA:v0.1:leaf\n\x7b\"byte_len\":5,\"channel\":\"user-socket\",\"content_ref\":\"a2\",\"ctx_id\":\"u2\"\x7d",
      lit "962cdd4bc93b4bf695af6938d452e4c5b355d5dec8bc163e78f998599d8a1c52"),
    (ascii "CPA:v0.1:leaf\n\x7b\"byte_len\":7,\"channel\":\"tool-result\",\"content_ref\":\"b1\",\"ctx_id\":\"t1\"\x7d",
      lit "7d53d676724817afdd50d0d26f3e44cfdd658f0072fb8e7cee18a8409457beee"),
    (ascii "CPA:v0.1:node\n" ++ bufferFromHex (lit "2f0c26b22925317eece172b8abc026684efde2684f78520bba7eb7ec20039e12" ++
      lit "962cdd4bc93b4bf695af6938d452e4c5b355d5dec8bc163e78f998599d8a1c52"),
      lit "d544041a9f7c9106b2e33488e36ded467b6c6f697a96a982da6357bb2305068b"),
    (ascii "CPA:v0.1:node\n" ++ bufferFromHex (lit "d544041a9f7c9106b2e33488e36ded467b6c6f697a96a982da6357bb2305068b" ++
      lit "7d53d676724817afdd50d0d26f3e44cfdd658f0072fb8e7cee18a8409457beee"),
      lit "72802654a7bd8ca22ce964e50c1470de3526df95a843453fa7b877e9b1d74c18")]
  sign m key := if key ≠ samplePrivateKey then none else
    ([(sampleText, sampleSignature), (sampleInclusionText, sampleInclusionSignature)].find? (·.1 = m)).map (·.2)
  publicKeyFromPrivate key := if key = samplePrivateKey then some samplePublicKey else none

def sampleInput (mode : DisclosureMode) (items : List ContextItem) (disclose : List Str) : BuildCpaInput :=
  ⟨samplePrivateKey, lit "r1", lit "did:aps:p", lit "2026-01-02T03:04:05Z", mode, items, disclose, none⟩

def userRoot : Str := lit "d544041a9f7c9106b2e33488e36ded467b6c6f697a96a982da6357bb2305068b"

def toolRoot : Str := lit "7d53d676724817afdd50d0d26f3e44cfdd658f0072fb8e7cee18a8409457beee"

def sampleRoot : Str := lit "72802654a7bd8ca22ce964e50c1470de3526df95a843453fa7b877e9b1d74c18"

def sampleCpa (mode : DisclosureMode) (partitions : List CpaPartition) (signature : Str) :
    ContextProvenanceAttestation where
  action_ref := lit "r1"
  producer_did := lit "did:aps:p"
  producer_pubkey := samplePublicKey
  attested_at := lit "2026-01-02T03:04:05Z"
  mode
  partitions
  root := sampleRoot
  producer_attestation := none
  signature

def sampleParts : List CpaPartition :=
  [⟨.userSocket, userRoot, 2, none, some sampleUser, none⟩, ⟨.toolResult, toolRoot, 1, none, some [sampleTool], none⟩]

def sampleProof : InclusionProof where
  ctx_id := lit "u2"
  path := [⟨lit "2f0c26b22925317eece172b8abc026684efde2684f78520bba7eb7ec20039e12", .left⟩]

def blockOf (root : Str) : Block 32 := (asBlock (hexToBytes root)).getD (Block.zero 32)

def inclusionParts : List CpaPartition :=
  [⟨.userSocket, userRoot, 2, some ⟨.userSocket, 1⟩, some [sampleSecond], some [sampleProof]⟩,
    ⟨.toolResult, toolRoot, 1, some ⟨.toolResult, 1⟩, none, none⟩]

def sampleBuilt (parts : List CpaPartition) : List (CpaPartition × Block 32) :=
  parts.map (fun part => (part, declaredRoot part))

theorem sample_built {mode : DisclosureMode} {items : List ContextItem} {disclose : List Str}
    {parts : List CpaPartition} (text : Str) {signature : Str}
    (hbuilt : buildPartitions samplePlatform mode disclose items CHANNEL_ORDER = .ok (sampleBuilt parts))
    (hroots : parts.map (·.partition_root) = [userRoot, toolRoot])
    (htext : signingText samplePlatform (sampleCpa mode parts []) = .ok text)
    (hsign : samplePlatform.sign text samplePrivateKey = some signature) :
    buildCPA samplePlatform (sampleInput mode items disclose) = .ok (sampleCpa mode parts signature) := by
  have hparts : (sampleBuilt parts).map (·.1) = parts := by
    rw [sampleBuilt, List.map_map]
    exact List.map_id parts
  have hdeclared : (sampleBuilt parts).map (·.2) = [blockOf userRoot, blockOf toolRoot] := by
    have hblocks : parts.map declaredRoot = (parts.map (·.partition_root)).map blockOf := by
      rw [List.map_map]
      rfl
    rw [sampleBuilt, List.map_map]
    exact hblocks.trans (congrArg (List.map blockOf) hroots)
  have hroot : hex (buildTopRootBytes samplePlatform ((sampleBuilt parts).map (·.2))) = sampleRoot := by
    rw [hdeclared, samplePlatform, blockOf, blockOf, userRoot, toolRoot, sampleRoot]
    repeat rw [lit_ofList]
    repeat rw [ascii_ofList]
    decide
  have hkey : samplePlatform.publicKeyFromPrivate samplePrivateKey = some samplePublicKey := by
    simp only [samplePlatform, if_true]
  rw [buildCPA]
  refine bind_eq_ok.mpr ⟨sampleBuilt parts, hbuilt, bind_eq_ok.mpr ⟨samplePublicKey, congrArg (orThrow · _) hkey, ?_⟩⟩
  rw [hparts, hroot]
  exact bind_eq_ok.mpr ⟨text, htext, bind_eq_ok.mpr ⟨signature, congrArg (orThrow · _) hsign, rfl⟩⟩

theorem sample_fullSet {items : List ContextItem}
    (h : items = sampleUser ++ [sampleTool] ∨ items = sampleTool :: sampleUser) :
    buildCPA samplePlatform (sampleInput .fullSet items []) = .ok (sampleCpa .fullSet sampleParts sampleSignature) := by
  refine sample_built sampleText ?_ rfl ?_ ?_
  · rw [samplePlatform, sampleBuilt, sampleParts, userRoot, toolRoot]
    repeat rw [lit_ofList]
    repeat rw [ascii_ofList]
    obtain rfl | rfl := h <;> decide +kernel
  · rw [sampleText, sampleCpa, sampleParts, samplePublicKey, userRoot, toolRoot, sampleRoot, sampleUser, sampleTool]
    repeat rw [lit_ofList]
    decide +kernel
  · simp [samplePlatform]

theorem sample_inclusion :
    buildCPA samplePlatform (sampleInput .inclusion (sampleTool :: sampleUser) [lit "u2"]) =
      .ok (sampleCpa .inclusion inclusionParts sampleInclusionSignature) := by
  refine sample_built sampleInclusionText ?_ rfl ?_ ?_
  · rw [samplePlatform, sampleBuilt, inclusionParts, sampleProof, userRoot, toolRoot]
    repeat rw [lit_ofList]
    repeat rw [ascii_ofList]
    decide +kernel
  · rw [sampleInclusionText, sampleCpa, inclusionParts, sampleProof, samplePublicKey, userRoot, toolRoot, sampleRoot,
      sampleSecond]
    repeat rw [lit_ofList]
    decide +kernel
  · have hne : sampleText ≠ sampleInclusionText := by decide +kernel
    simp [samplePlatform, hne]

theorem context_commitment_sample :
    buildCPA samplePlatform (sampleInput .fullSet (sampleUser ++ [sampleTool]) []) =
      .ok (sampleCpa .fullSet sampleParts sampleSignature) ∧
    buildCPA samplePlatform (sampleInput .fullSet (sampleTool :: sampleUser) []) =
      .ok (sampleCpa .fullSet sampleParts sampleSignature) ∧
    recompute samplePlatform (sampleCpa .fullSet sampleParts sampleSignature) = [] ∧
    SameLeaves (sampleUser ++ [sampleTool]) (sampleTool :: sampleUser) ∧
    recompute samplePlatform (sampleCpa .inclusion inclusionParts sampleInclusionSignature) = [] ∧
    verifyInclusionProof samplePlatform sampleSecond sampleProof userRoot = true ∧
    ∃ x ∈ sampleUser, SameLeaf x sampleSecond := by
  obtain ⟨-, hbuilds, hproof, -, hsame⟩ := context_commitment (P := samplePlatform) integerText_rendering
  have hfirst := sample_fullSet (.inl rfl)
  have hsecond := sample_fullSet (.inr rfl)
  have hfree : CollisionFree samplePlatform.sha256
      (fullSetInputs samplePlatform (sampleCpa .fullSet sampleParts sampleSignature)) := by
    apply CollisionFree.of_nodup
    rw [samplePlatform, sampleCpa, sampleParts, userRoot, toolRoot]
    repeat rw [lit_ofList]
    repeat rw [ascii_ofList]
    decide +kernel
  obtain ⟨hpasses, hdiscloses⟩ := hbuilds _ _ sample_inclusion
  -- of the user's partition the second item is disclosed, and its proof is the only one there
  have haccepted : verifyInclusionProof samplePlatform sampleSecond sampleProof userRoot = true := by
    obtain ⟨proof, hmem, haccepts⟩ :=
      ((hdiscloses rfl).2 _ List.mem_cons_self).proofs sampleSecond List.mem_cons_self
    obtain rfl := List.mem_singleton.mp hmem
    exact haccepts
  refine ⟨hfirst, hsecond, (hbuilds _ _ hfirst).1, ?_, hpasses, haccepted, ?_⟩
  · apply hsame _ _ _ _ hfirst hsecond rfl rfl _ rfl
    apply hfree.mono
    intro x hx
    exact (List.mem_append.mp hx).elim id id
  · refine hproof sampleUser (blockOf userRoot) _ sampleProof ?_ ?_ ?_
    · rw [samplePlatform, blockOf, userRoot]
      repeat rw [lit_ofList]
      repeat rw [ascii_ofList]
      decide +kernel
    · have hhex : hex (blockOf userRoot) = userRoot := by
        rw [blockOf, userRoot]
        repeat rw [lit_ofList]
        decide
      rw [hhex]
      exact haccepted
    · apply hfree.mono
      rw [samplePlatform, sampleCpa, sampleParts, userRoot, toolRoot, sampleProof]
      repeat rw [lit_ofList]
      repeat rw [ascii_ofList]
      decide +kernel

end AgentPassport.ContextCommitment
