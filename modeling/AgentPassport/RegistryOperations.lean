import AgentPassport.BinarySearch
import AgentPassport.MerkleTree
import AgentPassport.Outcome
import AgentPassport.ToolRegistry
import Mathlib.Data.List.Sort

/-! The operations of the tool registry (`registry.rs`): building it from a list, adding an entry
and replacing it by a fetched one. Every registry they reach is sorted, finds each tool by its hash
and by its id, and its root commits to its entries. -/
namespace AgentPassport.RegistryOperations
open ByteBlocks DecisionRecord ToolRegistry Outcome BinarySearch

inductive RegistryError where
  | duplicateLocalId (localId : UInt32)
  | duplicateDescriptorHash
  deriving DecidableEq

def RegistryError.message : RegistryError → String
  | .duplicateLocalId localId => "duplicate local_id: " ++ toString localId.toNat
  | .duplicateDescriptorHash => "duplicate descriptor hash"

inductive SyncError where
  | fetcher (reason : String)
  | build (error : RegistryError)
  deriving DecidableEq

def SyncError.message : SyncError → String
  | .fetcher reason => "fetcher error: " ++ reason
  | .build error => "registry build error: " ++ error.message

/-- The registry as it is stored: the entries, the index by hash, and the root kept beside them. -/
structure ToolRegistry where
  entries : List ToolEntry
  byHash : Block 32 → Option UInt32
  root : Block 32

/-- `by_hash.insert(hash, id)`. -/
def indexed (byHash : Block 32 → Option UInt32) (hash : Block 32) (localId : UInt32) : Block 32 → Option UInt32 :=
  fun h => if h = hash then some localId else byHash h

def sortByLocalId (entries : List ToolEntry) : List ToolEntry :=
  entries.insertionSort (fun a b => a.localId ≤ b.localId)

/-- One turn of the loop that fills the index. -/
def noteEntry (byHash : Block 32 → Option UInt32) (e : ToolEntry) :
    Except RegistryError (Block 32 → Option UInt32) :=
  if (byHash e.descriptorHash).isSome then throw .duplicateDescriptorHash
  else return indexed byHash e.descriptorHash e.localId

def checkNeighbours (a b : ToolEntry) : Except RegistryError Unit :=
  if a.localId = b.localId then throw (.duplicateLocalId a.localId) else pure ()

def positionOf (entries : List ToolEntry) (localId : UInt32) : Except Nat Nat :=
  binarySearch (entries.map (·.localId.toNat)) localId.toNat

section
variable (B : Blake3)

def new : ToolRegistry := ⟨[], fun _ => none, computeMerkleRoot B []⟩

def fromEntries (given : List ToolEntry) : Except RegistryError ToolRegistry := do
  let entries := sortByLocalId given
  forPairs (fun _ a b => checkNeighbours a b) 0 entries
  let byHash ← entries.foldlM noteEntry (fun _ => none)
  return ⟨entries, byHash, computeMerkleRoot B entries⟩

def add (r : ToolRegistry) (descriptorHash : Block 32) (localId : UInt32) :
    ToolRegistry × Except RegistryError Unit :=
  if r.entries.any (fun e => e.localId = localId) then (r, .error (.duplicateLocalId localId))
  else if (r.byHash descriptorHash).isSome then (r, .error .duplicateDescriptorHash)
  else
    let pos := match positionOf r.entries localId with
      | .ok i => i
      | .error i => i
    let entries := r.entries.take pos ++ ⟨descriptorHash, localId⟩ :: r.entries.drop pos
    (⟨entries, indexed r.byHash descriptorHash localId, computeMerkleRoot B entries⟩, .ok ())

/-- The registry after the call, and what the call returns; the fetcher's answer is an argument. -/
def sync (r : ToolRegistry) (fetched : Except String (List ToolEntry)) :
    ToolRegistry × Except SyncError (Block 32) :=
  match fetched with
  | .error reason => (r, .error (.fetcher reason))
  | .ok entries =>
    match fromEntries B entries with
    | .error e => (r, .error (.build e))
    | .ok fresh => (fresh, .ok fresh.root)

end

def getByHash (r : ToolRegistry) (hash : Block 32) : Option UInt32 := r.byHash hash

def getById (r : ToolRegistry) (id : UInt32) : Option (Block 32) :=
  match positionOf r.entries id with
  | .ok i => r.entries[i]?.map (·.descriptorHash)
  | .error _ => none

/-- Calls of `add`, one after the other, as long as they succeed. -/
def addAll (B : Blake3) (r : ToolRegistry) (given : List ToolEntry) : Except RegistryError ToolRegistry :=
  given.foldlM (fun r e =>
    match add B r e.descriptorHash e.localId with
    | (after, .ok ()) => .ok after
    | (_, .error e) => .error e) r

/-- Sorted without repetition, with the index and the root that belong to the entries. -/
structure WellFormed (B : Blake3) (r : ToolRegistry) : Prop where
  sorted : r.entries.Pairwise (fun a b => a.localId < b.localId)
  distinct : (r.entries.map (·.descriptorHash)).Nodup
  index : ∀ h id, r.byHash h = some id ↔ ⟨h, id⟩ ∈ r.entries
  root : r.root = computeMerkleRoot B r.entries

variable {B : Blake3}

theorem new_wellFormed : WellFormed B (new B) where
  sorted := List.Pairwise.nil
  distinct := List.nodup_nil
  index := by simp [new]
  root := rfl

theorem WellFormed.ext {r r' : ToolRegistry} (h : WellFormed B r) (h' : WellFormed B r')
    (heq : r.entries = r'.entries) : r = r' := by
  obtain ⟨entries, byHash, root⟩ := r
  obtain ⟨entries', byHash', root'⟩ := r'
  change entries = entries' at heq
  subst heq
  have hroot : root = root' := h.root.trans h'.root.symm
  have hindex : byHash = byHash' := by
    funext hash
    apply Option.ext
    intro id
    exact (h.index hash id).trans (h'.index hash id).symm
  rw [hroot, hindex]

theorem sorted_perm_eq {entries entries' : List ToolEntry}
    (h : entries.Pairwise (fun a b => a.localId < b.localId))
    (h' : entries'.Pairwise (fun a b => a.localId < b.localId)) (hperm : entries.Perm entries') :
    entries = entries' := by
  apply List.Perm.eq_of_pairwise _ h h' hperm
  intro a b _ _ hab hba
  exact absurd hab (UInt32.lt_asymm hba)

theorem WellFormed.eq_of_perm {r r' : ToolRegistry} (h : WellFormed B r) (h' : WellFormed B r')
    (hperm : r.entries.Perm r'.entries) : r = r' :=
  h.ext h' (sorted_perm_eq h.sorted h'.sorted hperm)

variable {r : ToolRegistry}

theorem WellFormed.ids_nodup (h : WellFormed B r) : (r.entries.map (·.localId)).Nodup := by
  rw [List.Nodup, List.pairwise_map]
  exact h.sorted.imp (fun hlt => UInt32.ne_of_lt hlt)

variable {entries : List ToolEntry}

theorem keys_sorted (h : entries.Pairwise (fun a b => a.localId < b.localId)) :
    (entries.map (·.localId.toNat)).Pairwise (· < ·) := by
  rw [List.pairwise_map]
  exact h.imp (fun hlt => UInt32.lt_iff_toNat_lt.mp hlt)

theorem WellFormed.getById_iff (h : WellFormed B r) (id : UInt32) (hash : Block 32) :
    getById r id = some hash ↔ ⟨hash, id⟩ ∈ r.entries := by
  have hfound := binarySearch_found (keys_sorted h.sorted) id.toNat
  rw [getById, positionOf]
  cases hsearch : binarySearch (r.entries.map (·.localId.toNat)) id.toNat with
  | ok i =>
    rw [hsearch, Found, List.getElem?_map, Option.map_eq_some_iff] at hfound
    obtain ⟨e, he, hid⟩ := hfound
    simp only [he, Option.map_some, Option.some.injEq]
    have hmem := List.mem_of_getElem? he
    have hid : e.localId = id := UInt32.toNat_inj.mp hid
    constructor
    · intro hhash
      rw [← hhash, ← hid]
      exact hmem
    · intro hmem'
      have heq := List.inj_on_of_nodup_map h.ids_nodup hmem hmem' hid
      rw [heq]
  | error i =>
    rw [hsearch] at hfound
    obtain ⟨-, hbefore, hafter⟩ := hfound
    simp only [reduceCtorEq, false_iff]
    intro hmem
    have hkey : id.toNat ∈ r.entries.map (·.localId.toNat) := List.mem_map_of_mem hmem
    rw [← List.take_append_drop i (r.entries.map (·.localId.toNat)), List.mem_append] at hkey
    obtain hkey | hkey := hkey
    · exact absurd (hbefore _ hkey) (Nat.lt_irrefl _)
    · exact absurd (hafter _ hkey) (Nat.lt_irrefl _)

theorem WellFormed.getByHash_iff (h : WellFormed B r) (id : UInt32) (hash : Block 32) :
    getByHash r hash = some id ↔ getById r id = some hash := by
  rw [h.getById_iff]
  exact h.index hash id

def WellFormed.view {r : ToolRegistry} (h : WellFormed B r) : Registry := ⟨r.entries, h.sorted, h.distinct⟩

theorem WellFormed.view_agrees (h : WellFormed B r) (id : UInt32) (hash : Block 32) :
    h.view.getById id = getById r id ∧ h.view.getByHash hash = getByHash r hash ∧
      h.view.currentRoot B = r.root := by
  refine ⟨?_, ?_, h.root.symm⟩
  · apply Option.ext
    intro hash
    exact (ToolRegistry.getById_iff h.view id hash).trans (h.getById_iff id hash).symm
  · apply Option.ext
    intro id
    exact (ToolRegistry.getByHash_iff h.view id hash).trans (h.index hash id).symm

theorem noteEntry_run : ∀ {byHash byHash' : Block 32 → Option UInt32},
    entries.foldlM noteEntry byHash = .ok byHash' →
    (∀ e ∈ entries, byHash e.descriptorHash = none) ∧ (entries.map (·.descriptorHash)).Nodup ∧
      ∀ h id, byHash' h = some id ↔ byHash h = some id ∨ ⟨h, id⟩ ∈ entries := by
  induction entries with
  | nil =>
    intro byHash byHash' hrun
    cases hrun
    simp
  | cons e rest ih =>
    intro byHash byHash' hrun
    rw [List.foldlM_cons] at hrun
    obtain ⟨middle, hstep, hrest⟩ := bind_eq_ok.mp hrun
    rw [noteEntry] at hstep
    split at hstep
    · cases hstep
    · rename_i hfree
      cases hstep
      obtain ⟨hnone, hnodup, hindex⟩ := ih hrest
      have hfree : byHash e.descriptorHash = none := Option.not_isSome_iff_eq_none.mp hfree
      have hne : ∀ e' ∈ rest, e'.descriptorHash ≠ e.descriptorHash := by
        intro e' he' heq
        have := hnone e' he'
        simp [indexed, heq] at this
      refine ⟨?_, ?_, ?_⟩
      · intro e' he'
        cases he' with
        | head => exact hfree
        | tail _ he' =>
          have := hnone e' he'
          rwa [indexed, if_neg (hne e' he')] at this
      · refine List.nodup_cons.mpr ⟨?_, hnodup⟩
        intro hmem
        obtain ⟨e', he', heq⟩ := List.mem_map.mp hmem
        exact hne e' he' heq
      · intro h id
        rw [hindex, indexed, List.mem_cons]
        by_cases heq : h = e.descriptorHash
        · subst heq
          rw [if_pos rfl, hfree]
          constructor
          · rintro (hid | hmem)
            · exact .inr (.inl (congrArg (ToolEntry.mk e.descriptorHash) (Option.some.inj hid).symm))
            · exact .inr (.inr hmem)
          · rintro (hid | hid | hmem)
            · cases hid
            · exact .inl (congrArg some (congrArg ToolEntry.localId hid).symm)
            · exact .inr hmem
        · rw [if_neg heq]
          constructor
          · rintro (hid | hmem)
            · exact .inl hid
            · exact .inr (.inr hmem)
          · rintro (hid | hid | hmem)
            · exact .inl hid
            · exact absurd (congrArg ToolEntry.descriptorHash hid) heq
            · exact .inr hmem

theorem noteEntry_total {entries : List ToolEntry} : ∀ {byHash : Block 32 → Option UInt32},
    (∀ e ∈ entries, byHash e.descriptorHash = none) → (entries.map (·.descriptorHash)).Nodup →
    ∃ byHash', entries.foldlM noteEntry byHash = .ok byHash' := by
  induction entries with
  | nil =>
    intro byHash _ _
    exact ⟨byHash, rfl⟩
  | cons e rest ih =>
    intro byHash hnone hnodup
    obtain ⟨he, hrest⟩ := List.nodup_cons.mp hnodup
    have hstep : noteEntry byHash e = .ok (indexed byHash e.descriptorHash e.localId) := by
      rw [noteEntry, hnone e List.mem_cons_self]
      rfl
    rw [List.foldlM_cons, hstep]
    apply ih _ hrest
    intro e' he'
    have hne : e'.descriptorHash ≠ e.descriptorHash := by
      intro heq
      apply he
      show e.descriptorHash ∈ _
      rw [← heq]
      exact List.mem_map_of_mem he'
    rw [indexed, if_neg hne]
    exact hnone e' (List.mem_cons_of_mem e he')

instance : Std.Total (fun a b : ToolEntry => a.localId ≤ b.localId) := ⟨fun a b => UInt32.le_total a.localId b.localId⟩
instance : IsTrans ToolEntry (fun a b => a.localId ≤ b.localId) := ⟨fun _ _ _ => UInt32.le_trans⟩

theorem sortByLocalId_perm (entries : List ToolEntry) : (sortByLocalId entries).Perm entries :=
  List.perm_insertionSort _ entries

theorem sortByLocalId_strict (h : (entries.map (·.localId)).Nodup) :
    (sortByLocalId entries).Pairwise (fun a b => a.localId < b.localId) := by
  have hsorted : (sortByLocalId entries).Pairwise (fun a b => a.localId ≤ b.localId) :=
    List.pairwise_insertionSort _ entries
  have hne : (sortByLocalId entries).Pairwise (fun a b => a.localId ≠ b.localId) := by
    rw [← ((sortByLocalId_perm entries).map (·.localId)).nodup_iff, List.Nodup, List.pairwise_map] at h
    exact h
  apply hsorted.imp₂ _ hne
  intro a b hle hne
  exact UInt32.lt_of_le_of_ne hle hne

theorem checkNeighbours_ok (a b : ToolEntry) : checkNeighbours a b = .ok () ↔ a.localId ≠ b.localId := by
  rw [checkNeighbours]
  split
  · rename_i heq
    simp [heq, throw, throwThe, MonadExceptOf.throw]
  · rename_i hne
    simp [hne, pure, Except.pure]

theorem strict_of_neighbours (hsorted : entries.Pairwise (fun a b => a.localId ≤ b.localId))
    (h : entries.IsChain (fun a b => a.localId ≠ b.localId)) : entries.Pairwise (fun a b => a.localId < b.localId) := by
  have hchain : entries.IsChain (fun a b => a.localId < b.localId) := by
    rw [List.isChain_iff_getElem] at h ⊢
    intro i hi
    exact UInt32.lt_of_le_of_ne (List.pairwise_iff_getElem.mp hsorted i (i + 1) _ _ (Nat.lt_succ_self i)) (h i hi)
  have : Trans (fun a b : ToolEntry => a.localId < b.localId) (fun a b : ToolEntry => a.localId < b.localId)
      (fun a b : ToolEntry => a.localId < b.localId) := ⟨fun h h' => UInt32.lt_trans h h'⟩
  exact hchain.pairwise

variable {given : List ToolEntry}

theorem fromEntries_wellFormed (h : fromEntries B given = .ok r) : WellFormed B r ∧ r.entries.Perm given := by
  rw [fromEntries] at h
  obtain ⟨hids, h⟩ := bind_unit_eq_ok.mp h
  obtain ⟨byHash, hindex, h⟩ := bind_eq_ok.mp h
  cases h
  have hneighbours := (forPairs_eq_ok (fun _ a b => checkNeighbours_ok a b) 0 _).mp hids
  obtain ⟨-, hdistinct, hindex⟩ := noteEntry_run hindex
  refine ⟨⟨strict_of_neighbours (List.pairwise_insertionSort _ given) hneighbours, hdistinct, ?_, rfl⟩,
    sortByLocalId_perm given⟩
  intro hash id
  rw [hindex]
  simp

/-- A list is accepted exactly when no id and no hash repeats, and the registry is the only
well-formed one with its entries. -/
theorem fromEntries_ok_iff : fromEntries B given = .ok r ↔
    (given.map (·.localId)).Nodup ∧ (given.map (·.descriptorHash)).Nodup ∧ WellFormed B r ∧
      r.entries.Perm given := by
  constructor
  · intro h
    obtain ⟨hwell, hperm⟩ := fromEntries_wellFormed h
    exact ⟨(hperm.map _).nodup_iff.mp hwell.ids_nodup, (hperm.map _).nodup_iff.mp hwell.distinct, hwell, hperm⟩
  · rintro ⟨hids, hhashes, hwell, hperm⟩
    have hstrict := sortByLocalId_strict hids
    have hchain : (sortByLocalId given).IsChain (fun a b => a.localId ≠ b.localId) :=
      (hstrict.imp (fun hlt => UInt32.ne_of_lt hlt)).isChain
    have hcheck := (forPairs_eq_ok (fun _ a b => checkNeighbours_ok a b) 0 _).mpr hchain
    obtain ⟨byHash, hindex⟩ := @noteEntry_total (sortByLocalId given) (fun _ => none) (fun _ _ => rfl)
      (((sortByLocalId_perm given).map (·.descriptorHash)).nodup_iff.mpr hhashes)
    have hbuilt : fromEntries B given =
        .ok ⟨sortByLocalId given, byHash, computeMerkleRoot B (sortByLocalId given)⟩ := by
      rw [fromEntries, hcheck]
      simp only [hindex, bind, Except.bind, pure, Except.pure]
    obtain ⟨hwell', hperm'⟩ := fromEntries_wellFormed hbuilt
    rw [hbuilt, hwell.eq_of_perm hwell' (hperm.trans hperm'.symm)]

theorem fromEntries_perm {given given' : List ToolEntry} (h : given.Perm given') :
    (fromEntries B given).toOption = (fromEntries B given').toOption := by
  have hok : ∀ r, fromEntries B given = .ok r ↔ fromEntries B given' = .ok r := by
    intro r
    rw [fromEntries_ok_iff, fromEntries_ok_iff, (h.map (·.localId)).nodup_iff, (h.map (·.descriptorHash)).nodup_iff]
    have hperm : r.entries.Perm given ↔ r.entries.Perm given' :=
      ⟨fun h' => h'.trans h, fun h' => h'.trans h.symm⟩
    rw [hperm]
  cases hr : fromEntries B given with
  | ok r =>
    rw [(hok r).mp hr]
  | error e =>
    cases hr' : fromEntries B given' with
    | ok r' =>
      rw [(hok r').mpr hr'] at hr
      cases hr
    | error e' => rfl

theorem add_failed {hash : Block 32} {id : UInt32} {e : RegistryError} (h : (add B r hash id).2 = .error e) :
    (add B r hash id).1 = r := by
  rw [add] at h ⊢
  split
  · rfl
  · rename_i hid
    rw [if_neg hid] at h
    split
    · rfl
    · rename_i hhash
      rw [if_neg hhash] at h
      cases h

theorem sync_failed {fetched : Except String (List ToolEntry)} {e : SyncError} (h : (sync B r fetched).2 = .error e) :
    (sync B r fetched).1 = r := by
  cases fetched with
  | error reason => rfl
  | ok entries =>
    rw [sync] at h ⊢
    cases hbuild : fromEntries B entries with
    | error e => rfl
    | ok fresh =>
      rw [hbuild] at h
      cases h

theorem WellFormed.hash_taken_iff (h : WellFormed B r) (hash : Block 32) :
    (r.byHash hash).isSome ↔ hash ∈ r.entries.map (·.descriptorHash) := by
  rw [Option.isSome_iff_exists, List.mem_map]
  constructor
  · rintro ⟨id, hid⟩
    exact ⟨_, (h.index hash id).mp hid, rfl⟩
  · rintro ⟨e, he, rfl⟩
    exact ⟨e.localId, (h.index _ _).mpr he⟩

theorem WellFormed.insert_sorted (h : WellFormed B r) (hash : Block 32) {id : UInt32}
    (hfree : id ∉ r.entries.map (·.localId)) : ∃ pos, positionOf r.entries id = .error pos ∧
      (r.entries.take pos ++ ⟨hash, id⟩ :: r.entries.drop pos).Pairwise (fun a b => a.localId < b.localId) := by
  have hfound := binarySearch_found (keys_sorted h.sorted) id.toNat
  rw [positionOf]
  cases hsearch : binarySearch (r.entries.map (·.localId.toNat)) id.toNat with
  | ok i =>
    rw [hsearch, Found, List.getElem?_map, Option.map_eq_some_iff] at hfound
    obtain ⟨e, he, hid⟩ := hfound
    exact absurd (List.mem_map.mpr ⟨e, List.mem_of_getElem? he, UInt32.toNat_inj.mp hid⟩) hfree
  | error pos =>
    rw [hsearch] at hfound
    obtain ⟨-, hbefore, hafter⟩ := hfound
    rw [← List.map_take, List.forall_mem_map] at hbefore
    rw [← List.map_drop, List.forall_mem_map] at hafter
    refine ⟨pos, rfl, ?_⟩
    have hsplit := h.sorted
    rw [← List.take_append_drop pos r.entries, List.pairwise_append] at hsplit
    obtain ⟨htake, hdrop, hcross⟩ := hsplit
    rw [List.pairwise_append, List.pairwise_cons]
    refine ⟨htake, ⟨fun e he => UInt32.lt_iff_toNat_lt.mpr (hafter e he), hdrop⟩, ?_⟩
    intro a ha b hb
    cases hb with
    | head => exact UInt32.lt_iff_toNat_lt.mpr (hbefore a ha)
    | tail _ hb => exact hcross a ha b hb

theorem WellFormed.add_ok_iff (h : WellFormed B r) (e : ToolEntry) : ((add B r e.descriptorHash e.localId).2 = .ok () ↔
      e.localId ∉ r.entries.map (·.localId) ∧ e.descriptorHash ∉ r.entries.map (·.descriptorHash)) ∧
    ((add B r e.descriptorHash e.localId).2 = .ok () →
      WellFormed B (add B r e.descriptorHash e.localId).1 ∧
        (add B r e.descriptorHash e.localId).1.entries.Perm (r.entries ++ [e])) := by
  have hid_iff : r.entries.any (fun e' => e'.localId = e.localId) = true ↔ e.localId ∈ r.entries.map (·.localId) := by
    simp [List.any_eq_true, List.mem_map]
  have hhash_iff := h.hash_taken_iff e.descriptorHash
  rw [add]
  by_cases hid : r.entries.any (fun e' => e'.localId = e.localId) = true
  · rw [if_pos hid]
    have hrefused : ¬ (Except.error (RegistryError.duplicateLocalId e.localId) : Except RegistryError Unit) = .ok () := by
      intro hok
      cases hok
    refine ⟨⟨fun hok => absurd hok hrefused, ?_⟩, fun hok => absurd hok hrefused⟩
    intro hfree
    exact absurd (hid_iff.mp hid) hfree.1
  · rw [if_neg hid]
    by_cases hhash : (r.byHash e.descriptorHash).isSome = true
    · rw [if_pos hhash]
      have hrefused : ¬ (Except.error RegistryError.duplicateDescriptorHash : Except RegistryError Unit) = .ok () := by
        intro hok
        cases hok
      refine ⟨⟨fun hok => absurd hok hrefused, ?_⟩, fun hok => absurd hok hrefused⟩
      intro hfree
      exact absurd (hhash_iff.mp hhash) hfree.2
    · rw [if_neg hhash]
      have hid_free : e.localId ∉ r.entries.map (·.localId) := fun hmem => hid (hid_iff.mpr hmem)
      have hhash_free : e.descriptorHash ∉ r.entries.map (·.descriptorHash) := fun hmem => hhash (hhash_iff.mpr hmem)
      obtain ⟨pos, hpos, hsorted⟩ := h.insert_sorted e.descriptorHash hid_free
      simp only [hpos, true_iff]
      refine ⟨⟨hid_free, hhash_free⟩, fun _ => ?_⟩
      have hperm : (r.entries.take pos ++ e :: r.entries.drop pos).Perm (e :: r.entries) := by
        refine List.perm_middle.trans ?_
        rw [List.take_append_drop]
      refine ⟨⟨hsorted, ?_, ?_, rfl⟩, hperm.trans (List.perm_append_singleton e r.entries).symm⟩
      · rw [(hperm.map (·.descriptorHash)).nodup_iff]
        exact List.nodup_cons.mpr ⟨hhash_free, h.distinct⟩
      · intro hash id
        change indexed r.byHash e.descriptorHash e.localId hash = some id ↔ _
        rw [hperm.mem_iff, List.mem_cons, indexed]
        by_cases heq : hash = e.descriptorHash
        · subst heq
          rw [if_pos rfl]
          constructor
          · intro hsome
            exact .inl (congrArg (ToolEntry.mk e.descriptorHash) (Option.some.inj hsome).symm)
          · rintro (heq | hmem)
            · exact congrArg some (congrArg ToolEntry.localId heq).symm
            · exact absurd (List.mem_map_of_mem (f := (·.descriptorHash)) hmem) hhash_free
        · rw [if_neg heq, h.index]
          constructor
          · exact .inr
          · rintro (heq' | hmem)
            · exact absurd (congrArg ToolEntry.descriptorHash heq') heq
            · exact hmem

theorem addAll_wellFormed : ∀ {r r' : ToolRegistry}, WellFormed B r →
    addAll B r given = .ok r' → WellFormed B r' ∧ r'.entries.Perm (r.entries ++ given) := by
  induction given with
  | nil =>
    intro r r' h hrun
    cases hrun
    rw [List.append_nil]
    exact ⟨h, List.Perm.refl _⟩
  | cons e rest ih =>
    intro r r' h hrun
    rw [addAll, List.foldlM_cons] at hrun
    obtain ⟨middle, hstep, hrest⟩ := bind_eq_ok.mp hrun
    split at hstep
    · rename_i after hadd
      cases hstep
      have hok := (h.add_ok_iff e).2 (by rw [hadd])
      rw [hadd] at hok
      obtain ⟨hwell, hperm⟩ := ih hok.1 hrest
      refine ⟨hwell, hperm.trans ?_⟩
      rw [List.append_cons]
      exact hok.2.append_right rest
    · cases hstep

theorem addAll_total : ∀ {r : ToolRegistry}, WellFormed B r →
    ((r.entries ++ given).map (·.localId)).Nodup → ((r.entries ++ given).map (·.descriptorHash)).Nodup →
    ∃ r', addAll B r given = .ok r' := by
  induction given with
  | nil =>
    intro r _ _ _
    exact ⟨r, rfl⟩
  | cons e rest ih =>
    intro r h hids hhashes
    have hfree : e.localId ∉ r.entries.map (·.localId) ∧ e.descriptorHash ∉ r.entries.map (·.descriptorHash) := by
      rw [List.map_append, List.nodup_append] at hids hhashes
      constructor
      · intro hmem
        exact hids.2.2 _ hmem _ List.mem_cons_self rfl
      · intro hmem
        exact hhashes.2.2 _ hmem _ List.mem_cons_self rfl
    have hok := (h.add_ok_iff e).1.mpr hfree
    obtain ⟨hwell, hperm⟩ := (h.add_ok_iff e).2 hok
    have hsame : ((add B r e.descriptorHash e.localId).1.entries ++ rest).Perm (r.entries ++ e :: rest) := by
      rw [List.append_cons]
      exact hperm.append_right rest
    obtain ⟨r', hr'⟩ := ih hwell ((hsame.map _).nodup_iff.mpr hids) ((hsame.map _).nodup_iff.mpr hhashes)
    refine ⟨r', ?_⟩
    rw [addAll, List.foldlM_cons]
    cases hadd : add B r e.descriptorHash e.localId with
    | mk after result =>
      rw [hadd] at hok hr'
      change result = .ok () at hok
      subst hok
      exact hr'

theorem addAll_eq_fromEntries : addAll B (new B) given = .ok r ↔ fromEntries B given = .ok r := by
  constructor
  · intro h
    obtain ⟨hwell, hperm⟩ := addAll_wellFormed new_wellFormed h
    exact fromEntries_ok_iff.mpr ⟨(hperm.map _).nodup_iff.mp hwell.ids_nodup,
      (hperm.map _).nodup_iff.mp hwell.distinct, hwell, hperm⟩
  · intro h
    obtain ⟨hids, hhashes, hwell, hperm⟩ := fromEntries_ok_iff.mp h
    obtain ⟨r', hr'⟩ := addAll_total (@new_wellFormed B) hids hhashes
    obtain ⟨hwell', hperm'⟩ := addAll_wellFormed new_wellFormed hr'
    rw [hr', hwell.eq_of_perm hwell' (hperm.trans hperm'.symm)]

/-- The registries a program can hold. -/
inductive Reachable (B : Blake3) : ToolRegistry → Prop
  | new : Reachable B (new B)
  | fromEntries {given : List ToolEntry} {r : ToolRegistry} (built : fromEntries B given = .ok r) : Reachable B r
  | add {r : ToolRegistry} (before : Reachable B r) (hash : Block 32) (id : UInt32) :
      Reachable B (add B r hash id).1
  | sync {r : ToolRegistry} (before : Reachable B r) (fetched : Except String (List ToolEntry)) :
      Reachable B (sync B r fetched).1

theorem Reachable.wellFormed (h : Reachable B r) : WellFormed B r := by
  induction h with
  | new => exact new_wellFormed
  | fromEntries built => exact (fromEntries_wellFormed built).1
  | @add r _ hash id ih =>
    cases hresult : (RegistryOperations.add B r hash id).2 with
    | ok u => exact ((ih.add_ok_iff ⟨hash, id⟩).2 hresult).1
    | error e =>
      rw [add_failed hresult]
      exact ih
  | @sync r _ fetched ih =>
    cases hresult : (RegistryOperations.sync B r fetched).2 with
    | error e =>
      rw [sync_failed hresult]
      exact ih
    | ok root =>
      cases fetched with
      | error reason => cases hresult
      | ok entries =>
        rw [RegistryOperations.sync] at hresult ⊢
        cases hbuild : RegistryOperations.fromEntries B entries with
        | error e =>
          rw [hbuild] at hresult
          cases hresult
        | ok fresh => exact (fromEntries_wellFormed hbuild).1

/-- Whatever was done to the registry, the checks read it as it answers. -/
theorem reachable_view (h : Reachable B r) : ∃ view : Registry, view.entries = r.entries ∧
    view.currentRoot B = r.root ∧ ∀ id hash, view.getById id = getById r id ∧ view.getByHash hash = getByHash r hash :=
  ⟨h.wellFormed.view, rfl, h.wellFormed.root.symm, fun id hash =>
    ⟨(h.wellFormed.view_agrees id hash).1, (h.wellFormed.view_agrees id hash).2.1⟩⟩

def leafInput (e : ToolEntry) : List UInt8 := toLe 4 e.localId.toNat ++ e.descriptorHash.bytes

def pairInput (p : Block 32 × Block 32) : List UInt8 := p.1.bytes ++ p.2.bytes

/-- What is hashed above a level, in the rounds of `merkleUp`. -/
def nodeInputs (B : Blake3) : Nat → List (Block 32) → List (List UInt8)
  | fuel + 1, a :: b :: rest =>
    (MerkleTree.pairs (a :: b :: rest)).map pairInput ++ nodeInputs B fuel (merkleLevel B (a :: b :: rest))
  | _, _ => []

def merkleInputs (B : Blake3) : List ToolEntry → List (List UInt8)
  | [] => [[]]
  | entries => entries.map leafInput ++ nodeInputs B entries.length (entries.map (leafHash B))

def CollisionFree (B : Blake3) (inputs : List (List UInt8)) : Prop :=
  ∀ x ∈ inputs, ∀ y ∈ inputs, B.hash x = B.hash y → x = y

instance (B : Blake3) (inputs : List (List UInt8)) : Decidable (CollisionFree B inputs) :=
  inferInstanceAs (Decidable (∀ x ∈ inputs, ∀ y ∈ inputs, B.hash x = B.hash y → x = y))

def joined (B : Blake3) (p : Block 32 × Block 32) : Block 32 := pairHash B p.1 p.2

theorem merkleLevel_eq (B : Blake3) (level : List (Block 32)) : merkleLevel B level = MerkleTree.up (joined B) level := by
  fun_induction merkleLevel B level with
  | case1 => rfl
  | case2 a => rfl
  | case3 a b rest ih =>
    rw [ih]
    rfl

theorem up_length (B : Blake3) (level : List (Block 32)) :
    (MerkleTree.up (joined B) level).length = (level.length + 1) / 2 := by
  rw [MerkleTree.up, List.length_map]
  fun_induction MerkleTree.pairs level with
  | case1 => rfl
  | case2 a => simp
  | case3 a b rest ih =>
    simp only [List.length_cons, ih]
    omega

theorem merkleUp_ascends (B : Blake3) {fuel : Nat} : ∀ {level : List (Block 32)}, level ≠ [] →
    level.length ≤ fuel + 1 → ∃ n r, merkleUp B fuel level = [r] ∧ MerkleTree.Ascends (joined B) n level r ∧
      ∀ p ∈ MerkleTree.formed (joined B) n level, pairInput p ∈ nodeInputs B fuel level := by
  have hsingle : ∀ (fuel : Nat) (r : Block 32), ∃ n r', merkleUp B fuel [r] = [r'] ∧
      MerkleTree.Ascends (joined B) n [r] r' ∧
      ∀ p ∈ MerkleTree.formed (joined B) n [r], pairInput p ∈ nodeInputs B fuel [r] := by
    intro fuel r
    refine ⟨0, r, ?_, .root r, ?_⟩
    · cases fuel <;> rfl
    · intro p hp
      cases hp
  induction fuel with
  | zero =>
    intro level hne hlength
    match level with
    | [r] => exact hsingle 0 r
    | _ :: _ :: _ => simp at hlength
  | succ fuel ih =>
    intro level hne hlength
    match level with
    | [r] => exact hsingle (fuel + 1) r
    | a :: b :: rest =>
      have hup : (MerkleTree.up (joined B) (a :: b :: rest)).length = ((a :: b :: rest).length + 1) / 2 :=
        up_length B _
      have hne' : MerkleTree.up (joined B) (a :: b :: rest) ≠ [] := by
        intro hnil
        rw [hnil] at hup
        simp at hup
        omega
      obtain ⟨n, r, hrun, hascends, hinputs⟩ := ih hne' (by simp only [List.length_cons] at hup hlength; omega)
      rw [merkleUp, nodeInputs, merkleLevel_eq]
      refine ⟨n + 1, r, hrun, .step hascends, ?_⟩
      intro p hp
      rw [MerkleTree.formed, List.mem_append] at hp
      rw [List.mem_append]
      obtain hp | hp := hp
      · exact .inl (List.mem_map_of_mem hp)
      · exact .inr (hinputs p hp)

theorem leafInput_inj {e e' : ToolEntry} (h : leafInput e = leafInput e') : e = e' := by
  have hlength : (toLe 4 e.localId.toNat).length = (toLe 4 e'.localId.toNat).length := by
    rw [toLe_length, toLe_length]
  obtain ⟨hid, hhash⟩ := List.append_inj h hlength
  have hid : e.localId = e'.localId := by
    have hread := congrArg ofLe hid
    rw [ofLe_toLe 4 _ e.localId.toNat_lt, ofLe_toLe 4 _ e'.localId.toNat_lt] at hread
    exact UInt32.toNat_inj.mp hread
  cases e
  cases e'
  cases hid
  cases Block.ext_bytes hhash
  rfl

theorem pairInput_inj {p q : Block 32 × Block 32} (h : pairInput p = pairInput q) : p = q := by
  have hlength : p.1.bytes.length = q.1.bytes.length := by
    rw [Block.length_bytes, Block.length_bytes]
  obtain ⟨hfirst, hsecond⟩ := List.append_inj h hlength
  exact Prod.ext (Block.ext_bytes hfirst) (Block.ext_bytes hsecond)

theorem leafInput_ne_pairInput (e : ToolEntry) (p : Block 32 × Block 32) : leafInput e ≠ pairInput p := by
  intro h
  have hlength := congrArg List.length h
  rw [leafInput, pairInput, List.length_append, List.length_append, toLe_length] at hlength
  simp only [Block.length_bytes] at hlength
  omega

/-- A root with what it takes to tell leaves and nodes apart. -/
structure Rooted (B : Blake3) (inputs : List (List UInt8)) (entries : List ToolEntry) (n : Nat) (r : Block 32) :
    Prop where
  root : computeMerkleRoot B entries = r
  leaves : (entries.map (leafHash B)).Nodup
  ascends : MerkleTree.Ascends (joined B) n (entries.map (leafHash B)) r
  formed : ∀ p ∈ MerkleTree.formed (joined B) n (entries.map (leafHash B)), pairInput p ∈ inputs
  leafInputs : ∀ e ∈ entries, leafInput e ∈ inputs

variable {inputs : List (List UInt8)}

theorem exists_rooted (hne : entries ≠ []) (hnodup : entries.Nodup) (hfree : CollisionFree B inputs)
    (hsub : ∀ x ∈ merkleInputs B entries, x ∈ inputs) : ∃ n r, Rooted B inputs entries n r := by
  have hinputs : merkleInputs B entries =
      entries.map leafInput ++ nodeInputs B entries.length (entries.map (leafHash B)) := by
    cases entries with
    | nil => exact absurd rfl hne
    | cons e rest => rfl
  rw [hinputs] at hsub
  have hleaf : ∀ e ∈ entries, leafInput e ∈ inputs :=
    fun e he => hsub _ (List.mem_append_left _ (List.mem_map_of_mem he))
  have hleaves : (entries.map (leafHash B)).Nodup := by
    apply List.Nodup.map_on _ hnodup
    intro e he e' he' heq
    exact leafInput_inj (hfree _ (hleaf e he) _ (hleaf e' he') heq)
  have hne' : entries.map (leafHash B) ≠ [] := by simpa using hne
  obtain ⟨n, r, hrun, hascends, hformed⟩ := merkleUp_ascends B hne' (by rw [List.length_map]; exact Nat.le_succ _)
  refine ⟨n, r, ?_, hleaves, hascends, ?_, hleaf⟩
  · rw [computeMerkleRoot, hrun]
  · intro p hp
    exact hsub _ (List.mem_append_right _ (hformed p hp))

theorem CollisionFree.separates (h : CollisionFree B inputs) :
    MerkleTree.Separates (joined B) (fun p => pairInput p ∈ inputs) := by
  intro p q hp hq heq
  exact pairInput_inj (h _ hp _ hq heq)

theorem mem_iterate_up {k n : Nat} {level : List (Block 32)} {node : Block 32} (hk : 0 < k) (hkn : k ≤ n)
    (h : node ∈ (MerkleTree.up (joined B))^[k] level) :
    ∃ p ∈ MerkleTree.formed (joined B) n level, node = joined B p := by
  obtain ⟨k, rfl⟩ : ∃ j, k = j + 1 := ⟨k - 1, by omega⟩
  rw [Function.iterate_succ_apply', MerkleTree.up, List.mem_map] at h
  obtain ⟨p, hp, rfl⟩ := h
  exact ⟨p, MerkleTree.pairs_formed (joined B) (by omega) p hp, rfl⟩

theorem Rooted.height_le {entries entries' : List ToolEntry} {n m : Nat} {r : Block 32}
    (h : Rooted B inputs entries n r) (h' : Rooted B inputs entries' m r) (hne : entries ≠ [])
    (hfree : CollisionFree B inputs) (hnm : n ≤ m) : entries.map (leafHash B) = entries'.map (leafHash B) := by
  have hlevel := hfree.separates.level_eq h.ascends h'.ascends hnm h.leaves h'.leaves h.formed h'.formed
  by_cases heq : m - n = 0
  · rw [heq] at hlevel
    exact hlevel
  · -- A leaf of the lower tree would be an inner node of the higher one.
    obtain ⟨e, he⟩ := List.exists_mem_of_ne_nil _ hne
    have hmem : leafHash B e ∈ entries.map (leafHash B) := List.mem_map_of_mem he
    rw [hlevel] at hmem
    obtain ⟨p, hp, hjoin⟩ := mem_iterate_up (by omega) (Nat.sub_le m n) hmem
    exact absurd (hfree _ (h.leafInputs e he) _ (h'.formed p hp) hjoin) (leafInput_ne_pairInput e p)

theorem leaves_inj {entries entries' : List ToolEntry} (hfree : CollisionFree B inputs)
    (h : ∀ e ∈ entries, leafInput e ∈ inputs) (h' : ∀ e ∈ entries', leafInput e ∈ inputs)
    (heq : entries.map (leafHash B) = entries'.map (leafHash B)) : entries = entries' := by
  induction entries generalizing entries' with
  | nil =>
    cases entries' with
    | nil => rfl
    | cons e rest => cases heq
  | cons e rest ih =>
    cases entries' with
    | nil => cases heq
    | cons e' rest' =>
      obtain ⟨hfirst, hrest⟩ := List.cons.inj heq
      rw [leafInput_inj (hfree _ (h e List.mem_cons_self) _ (h' e' List.mem_cons_self) hfirst),
        ih (fun e he => h e (List.mem_cons_of_mem _ he)) (fun e he => h' e (List.mem_cons_of_mem _ he)) hrest]

theorem Rooted.ne_empty {n : Nat} {r : Block 32} (h : Rooted B inputs entries n r) (hfree : CollisionFree B inputs)
    (hempty : [] ∈ inputs) : B.hash [] ≠ r := by
  intro heq
  cases n with
  | zero =>
    have hlevel := h.ascends.iterate
    change entries.map (leafHash B) = [r] at hlevel
    obtain ⟨e, he, hleaf⟩ := List.mem_map.mp (hlevel ▸ List.mem_singleton_self r : r ∈ entries.map (leafHash B))
    have hnil := hfree _ hempty _ (h.leafInputs e he) (heq.trans hleaf.symm)
    have hlength := congrArg List.length hnil
    rw [leafInput, List.length_append, toLe_length, Block.length_bytes] at hlength
    cases hlength
  | succ n =>
    have hlevel := h.ascends.iterate
    have hmem : r ∈ (MerkleTree.up (joined B))^[n + 1] (entries.map (leafHash B)) := by
      rw [hlevel]
      exact List.mem_singleton_self r
    obtain ⟨p, hp, hjoin⟩ := mem_iterate_up (Nat.succ_pos n) (Nat.le_refl _) hmem
    have hnil := hfree _ hempty _ (h.formed p hp) (heq.trans hjoin)
    have hlength := congrArg List.length hnil
    rw [pairInput, List.length_append, Block.length_bytes, Block.length_bytes] at hlength
    cases hlength

theorem entries_of_root {entries entries' : List ToolEntry} (hnodup : entries.Nodup) (hnodup' : entries'.Nodup)
    (hfree : CollisionFree B (merkleInputs B entries ++ merkleInputs B entries'))
    (h : computeMerkleRoot B entries = computeMerkleRoot B entries') : entries = entries' := by
  have hsub : ∀ x ∈ merkleInputs B entries, x ∈ merkleInputs B entries ++ merkleInputs B entries' :=
    fun x hx => List.mem_append_left _ hx
  have hsub' : ∀ x ∈ merkleInputs B entries', x ∈ merkleInputs B entries ++ merkleInputs B entries' :=
    fun x hx => List.mem_append_right _ hx
  by_cases hne : entries = []
  · by_cases hne' : entries' = []
    · rw [hne, hne']
    · obtain ⟨n, r, hrooted⟩ := exists_rooted hne' hnodup' hfree hsub'
      subst hne
      exact absurd (h.trans hrooted.root) (hrooted.ne_empty hfree (hsub _ (List.mem_singleton_self _)))
  · obtain ⟨n, r, hrooted⟩ := exists_rooted hne hnodup hfree hsub
    by_cases hne' : entries' = []
    · subst hne'
      exact absurd (h.symm.trans hrooted.root) (hrooted.ne_empty hfree (hsub' _ (List.mem_singleton_self _)))
    · obtain ⟨m, r', hrooted'⟩ := exists_rooted hne' hnodup' hfree hsub'
      have hr : r' = r := by rw [← hrooted'.root, ← h, hrooted.root]
      subst hr
      apply leaves_inj hfree hrooted.leafInputs hrooted'.leafInputs
      obtain hnm | hmn := Nat.le_total n m
      · exact hrooted.height_le hrooted' hne hfree hnm
      · exact (hrooted'.height_le hrooted hne' hfree hmn).symm
/-- The root commits to the entries, the order of a list does not matter, adding and building agree,
and every registry a program can hold is sorted, is searched both ways alike and is left alone by
calls that fail. -/
theorem registry_commits (B : Blake3) :
    (∀ given given' r r', fromEntries B given = .ok r → fromEntries B given' = .ok r' →
      CollisionFree B (merkleInputs B r.entries ++ merkleInputs B r'.entries) → r.root = r'.root →
      given.Perm given' ∧ r = r') ∧
    (∀ given given', given.Perm given' → (fromEntries B given).toOption = (fromEntries B given').toOption) ∧
    (∀ given r, addAll B (new B) given = .ok r ↔ fromEntries B given = .ok r) ∧
    (∀ r, Reachable B r →
      r.entries.Pairwise (fun a b => a.localId < b.localId) ∧
      (∀ hash id, getByHash r hash = some id ↔ getById r id = some hash) ∧
      (∀ hash id e, (add B r hash id).2 = .error e → (add B r hash id).1 = r) ∧
      (∀ fetched e, (sync B r fetched).2 = .error e → (sync B r fetched).1 = r)) := by
  refine ⟨?_, fun given given' h => fromEntries_perm h, fun given r => addAll_eq_fromEntries, ?_⟩
  · intro given given' r r' h h' hfree hroot
    obtain ⟨hwell, hperm⟩ := fromEntries_wellFormed h
    obtain ⟨hwell', hperm'⟩ := fromEntries_wellFormed h'
    have hentries : r.entries = r'.entries := by
      apply entries_of_root (List.Nodup.of_map _ hwell.distinct) (List.Nodup.of_map _ hwell'.distinct) hfree
      rw [← hwell.root, ← hwell'.root, hroot]
    refine ⟨?_, hwell.ext hwell' hentries⟩
    exact (hperm.symm.trans (List.Perm.of_eq hentries)).trans hperm'
  · intro r h
    have hwell := h.wellFormed
    exact ⟨hwell.sorted, fun hash id => hwell.getByHash_iff id hash, fun hash id e => add_failed,
      fun fetched e => sync_failed⟩

def threeTools : List ToolEntry :=
  [⟨Block.fill 32 1, 1⟩, ⟨Block.fill 32 2, 2⟩, ⟨Block.fill 32 3, 3⟩]

def threeDigests : Blake3 :=
  let first := leBlock 32 0x82d03bb65ac97f78fcdd9d87404e2bb670a12c977d8d199f3570f59778e9cf35
  let second := leBlock 32 0xd92e8ac64787abaec7ca214d205716bae4e4b2aa69c70b4ec9b07121568f2e97
  let third := leBlock 32 0x5e2402bf63e569cefa18dc0654ade0e4f93c3df21ef5bb4d4d8d86a4062fea2f
  let left := leBlock 32 0x416672315161dc3d10325c3a3ce2ea2c9e27d40b0c0139aada8490c7e888c01c
  let right := leBlock 32 0x73660ee666e7500404637a8ef3a6f0466acfc9f051a4cd1a84397aac82d87f5d
  .ofTable
    [(toLe 4 1 ++ (Block.fill 32 1).bytes, first), (toLe 4 2 ++ (Block.fill 32 2).bytes, second),
      (toLe 4 3 ++ (Block.fill 32 3).bytes, third), (first.bytes ++ second.bytes, left),
      (third.bytes ++ third.bytes, right),
      (left.bytes ++ right.bytes, leBlock 32 0x26893a226662a55c616018768dbef8d6348a09fd1c9cc11a9173ee961109bacf)]
    [] []

theorem reachable_view_added : ∃ view : Registry, view.getById 2 = some (Block.fill 32 2) ∧
    view.getByHash (Block.fill 32 1) = some 1 := by
  obtain ⟨view, -, -, hview⟩ := reachable_view
    ((Reachable.new.add (Block.fill 32 2) 2).add (B := threeDigests) (Block.fill 32 1) 1)
  refine ⟨view, ?_, ?_⟩
  · rw [(hview 2 (Block.fill 32 1)).1]
    decide
  · rw [(hview 2 (Block.fill 32 1)).2]
    decide

theorem registry_commits_three : ∃ r r',
    fromEntries threeDigests threeTools.reverse = .ok r ∧ fromEntries threeDigests threeTools = .ok r' ∧
    r.root = leBlock 32 0x26893a226662a55c616018768dbef8d6348a09fd1c9cc11a9173ee961109bacf ∧
    threeTools.reverse.Perm threeTools ∧ r = r' := by
  have hread : ∀ (given : List ToolEntry) (v : List ToolEntry × Block 32),
      (fromEntries threeDigests given).toOption.map (fun r => (r.entries, r.root)) = some v →
      ∃ r, fromEntries threeDigests given = .ok r ∧ (r.entries, r.root) = v := fun _ _ h => exists_ok_of_map h
  obtain ⟨r, hr, hshape⟩ := hread threeTools.reverse
    (threeTools, leBlock 32 0x26893a226662a55c616018768dbef8d6348a09fd1c9cc11a9173ee961109bacf) (by decide)
  obtain ⟨r', hr', hshape'⟩ := hread threeTools
    (threeTools, leBlock 32 0x26893a226662a55c616018768dbef8d6348a09fd1c9cc11a9173ee961109bacf) (by decide)
  obtain ⟨hentries, hroot⟩ := Prod.mk.inj hshape
  obtain ⟨hentries', hroot'⟩ := Prod.mk.inj hshape'
  have hfree : CollisionFree threeDigests (merkleInputs threeDigests r.entries ++ merkleInputs threeDigests r'.entries) := by
    rw [hentries, hentries']
    decide
  obtain ⟨hperm, heq⟩ := (registry_commits threeDigests).1 threeTools.reverse threeTools r r' hr hr' hfree
    (hroot.trans hroot'.symm)
  exact ⟨r, r', hr, hr', hroot, hperm, heq⟩

end AgentPassport.RegistryOperations
