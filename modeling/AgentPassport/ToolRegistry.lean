import AgentPassport.DecisionRecord
import Mathlib.Data.List.Nodup

/-! The local tool registry: descriptor hashes, local ids and their Merkle root. -/
namespace AgentPassport.ToolRegistry
open ByteBlocks DecisionRecord

structure ToolEntry where
  descriptorHash : Block 32
  localId : UInt32
  deriving DecidableEq

/-- Entries are kept sorted by local id, and neither an id nor a descriptor repeats. -/
structure Registry where
  entries : List ToolEntry
  sorted : entries.Pairwise (fun a b => a.localId < b.localId)
  distinct : (entries.map (·.descriptorHash)).Nodup

def Registry.getByHash (r : Registry) (h : Block 32) : Option UInt32 :=
  (r.entries.find? (fun e => e.descriptorHash = h)).map (·.localId)

/-- Ids do not repeat, so the binary search finds the only entry with this id. -/
def Registry.getById (r : Registry) (id : UInt32) : Option (Block 32) :=
  (r.entries.find? (fun e => e.localId = id)).map (·.descriptorHash)

def Registry.maxLocalId (r : Registry) : Option UInt32 := r.entries.getLast?.map (·.localId)

def leafHash (B : Blake3) (e : ToolEntry) : Block 32 :=
  B.hash (toLe 4 e.localId.toNat ++ e.descriptorHash.bytes)

def pairHash (B : Blake3) (left right : Block 32) : Block 32 :=
  B.hash (left.bytes ++ right.bytes)

/-- One level up; at an odd level the last node is paired with itself. -/
def merkleLevel (B : Blake3) : List (Block 32) → List (Block 32)
  | [] => []
  | [a] => [pairHash B a a]
  | a :: b :: rest => pairHash B a b :: merkleLevel B rest

/-- `while level.len() > 1`; a level is at most half the one below it, so the number of
leaves bounds the number of rounds. -/
def merkleUp (B : Blake3) : Nat → List (Block 32) → List (Block 32)
  | fuel+1, a :: b :: rest => merkleUp B fuel (merkleLevel B (a :: b :: rest))
  | _, level => level

def computeMerkleRoot (B : Blake3) (entries : List ToolEntry) : Block 32 :=
  match merkleUp B entries.length (entries.map (leafHash B)) with
  | [] => B.hash []
  | root :: _ => root

def Registry.currentRoot (B : Blake3) (r : Registry) : Block 32 := computeMerkleRoot B r.entries

theorem registry_ids_nodup (r : Registry) : (r.entries.map (·.localId)).Nodup := by
  refine List.pairwise_map.mpr (r.sorted.imp ?_)
  intro a b hab heq
  rw [heq] at hab
  exact UInt32.lt_irrefl _ hab

theorem find_iff {κ α : Type} [DecidableEq κ] {key : ToolEntry → κ} {entries : List ToolEntry}
    (hnodup : (entries.map key).Nodup) (k : κ) (val : ToolEntry → α) (v : α) :
    (entries.find? (fun e => key e = k)).map val = some v ↔ ∃ e ∈ entries, key e = k ∧ val e = v := by
  constructor
  · intro hf
    obtain ⟨e, he, hv⟩ := Option.map_eq_some_iff.mp hf
    exact ⟨e, List.mem_of_find?_eq_some he, by simpa using List.find?_some he, hv⟩
  · rintro ⟨e, hmem, hkey, hv⟩
    cases hf : entries.find? (fun e => key e = k) with
    | none => exact absurd hkey (by simpa using List.find?_eq_none.mp hf _ hmem)
    | some e' =>
      have hkey' : key e' = k := by simpa using List.find?_some hf
      have he := List.inj_on_of_nodup_map hnodup (List.mem_of_find?_eq_some hf) hmem (hkey'.trans hkey.symm)
      rw [he, Option.map_some, hv]

theorem getById_iff (r : Registry) (id : UInt32) (h : Block 32) :
    r.getById id = some h ↔ ⟨h, id⟩ ∈ r.entries := by
  rw [Registry.getById, find_iff (registry_ids_nodup r)]
  constructor
  · rintro ⟨e, he, rfl, rfl⟩
    exact he
  · intro hmem
    exact ⟨_, hmem, rfl, rfl⟩

theorem getByHash_iff (r : Registry) (id : UInt32) (h : Block 32) :
    r.getByHash h = some id ↔ ⟨h, id⟩ ∈ r.entries := by
  rw [Registry.getByHash, find_iff r.distinct]
  constructor
  · rintro ⟨e, he, rfl, rfl⟩
    exact he
  · intro hmem
    exact ⟨_, hmem, rfl, rfl⟩

end AgentPassport.ToolRegistry
