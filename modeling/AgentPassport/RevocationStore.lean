import AgentPassport.DelegationJson
import AgentPassport.DelegationChain
import AgentPassport.OrderedMap
import AgentPassport.RevocationRecord

/-! The revocation store, its one way in and the resolver that reads it
(`v2/authority-revocation/store.ts`, `record.ts` and `resolver.ts`). A delegation presented by a
caller is the list of its own members. -/
namespace AgentPassport.RevocationStore
open JsText Js CanonicalJcs PlainData DelegationSchema DelegationVerify DelegationJson RevocationRecord

/-- `InMemoryAuthorityRevocationStore`: a set and a map. -/
structure Store where
  tracked : List Str
  records : OrderedMap Str ShapedRevocation

namespace Store

def empty : Store := ⟨[], .empty⟩

def track (s : Store) (delegationId : Str) : Store :=
  { s with tracked := if delegationId ∈ s.tracked then s.tracked else s.tracked ++ [delegationId] }

def tracks (s : Store) (delegationId : Str) : Bool := decide (delegationId ∈ s.tracked)

def get (s : Store) (delegationId : Str) : Option ShapedRevocation := s.records.get delegationId

end Store

structure AuthorityRevocationInsertion where
  inserted : Bool
  stored : ShapedRevocation

/-- The first record of a delegation takes its slot and brings it into view. -/
def Store.insertVerifiedRevocation (s : Store) (revocation : ShapedRevocation) :
    AuthorityRevocationInsertion × Store :=
  match s.get revocation.revocation.delegationId with
  | some existing => (⟨false, existing⟩, s)
  | none =>
    let s : Store := { s with records := s.records.set revocation.revocation.delegationId revocation }
    (⟨true, revocation⟩, s.track revocation.revocation.delegationId)

inductive AuthorityRevocationRecordResult where
  | recorded (inserted : Bool) (stored : ShapedRevocation) (verification : AuthorityRevocationVerificationResult)
  | rejected (verification : AuthorityRevocationVerificationResult)

inductive RevocationResolution where
  | active | revoked | unknown
  deriving DecidableEq

section
variable (P : Primitives) (options : AuthorityRevocationVerificationOptions)

/-- The answer and the store left behind; an exception of the canonicalizer passes through. -/
def recordAuthorityRevocation (store : Store) (delegation : List (Str × JsValue)) (candidate : CallerValue) :
    Except JcsError AuthorityRevocationRecordResult × Store :=
  let snapshot := snapshotPlainData candidate
  match h : verifyAuthorityRevocation P options (plain snapshot) (plain (.obj delegation)) with
  | .error e => (.error e, store)
  | .ok verification =>
    if hv : verification.valid = true then
      let revocation : ShapedRevocation := ⟨snapshot,
        (snapshot_idem candidate ▸ shape_of_valid h hv : revocationShapeFailures (snapshotPlainData candidate) = [])⟩
      let (insertion, store) := store.insertVerifiedRevocation revocation
      (.ok (.recorded insertion.inserted insertion.stored verification), store)
    else (.ok (.rejected verification), store)

/-- The function the resolver adapts a store to; whatever throws reads as unknown. -/
def createAuthorityRevocationResolver (store : Store) (delegation : List (Str × JsValue)) : RevocationResolution :=
  match computeAuthorityDelegationId P (authorityDelegationBody (.obj delegation)) with
  | .error _ => .unknown
  | .ok delegationId =>
    if str? (field delegation "delegation_id") ≠ some delegationId then .unknown
    else
      match store.get delegationId with
      | some record =>
        match verifyAuthorityRevocation P options (plain record.value) (plain (.obj delegation)) with
        | .ok verification => if verification.state = .valid then .revoked else .unknown
        | .error _ => .unknown
      | none => if store.tracks delegationId then .active else .unknown

inductive Call where
  | track (delegationId : Str)
  | record (delegation : List (Str × JsValue)) (candidate : CallerValue)

def step (s : Store) : Call → Store
  | .track delegationId => s.track delegationId
  | .record delegation candidate => (recordAuthorityRevocation P options s delegation candidate).2

def run (s : Store) (calls : List Call) : Store := calls.foldl (step P options) s

def verifies (delegation : List (Str × JsValue)) (candidate : CallerValue) : Bool :=
  match verifyAuthorityRevocation P options candidate (plain (.obj delegation)) with
  | .ok verification => verification.valid
  | .error _ => false

def verifiedFor (delegationId : Str) : Call → Option JsValue
  | .track _ => none
  | .record delegation candidate =>
    if str? (field delegation "delegation_id") = some delegationId ∧ verifies P options delegation candidate = true then
      some (snapshotPlainData candidate)
    else none

end

theorem snapshotItems_plain_map (items : List JsValue) :
    snapshotSlots (plainItems items) = some (items.map (fun v => snapshotPlainData (plain v))) := by
  induction items with
  | nil => rw [plainItems, snapshotSlots, List.map_nil]
  | cons v rest ih =>
    rw [plainItems, snapshotSlots, ih]
    rfl

theorem snapshotMembers_plain_map (members : List (Str × JsValue)) :
    snapshotMembers (plainMembers members) =
      some (members.map (fun m => (m.1, snapshotPlainData (plain m.2)))) := by
  induction members with
  | nil => rw [plainMembers, snapshotMembers, List.map_nil]
  | cons m rest ih =>
    rw [plainMembers, snapshotMembers, ih]
    rfl

theorem snapshot_of_ijson (v : JsValue) :
    isIJSONValue (snapshotPlainData (plain v)) = true → snapshotPlainData (plain v) = v := by
  induction v using JsValue.members_induction with
  | undefined => exact fun h => by cases h
  | null => exact fun _ => by rw [plain, snapshotPlainData]
  | bool b => exact fun _ => by rw [plain, snapshotPlainData]
  | num n =>
    cases n with
    | finite d => exact fun _ => by rw [plain, snapshotPlainData]
    | nan => exact fun h => by cases h
    | infinite s => exact fun h => by cases h
  | str s => exact fun _ => by rw [plain, snapshotPlainData]
  | other t => exact fun h => by cases h
  | date iso => exact fun h => by cases h
  | arr items ih =>
    rw [plain, snapshotPlainData, snapshotItems_plain_map]
    intro h
    simp only [plainArrayLength, Bool.not_true, Bool.false_eq_true, if_false, isIJSONValue,
      itemsAreIJSON_iff] at h ⊢
    have hmap := List.map_congr_left fun v hv => ih v hv (h _ (List.mem_map_of_mem hv))
    rw [hmap, List.map_id']
  | obj members ih =>
    rw [plain, snapshotPlainData, plainObjectKeys_plain, snapshotMembers_plain_map]
    split
    · exact fun h => by cases h
    · intro h
      simp only [isIJSONValue, membersAreIJSON_iff] at h ⊢
      have hmap : members.map (fun m => (m.1, snapshotPlainData (plain m.2))) = members.map id := by
        refine List.map_congr_left fun m hm => ?_
        have hm' := (h _ (List.mem_map_of_mem hm)).2
        rw [ih m hm hm']
        rfl
      rw [hmap, List.map_id]

variable {delegation : List (Str × JsValue)}

theorem target_eq {target : ShapedRecord} (h : target.value = snapshotPlainData (plain (.obj delegation))) :
    target.value = .obj delegation := by
  obtain ⟨top, htop, -, -, hkeys, hbody⟩ := shape_inv target.shape
  have hobj : target.value = .obj top := record_closed htop hkeys (by decide)
  simp only [bodyFailures, List.append_eq_nil_iff, require_eq_nil] at hbody
  have hij : isIJSONValue (snapshotPlainData (plain (.obj delegation))) = true := by
    rw [← h, hobj, isIJSONValue]
    exact hbody.1.1.1.1.1.1.1.1.1
  rw [h, snapshot_of_ijson _ hij]

section
variable {P : Primitives} {options : AuthorityRevocationVerificationOptions}

variable {candidate : CallerValue}

/-- The identifier under which a verified candidate is stored is the one its target claims, and
the target's identifier recomputes. -/
theorem verifies_inv (h : verifies P options delegation candidate = true) :
    ∃ (r : ShapedRevocation) (v : AuthorityRevocationVerificationResult),
      verifyAuthorityRevocation P options candidate (plain (.obj delegation)) = .ok v ∧ v.valid = true ∧
      r.value = snapshotPlainData candidate ∧
      str? (field delegation "delegation_id") = some r.revocation.delegationId ∧
      computeAuthorityDelegationId P (authorityDelegationBody (.obj delegation)) =
        .ok r.revocation.delegationId := by
  unfold verifies at h
  split at h
  · rename_i v hv
    obtain ⟨r, target, hr, htarget, hrevokes⟩ := revokes_of_valid hv h
    have heq := target_eq htarget
    have hread := target.read_eq
    rw [heq] at hread
    simp only [readDelegation, record, Option.bind_eq_bind, Option.bind_some, Option.bind_eq_some_iff] at hread
    obtain ⟨id, hid, hread⟩ := hread
    simp only [Option.pure_def, Option.some.injEq] at hread
    obtain ⟨parent, -, issuer, -, subject, -, method, -, issued, -, authority, -, signature, -, hread⟩ := hread
    have hclaimed : str? (field delegation "delegation_id") = some r.revocation.delegationId := by
      rw [hid, hrevokes.names, ← hread]
    refine ⟨r, v, hv, h, hr, hclaimed, ?_⟩
    rw [hrevokes.names, ← heq]
    exact hrevokes.targetId
  · cases h

theorem record_rejected (s : Store) (h : verifies P options delegation candidate = false) :
    (recordAuthorityRevocation P options s delegation candidate).2 = s := by
  unfold verifies at h
  rw [← verify_snapshot] at h
  unfold recordAuthorityRevocation
  simp only
  split
  · rfl
  · rename_i v hv
    rw [hv] at h
    have hinvalid : ¬ v.valid = true := Bool.eq_false_iff.mp h
    rw [dif_neg hinvalid]

theorem record_verified (s : Store) (h : verifies P options delegation candidate = true) :
    ∃ (r : ShapedRevocation) (v : AuthorityRevocationVerificationResult),
      r.value = snapshotPlainData candidate ∧
      str? (field delegation "delegation_id") = some r.revocation.delegationId ∧
      recordAuthorityRevocation P options s delegation candidate =
        (.ok (.recorded (s.insertVerifiedRevocation r).1.inserted (s.insertVerifiedRevocation r).1.stored v),
          (s.insertVerifiedRevocation r).2) := by
  obtain ⟨r, v, hverify, hvalid, hr, hclaimed, -⟩ := verifies_inv h
  refine ⟨r, v, hr, hclaimed, ?_⟩
  rw [← verify_snapshot] at hverify
  unfold recordAuthorityRevocation
  simp only
  split
  · rename_i e he
    rw [he] at hverify
    cases hverify
  · rename_i w hw
    rw [hw] at hverify
    cases hverify
    have hcast : ∀ shape, (⟨snapshotPlainData candidate, shape⟩ : ShapedRevocation) = r :=
      fun _ => ShapedRevocation.eq_of_value hr.symm
    rw [dif_pos hvalid, hcast]

theorem get_track (s : Store) (id id' : Str) : (s.track id).get id' = s.get id' := rfl

theorem get_insert (s : Store) (r : ShapedRevocation) (id : Str) :
    (s.insertVerifiedRevocation r).2.get id =
      (s.get id).or (if r.revocation.delegationId = id then some r else none) := by
  unfold Store.insertVerifiedRevocation
  split
  · rename_i existing hexisting
    by_cases hid : r.revocation.delegationId = id
    · rw [← hid, hexisting]
      rfl
    · rw [if_neg hid, Option.or_none]
  · rename_i hnone
    show (s.records.set r.revocation.delegationId r).get id = _
    rw [OrderedMap.get_set]
    by_cases hid : r.revocation.delegationId = id
    · rw [if_pos hid, if_pos hid, ← hid, hnone]
      rfl
    · rw [if_neg hid, if_neg hid, Option.or_none]
      rfl

theorem get_step (s : Store) (call : Call) (id : Str) :
    ((step P options s call).get id).map ShapedRevocation.value =
      ((s.get id).map ShapedRevocation.value).or (verifiedFor P options id call) := by
  cases call with
  | track other => rw [step, get_track, verifiedFor, Option.or_none]
  | record delegation candidate =>
    rw [step, verifiedFor]
    cases hv : verifies P options delegation candidate with
    | false => rw [record_rejected s hv, if_neg (by simp), Option.or_none]
    | true =>
      obtain ⟨r, v, hr, hclaimed, hrecord⟩ := record_verified s hv
      rw [hrecord, get_insert, hclaimed, ← hr]
      by_cases hid : r.revocation.delegationId = id
      · rw [if_pos hid, if_pos ⟨congrArg some hid, rfl⟩]
        cases s.get id with
        | none => rfl
        | some existing => rfl
      · rw [if_neg hid, if_neg (fun h => hid (Option.some.inj h.1)), Option.or_none, Option.or_none]

variable {id : Str}

theorem tracks_step (s : Store) (call : Call) (h : (step P options s call).tracks id = true)
    (hnone : (step P options s call).get id = none) : s.tracks id = true ∨ call = .track id := by
  have htrack : ∀ (s : Store) (other : Str), (s.track other).tracks id = true →
      s.tracks id = true ∨ other = id := by
    intro s other h
    have hmem : id ∈ (s.track other).tracked := of_decide_eq_true h
    rw [Store.track] at hmem
    split at hmem
    · exact .inl (decide_eq_true hmem)
    · obtain hmem | hmem := List.mem_append.mp hmem
      · exact .inl (decide_eq_true hmem)
      · exact .inr (List.mem_singleton.mp hmem).symm
  cases call with
  | track other =>
    obtain h | rfl := htrack s other h
    · exact .inl h
    · exact .inr rfl
  | record delegation candidate =>
    refine .inl ?_
    rw [step] at h hnone
    cases hv : verifies P options delegation candidate with
    | false => rwa [record_rejected s hv] at h
    | true =>
      obtain ⟨r, v, hr, hclaimed, hrecord⟩ := record_verified s hv
      rw [hrecord] at h hnone
      simp only at h hnone
      rw [get_insert] at hnone
      unfold Store.insertVerifiedRevocation at h
      split at h
      · exact h
      · obtain h | hid := htrack _ _ h
        · exact h
        · rw [if_pos hid, Option.or_eq_none_iff] at hnone
          cases hnone.2

theorem get_run (calls : List Call) (id : Str) : ∀ s : Store,
    ((run P options s calls).get id).map ShapedRevocation.value =
      ((s.get id).map ShapedRevocation.value).or (calls.findSome? (verifiedFor P options id)) := by
  induction calls with
  | nil =>
    intro s
    rw [List.findSome?_nil, Option.or_none]
    rfl
  | cons call rest ih =>
    intro s
    have hrun : run P options s (call :: rest) = run P options (step P options s call) rest := rfl
    rw [hrun, ih, get_step, List.findSome?_cons, Option.or_assoc]
    cases verifiedFor P options id call with
    | none => rfl
    | some v => rfl

variable {calls : List Call} {s : Store}

theorem get_run_some {r : ShapedRevocation} (h : s.get id = some r) : (run P options s calls).get id = some r := by
  have hget := @get_run P options calls id s
  rw [h, Option.map_some, Option.some_or, Option.map_eq_some_iff] at hget
  obtain ⟨r', hr', hvalue⟩ := hget
  rw [hr', ShapedRevocation.eq_of_value hvalue]

theorem tracks_run (calls : List Call) : ∀ s : Store, (run P options s calls).tracks id = true →
    (run P options s calls).get id = none → s.tracks id = true ∨ Call.track id ∈ calls := by
  induction calls with
  | nil => exact fun s h _ => .inl h
  | cons call rest ih =>
    intro s h hnone
    obtain hstep | hmem := ih (step P options s call) h hnone
    · have hfree : (step P options s call).get id = none := by
        by_contra hsome
        obtain ⟨r, hr⟩ := Option.ne_none_iff_exists'.mp hsome
        rw [show run P options s (call :: rest) = run P options (step P options s call) rest from rfl,
          get_run_some hr] at hnone
        cases hnone
      obtain h | rfl := tracks_step s call hstep hfree
      · exact .inl h
      · exact .inr List.mem_cons_self
    · exact .inr (List.mem_cons_of_mem _ hmem)

theorem run_append (s : Store) (before after : List Call) :
    run P options s (before ++ after) = run P options (run P options s before) after :=
  List.foldl_append

theorem verifies_snapshot (delegation : List (Str × JsValue)) (candidate : CallerValue) :
    verifies P options delegation (plain (snapshotPlainData candidate)) = verifies P options delegation candidate := by
  rw [verifies, verify_snapshot]
  rfl

variable {d : List (Str × JsValue)}

theorem resolve_active (h : createAuthorityRevocationResolver P options s d = .active) :
    ∃ id, str? (field d "delegation_id") = some id ∧ s.get id = none ∧ s.tracks id = true := by
  unfold createAuthorityRevocationResolver at h
  split at h
  · cases h
  rename_i id hid
  split at h
  · cases h
  rename_i hclaimed
  split at h
  · split at h
    · split at h
      · cases h
      · cases h
    · cases h
  · rename_i hnone
    split at h
    · rename_i htracks
      exact ⟨id, not_not.mp hclaimed, hnone, htracks⟩
    · cases h

theorem resolve_revoked : createAuthorityRevocationResolver P options s d = .revoked ↔
      ∃ id r, computeAuthorityDelegationId P (authorityDelegationBody (.obj d)) = .ok id ∧
        str? (field d "delegation_id") = some id ∧ s.get id = some r ∧
        verifies P options d (plain r.value) = true := by
  constructor
  · intro h
    unfold createAuthorityRevocationResolver at h
    split at h
    · cases h
    rename_i id hid
    split at h
    · cases h
    rename_i hclaimed
    split at h
    · rename_i r hr
      split at h
      · rename_i v hv
        split at h
        · rename_i hstate
          refine ⟨id, r, hid, not_not.mp hclaimed, hr, ?_⟩
          rw [verifies, hv]
          exact decide_eq_true hstate
        · cases h
      · cases h
    · split at h
      · cases h
      · cases h
  · rintro ⟨id, r, hid, hclaimed, hr, hv⟩
    unfold verifies at hv
    split at hv
    · rename_i v hverify
      have hstate : v.state = .valid := of_decide_eq_true hv
      unfold createAuthorityRevocationResolver
      simp only [hid, hclaimed, hr, hverify, hstate, ne_eq, not_true_eq_false, if_false, if_true]
    · cases hv

theorem revoked_of_stored {c : CallerValue} {r : ShapedRevocation} (hclaimed : str? (field d "delegation_id") = some id)
    (hr : s.get id = some r) (hvalue : r.value = snapshotPlainData c) (hv : verifies P options d c = true) :
    createAuthorityRevocationResolver P options s d = .revoked := by
  obtain ⟨r', v, -, -, -, hclaimed', hid⟩ := verifies_inv hv
  obtain rfl : id = r'.revocation.delegationId := Option.some.inj (hclaimed.symm.trans hclaimed')
  refine resolve_revoked.mpr ⟨_, r, hid, hclaimed, hr, ?_⟩
  rw [hvalue, verifies_snapshot]
  exact hv

theorem get_run_none
    (h : ∀ d c, Call.record d c ∈ calls → str? (field d "delegation_id") = some id → verifies P options d c = false) :
    (run P options Store.empty calls).get id = none := by
  have hget := @get_run P options calls id Store.empty
  have hnone : calls.findSome? (verifiedFor P options id) = none := by
    rw [List.findSome?_eq_none_iff]
    intro call hcall
    cases call with
    | track other => rfl
    | record d c =>
      rw [verifiedFor, if_neg]
      rintro ⟨hclaimed, hv⟩
      rw [h d c hcall hclaimed] at hv
      cases hv
  rw [hnone, Option.or_none] at hget
  exact Option.map_eq_none_iff.mp hget

theorem stored_of_verified {c : CallerValue} (hmem : Call.record d c ∈ calls)
    (hclaimed : str? (field d "delegation_id") = some id) (hv : verifies P options d c = true) :
    ∃ r d' c', (run P options Store.empty calls).get id = some r ∧ Call.record d' c' ∈ calls ∧
      str? (field d' "delegation_id") = some id ∧ verifies P options d' c' = true ∧
      r.value = snapshotPlainData c' := by
  have hget := @get_run P options calls id Store.empty
  have hempty : (Store.empty.get id).map ShapedRevocation.value = none := rfl
  rw [hempty, Option.none_or] at hget
  have hsome : (calls.findSome? (verifiedFor P options id)).isSome = true := by
    rw [List.findSome?_isSome_iff]
    exact ⟨_, hmem, by rw [verifiedFor, if_pos ⟨hclaimed, hv⟩]; rfl⟩
  obtain ⟨value, hvalue⟩ := Option.isSome_iff_exists.mp hsome
  obtain ⟨call, hcall, hfirst⟩ := List.exists_of_findSome?_eq_some hvalue
  rw [hvalue] at hget
  obtain ⟨r, hr, hrvalue⟩ := Option.map_eq_some_iff.mp hget
  cases call with
  | track other => cases hfirst
  | record d' c' =>
    rw [verifiedFor] at hfirst
    split at hfirst
    · rename_i hboth
      cases hfirst
      exact ⟨r, d', c', hr, hcall, hboth.1, hboth.2, hrvalue⟩
    · cases hfirst

end

/-- The laws of the store over every run of calls, where one record is presented for an id:
`active` needs a `track` call and an empty slot, `revoked` is final, a candidate that fails
changes nothing and takes no slot, the record of an id is the first candidate that verified for
it, and from then on its delegation is revoked. -/
theorem revocation_store_laws (P : Primitives) (options : AuthorityRevocationVerificationOptions)
    (calls : List Call) (d : List (Str × JsValue))
    (hsame : ∀ d' c id, Call.record d' c ∈ calls → str? (field d' "delegation_id") = some id →
      str? (field d "delegation_id") = some id → d' = d) :
    (createAuthorityRevocationResolver P options (run P options .empty calls) d = .active →
      ∃ id, str? (field d "delegation_id") = some id ∧ Call.track id ∈ calls ∧
        (run P options .empty calls).get id = none) ∧
    (∀ before after, calls = before ++ after →
      createAuthorityRevocationResolver P options (run P options .empty before) d = .revoked →
      createAuthorityRevocationResolver P options (run P options .empty calls) d = .revoked) ∧
    (∀ before d' c after, calls = before ++ Call.record d' c :: after → verifies P options d' c = false →
      (recordAuthorityRevocation P options (run P options .empty before) d' c).2 = run P options .empty before ∧
      run P options .empty calls = run P options .empty (before ++ after)) ∧
    (∀ c, verifies P options d c = true →
      (∀ d' c', Call.record d' c' ∈ calls →
        str? (field d' "delegation_id") = str? (field d "delegation_id") → verifies P options d' c' = false) →
      ∃ stored v, stored.value = snapshotPlainData c ∧
        (recordAuthorityRevocation P options (run P options .empty calls) d c).1 = .ok (.recorded true stored v) ∧
        (recordAuthorityRevocation P options (run P options .empty calls) d c).2.get
          stored.revocation.delegationId = some stored) ∧
    (∀ id, ((run P options .empty calls).get id).map ShapedRevocation.value =
      calls.findSome? (verifiedFor P options id)) ∧
    (∀ d' c, Call.record d' c ∈ calls → str? (field d' "delegation_id") = str? (field d "delegation_id") →
      verifies P options d' c = true →
      createAuthorityRevocationResolver P options (run P options .empty calls) d = .revoked) := by
  refine ⟨?_, ?_, ?_, ?_, ?_, ?_⟩
  · intro h
    obtain ⟨id, hclaimed, hnone, htracks⟩ := resolve_active h
    obtain hempty | hmem := tracks_run calls Store.empty htracks hnone
    · cases hempty
    · exact ⟨id, hclaimed, hmem, hnone⟩
  · intro before after hcalls h
    obtain ⟨id, r, hid, hclaimed, hr, hv⟩ := resolve_revoked.mp h
    rw [hcalls, run_append]
    exact resolve_revoked.mpr ⟨id, r, hid, hclaimed, get_run_some hr, hv⟩
  · intro before d' c after hcalls hv
    have hrecord := record_rejected (run P options .empty before) hv
    refine ⟨hrecord, ?_⟩
    rw [hcalls, run_append, run_append]
    show run P options (recordAuthorityRevocation P options (run P options .empty before) d' c).2 after = _
    rw [hrecord]
  · intro c hv hfailed
    obtain ⟨r, v, hr, hclaimed, hrecord⟩ := record_verified (run P options .empty calls) hv
    have hfree : (run P options .empty calls).get r.revocation.delegationId = none :=
      get_run_none fun d' c' hmem hid => hfailed d' c' hmem (hid.trans hclaimed.symm)
    have hinsert : ((run P options .empty calls).insertVerifiedRevocation r).1 = ⟨true, r⟩ := by
      rw [Store.insertVerifiedRevocation, hfree]
    refine ⟨r, v, hr, ?_, ?_⟩
    · rw [hrecord, hinsert]
    · rw [hrecord]
      show (Store.insertVerifiedRevocation _ r).2.get _ = _
      rw [get_insert, hfree, if_pos rfl, Option.none_or]
  · intro id
    exact get_run calls id Store.empty
  · intro d' c hmem hclaimed hv
    obtain ⟨_, _, -, -, -, hid, -⟩ := verifies_inv hv
    obtain ⟨r, d₁, c₁, hr, hmem₁, hclaimed₁, hv₁, hvalue⟩ := stored_of_verified hmem hid hv
    -- the stored candidate verified against the record that is presented now
    obtain rfl := hsame d₁ c₁ _ hmem₁ hclaimed₁ (hclaimed.symm.trans hid)
    exact revoked_of_stored hclaimed₁ hr hvalue hv₁

/-! ### The root of the sample chain, revoked by its issuer

Digests and signature are those of SHA-256 and Ed25519 on the preimages, told apart by their
lengths. -/
section Sample
open DelegationChain CanonicalInjective

def rootMembers : List (Str × JsValue) :=
  rootBody ++ [(lit "delegation_id", JsValue.str (lit "sha256:" ++ rootDigest)), (lit "signature", .str rootSignature)]

def transactionDigest : Str :=
  ["ba8a883c58a18c2b", "3f91f7832436f101", "9ebb49e156dc0459", "52cb3657da5346d2"].flatMap lit

def revocationDigest : Str :=
  ["5163279c96fb9fef", "da3510de37089632", "8f36a81aeb9d7889", "3677534f6c4927e1"].flatMap lit

def revocationSignature : Str :=
  ["80b8a2c7700df190", "2a7143e5eeef6a97", "d56f2c8aa5282523", "c276652c0c89b049",
    "fb81cef09e90ea93", "58aff9deb2cfd48c", "7662378da80186d2", "95b638e695f9a40a"].flatMap lit

def rootRevocation : JsValue :=
  .obj [(lit "record_type", .str AUTHORITY_REVOCATION_RECORD_TYPE),
    (lit "version", .str AUTHORITY_REVOCATION_VERSION),
    (lit "revocation_id", .str (lit "sha256:" ++ revocationDigest)),
    (lit "delegation_id", .str (lit "sha256:" ++ rootDigest)), (lit "revoker", .str (lit "did:root")),
    (lit "verification_method", .str (lit "did:root#key")),
    (lit "revoked_at", .str (lit "2026-01-10T00:00:00.000Z")), (lit "reason_code", .str (lit "compromise")),
    (lit "cascade_transaction_id", .str (lit "sha256:" ++ transactionDigest)),
    (lit "nonce", .str (lit "00000000000000000000000000000000")), (lit "signature", .str revocationSignature)]

def revocationPrimitives : Primitives where
  numText := integerText
  sha256Hex m :=
    if m.length = 725 then rootDigest else if m.length = 370 then transactionDigest else revocationDigest
  sign m key := samplePrimitives.sign m key
  verify m signature key := m.length = 546 && signature = revocationSignature && key = rootKey

def revocationOptions : AuthorityRevocationVerificationOptions :=
  ⟨some (fun issuer _ _ => if issuer = lit "did:root" then .key rootKey else .other)⟩

def sampleCalls : List Call :=
  [.track (lit "sha256:" ++ rootDigest), .record rootMembers .null, .record rootMembers (plain rootRevocation)]

theorem revocation_store_laws_root :
    verifies revocationPrimitives revocationOptions rootMembers .null = false ∧
    verifies revocationPrimitives revocationOptions rootMembers (plain rootRevocation) = true ∧
    createAuthorityRevocationResolver revocationPrimitives revocationOptions
      (run revocationPrimitives revocationOptions .empty (sampleCalls.take 2)) rootMembers = .active ∧
    createAuthorityRevocationResolver revocationPrimitives revocationOptions
      (run revocationPrimitives revocationOptions .empty sampleCalls) rootMembers = .revoked := by
  have hv : verifies revocationPrimitives revocationOptions rootMembers (plain rootRevocation) = true := by
    decide +kernel
  have hsame : ∀ d' c id, Call.record d' c ∈ sampleCalls → str? (field d' "delegation_id") = some id →
      str? (field rootMembers "delegation_id") = some id → d' = rootMembers := by
    intro d' c id hmem _ _
    simp only [sampleCalls, List.mem_cons, List.not_mem_nil, or_false, reduceCtorEq, false_or,
      Call.record.injEq] at hmem
    obtain ⟨rfl, -⟩ | ⟨rfl, -⟩ := hmem
    · rfl
    · rfl
  obtain ⟨-, -, -, -, -, hrevoked⟩ :=
    revocation_store_laws revocationPrimitives revocationOptions sampleCalls rootMembers hsame
  refine ⟨by decide, hv, by decide +kernel, hrevoked rootMembers (plain rootRevocation) ?_ rfl hv⟩
  exact List.mem_cons_of_mem _ (List.mem_cons_of_mem _ List.mem_cons_self)

end Sample

end AgentPassport.RevocationStore
