import AgentPassport.DelegationIssue
import AgentPassport.RevocationStore

/-! The revocation store behind the chain verifier, which asks the resolver of the store. -/
namespace AgentPassport.RevokedChains
open JsText Js CanonicalJcs PlainData DelegationSchema DelegationVerify DelegationChain DelegationJson
open RevocationRecord RevocationStore
open DelegationIssue (Valid)

section
variable (P : Primitives) (options : AuthorityRevocationVerificationOptions)

/-- The resolver of a store as the callback of the chain verifier. -/
def resolveRevocation (store : Store) : JsValue → RevocationAnswer
  | .obj delegation =>
    match createAuthorityRevocationResolver P options store delegation with
    | .active => .active
    | .revoked => .revoked
    | .unknown => .other
  | _ => .other

/-- Tracked by the calls and revoked by none of them. -/
def Stands (calls : List Call) (id : Str) : Prop :=
  Call.track id ∈ calls ∧ ∀ call ∈ calls, verifiedFor P options id call = none

end

section
variable {P : Primitives} {options : AuthorityRevocationVerificationOptions} {id : Str}

theorem tracks_track (s : Store) (other : Str) :
    (s.track other).tracks id = true ↔ s.tracks id = true ∨ other = id := by
  rw [Store.tracks, Store.tracks, decide_eq_true_iff, decide_eq_true_iff, Store.track]
  split
  · rename_i hmem
    exact ⟨.inl, fun h => h.elim (fun h => h) fun h => h ▸ hmem⟩
  · rw [List.mem_append, List.mem_singleton, eq_comm]

theorem tracks_kept (s : Store) (call : Call) (h : s.tracks id = true) : (step P options s call).tracks id = true := by
  cases call with
  | track other => exact (tracks_track s other).mpr (.inl h)
  | record delegation candidate =>
    rw [step]
    cases hv : verifies P options delegation candidate with
    | false => rwa [record_rejected s hv]
    | true =>
      obtain ⟨r, v, -, -, hrecord⟩ := record_verified s hv
      rw [hrecord]
      show (s.insertVerifiedRevocation r).2.tracks id = true
      rw [Store.insertVerifiedRevocation]
      split
      · exact h
      · exact (tracks_track _ _).mpr (.inl h)

theorem tracks_of_track (calls : List Call) : ∀ s : Store, s.tracks id = true ∨ Call.track id ∈ calls →
    (run P options s calls).tracks id = true := by
  induction calls with
  | nil => exact fun s h => h.resolve_right List.not_mem_nil
  | cons call rest ih =>
    intro s h
    refine ih (step P options s call) ?_
    obtain h | h := h
    · exact .inl (tracks_kept s call h)
    · obtain rfl | h := List.mem_cons.mp h
      · exact .inl ((tracks_track s id).mpr (.inr rfl))
      · exact .inr h

theorem get_run_none_iff (calls : List Call) :
    (run P options .empty calls).get id = none ↔ ∀ call ∈ calls, verifiedFor P options id call = none := by
  have hget := @get_run P options calls id .empty
  have hempty : (Store.empty.get id).map ShapedRevocation.value = none := rfl
  rw [hempty, Option.none_or] at hget
  rw [← Option.map_eq_none_iff, hget, List.findSome?_eq_none_iff]

theorem stands_iff (calls : List Call) : Stands P options calls id ↔
    (run P options .empty calls).get id = none ∧ (run P options .empty calls).tracks id = true := by
  rw [Stands, and_comm, ← get_run_none_iff]
  refine and_congr_right fun hnone => ⟨fun h => tracks_of_track calls .empty (.inr h), fun h => ?_⟩
  obtain h | h := tracks_run calls .empty h hnone
  · cases h
  · exact h

theorem delegation_id_read (r : ShapedRecord) {top : List (Str × JsValue)} (hr : r.value = .obj top) :
    str? (field top "delegation_id") = some r.delegation.delegationId := by
  have hread := r.read_eq
  rw [hr] at hread
  simp only [readDelegation, record, Option.bind_eq_bind, Option.bind_some, Option.bind_eq_some_iff,
    Option.pure_def, Option.some.injEq] at hread
  obtain ⟨id, hid, parent, -, issuer, -, subject, -, method, -, issued, -, authority, -, signature, -, heq⟩ := hread
  rw [← heq]
  exact hid

theorem link_active_iff {r : ShapedRecord} (hid : computeAuthorityDelegationId P (authorityDelegationBody r.value) =
    .ok r.delegation.delegationId) (calls : List Call) :
    resolveRevocation P options (run P options .empty calls) r.value = .active ↔
      Stands P options calls r.delegation.delegationId := by
  obtain ⟨top, hvalue, -⟩ := shaped_obj r
  have hclaimed := delegation_id_read r hvalue
  rw [hvalue] at hid ⊢
  rw [stands_iff, resolveRevocation]
  constructor
  · intro h
    have hactive : createAuthorityRevocationResolver P options (run P options .empty calls) top = .active := by
      split at h
      · assumption
      · cases h
      · cases h
    obtain ⟨id, hid', hnone, htracks⟩ := resolve_active hactive
    obtain rfl := Option.some.inj (hclaimed.symm.trans hid')
    exact ⟨hnone, htracks⟩
  · rintro ⟨hnone, htracks⟩
    have hactive : createAuthorityRevocationResolver P options (run P options .empty calls) top = .active := by
      unfold createAuthorityRevocationResolver
      simp only [hid, hclaimed, hnone, htracks, ne_eq, not_true_eq_false, if_false, if_true]
    rw [hactive]

end

/-- A chain verifies through a store exactly when it verifies with every link taken as active and every link stands
in the calls the store has seen: once a record has verified for a link, no chain that contains the link verifies any
more, whatever calls follow. -/
theorem chain_through_store (P : Primitives) (options : AuthorityRevocationVerificationOptions) (calls : List Call)
    (chainOptions : AuthorityChainVerificationOptions) (rawChain : CallerValue) :
    Valid P { chainOptions with resolveRevocation := resolveRevocation P options (run P options .empty calls) }
        rawChain ↔
      Valid P { chainOptions with resolveRevocation := fun _ => .active } rawChain ∧
      ∀ members, readPlainDataChainContainer 1 256 rawChain = .ok members → ∀ m ∈ members, ∀ r : ShapedRecord,
        r.value = snapshotPlainData m → Stands P options calls r.delegation.delegationId := by
  rw [Valid, Valid, verify_valid_iff, verify_valid_iff]
  constructor
  · rintro ⟨members, now, chain, hmembers, hnow, hcanonical, hvalues, h⟩
    refine ⟨⟨members, now, chain, hmembers, hnow, hcanonical, hvalues, { h with active := fun _ _ => rfl }⟩, ?_⟩
    intro members' hmembers' m hm r hr
    obtain rfl := Except.ok.inj (hmembers.symm.trans hmembers')
    obtain ⟨r', hr', hvalue⟩ := List.mem_map.mp (hvalues ▸ List.mem_map_of_mem hm)
    obtain rfl := ShapedRecord.eq_of_value (hvalue.trans hr.symm)
    have hactive := h.active r' hr'
    rw [hr, snapshot_idem, ← hr] at hactive
    exact (link_active_iff (h.ids r' hr') calls).mp hactive
  · rintro ⟨⟨members, now, chain, hmembers, hnow, hcanonical, hvalues, h⟩, hstands⟩
    refine ⟨members, now, chain, hmembers, hnow, hcanonical, hvalues, { h with active := ?_ }⟩
    intro r hr
    obtain ⟨m, hm, hvalue⟩ := List.mem_map.mp (hvalues ▸ List.mem_map_of_mem hr)
    rw [← hvalue, snapshot_idem, hvalue]
    exact (link_active_iff (h.ids r hr) calls).mpr (hstands members hmembers m hm r hvalue.symm)

end AgentPassport.RevokedChains
