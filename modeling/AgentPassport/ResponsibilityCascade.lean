import AgentPassport.GuardedWalk
import AgentPassport.JsText
import Mathlib.Data.List.Induction

/-! The principal of record of a delegation chain (`v2/delegation/responsibility.ts`): human and organisation anchors,
and the walks from agent anchors to the party they act for. -/
namespace AgentPassport.ResponsibilityCascade
open JsText GuardedWalk

inductive PrincipalKind where
  | human | org | agent_acting_for_principal
  deriving DecidableEq

structure ResponsibilityAnchor where
  principal_id : Str
  principal_kind : PrincipalKind
  acting_agent_id : Option Str
  deriving DecidableEq

/-- What the cascade reads of a delegation. -/
structure V2Delegation where
  delegator : Str
  responsibility_anchor : Option ResponsibilityAnchor

inductive RootKind where
  | human | org
  deriving DecidableEq

structure RootPrincipal where
  principal_id : Str
  principal_kind : RootKind
  deriving DecidableEq

inductive ChainIntegrity where
  | ok | missing_root_anchor | circular
  deriving DecidableEq

structure CascadeResult where
  principals : List RootPrincipal
  chain_integrity : ChainIntegrity
  deriving DecidableEq

/-- The principal of a human or org anchor. -/
def rootOf (a : ResponsibilityAnchor) : Option RootPrincipal :=
  match a.principal_kind with
  | .human => some ⟨a.principal_id, .human⟩
  | .org => some ⟨a.principal_id, .org⟩
  | .agent_acting_for_principal => none

/-- The first anchor with the id that an agent anchor acts for; an absent or empty id leads nowhere, and a human or org
anchor is where a walk ends. -/
def actsFor (pool : List ResponsibilityAnchor) (a : ResponsibilityAnchor) : Option ResponsibilityAnchor :=
  match rootOf a, a.acting_agent_id with
  | none, some nextId => if nextId.length = 0 then none else pool.find? (·.principal_id = nextId)
  | _, _ => none

/-- `none` is out of fuel. -/
def walkActingChain (fuel : Nat) (start : ResponsibilityAnchor) (pool : List ResponsibilityAnchor) :
    Option (Verdict RootPrincipal) :=
  walk (actsFor pool) (·.principal_id) rootOf fuel [] start

/-- `if (!roots.has(id)) roots.set(id, principal)`. -/
def record (roots : List RootPrincipal) (p : RootPrincipal) : List RootPrincipal :=
  if roots.any (·.principal_id = p.principal_id) then roots else roots ++ [p]

def recordDirect (roots : List RootPrincipal) (a : ResponsibilityAnchor) : List RootPrincipal :=
  match rootOf a with
  | none => roots
  | some p => record roots p

structure Walked where
  roots : List RootPrincipal
  sawCircular : Bool
  sawUnresolved : Bool

def Walked.settle (s : Walked) : Verdict RootPrincipal → Walked
  | .circular => { s with sawCircular := true }
  | .unresolved => { s with sawUnresolved := true }
  | .ok principal => { s with roots := record s.roots principal }

def recordIndirect (fuel : Nat) (anchors : List ResponsibilityAnchor) (s : Walked) (a : ResponsibilityAnchor) :
    Option Walked :=
  if a.principal_kind ≠ .agent_acting_for_principal then some s
  else (walkActingChain fuel a anchors).map s.settle

def Walked.result (s : Walked) : CascadeResult :=
  if s.roots.length > 0 then ⟨s.roots, if s.sawCircular then .circular else .ok⟩
  else if s.sawCircular then ⟨[], .circular⟩
  else if s.sawUnresolved then ⟨[], .missing_root_anchor⟩
  else ⟨[], .missing_root_anchor⟩

def anchorsOf (chain : List V2Delegation) : List ResponsibilityAnchor := chain.filterMap (·.responsibility_anchor)

def cascadePrincipal (fuel : Nat) (chain : List V2Delegation) : Option CascadeResult :=
  match chain with
  | [] => some ⟨[], .missing_root_anchor⟩
  | root :: _ =>
    let anchors := anchorsOf chain
    if anchors.length = 0 then some ⟨[⟨root.delegator, .human⟩], .ok⟩
    else (anchors.foldlM (recordIndirect fuel anchors) ⟨anchors.foldl recordDirect [], false, false⟩).map Walked.result

def FirstRoot (anchors : List ResponsibilityAnchor) (p : RootPrincipal) : Prop :=
  (anchors.filterMap rootOf).find? (·.principal_id = p.principal_id) = some p

def Indirect (a : ResponsibilityAnchor) : Prop := a.principal_kind = .agent_acting_for_principal

def MeetsAgain (anchors : List ResponsibilityAnchor) (a : ResponsibilityAnchor) : Prop :=
  Revisits (actsFor anchors) (·.principal_id) rootOf a

/-- The walk from an anchor, followed without looking back, never ends. -/
def WalksForever (anchors : List ResponsibilityAnchor) (a : ResponsibilityAnchor) : Prop :=
  ∀ n, (walkAt (actsFor anchors) a n).isSome = true

/-- What the cascade says of a chain with these anchors. -/
structure Cascades (fuel : Nat) (anchors : List ResponsibilityAnchor) (result : CascadeResult) : Prop where
  unique : (result.principals.map (·.principal_id)).Nodup
  roots : ∀ p, p ∈ result.principals ↔ FirstRoot anchors p
  classed : ∀ a ∈ anchors, Indirect a →
    (walkActingChain fuel a anchors = some .circular ↔ MeetsAgain anchors a)
  forever : (anchors.map (·.principal_id)).Nodup → ∀ a ∈ anchors, Indirect a →
    (MeetsAgain anchors a ↔ WalksForever anchors a)
  circular : result.chain_integrity = .circular ↔
    ∃ a ∈ anchors, Indirect a ∧ walkActingChain fuel a anchors = some .circular
  ok : result.chain_integrity = .ok ↔
    (¬ ∃ a ∈ anchors, Indirect a ∧ walkActingChain fuel a anchors = some .circular) ∧
      ∃ a ∈ anchors, (rootOf a).isSome = true
  reached : ∀ a ∈ anchors, Indirect a → ∀ p, walkActingChain fuel a anchors = some (.ok p) → p ∈ result.principals

theorem record_spec {roots : List RootPrincipal} (hnodup : (roots.map (·.principal_id)).Nodup) (p : RootPrincipal) :
    ((record roots p).map (·.principal_id)).Nodup ∧
      ∀ q, q ∈ record roots p ↔ q ∈ roots ∨ q = p ∧ p.principal_id ∉ roots.map (·.principal_id) := by
  have hany : roots.any (·.principal_id = p.principal_id) = true ↔ p.principal_id ∈ roots.map (·.principal_id) := by
    simp [List.any_eq_true]
  rw [record]
  by_cases hmem : p.principal_id ∈ roots.map (·.principal_id)
  · rw [if_pos (hany.mpr hmem)]
    exact ⟨hnodup, fun q => ⟨.inl, fun h => h.resolve_right (fun hq => hq.2 hmem)⟩⟩
  · rw [if_neg (fun h => hmem (hany.mp h))]
    constructor
    · rw [List.map_append, List.map_singleton]
      exact List.nodup_append.mpr ⟨hnodup, List.nodup_singleton _, fun x hx y hy hxy =>
        hmem (List.mem_singleton.mp hy ▸ hxy ▸ hx)⟩
    · intro q
      rw [List.mem_append, List.mem_singleton]
      exact or_congr_right ⟨fun h => ⟨h, hmem⟩, fun h => h.1⟩

theorem foldl_record (rs : List RootPrincipal) : ((rs.foldl record []).map (·.principal_id)).Nodup ∧
    ∀ p, p ∈ rs.foldl record [] ↔ rs.find? (·.principal_id = p.principal_id) = some p := by
  induction rs using List.reverseRecOn with
  | nil => exact ⟨List.nodup_nil, fun p => ⟨fun h => absurd h List.not_mem_nil, fun h => by cases h⟩⟩
  | append_singleton rs q ih =>
    obtain ⟨hnodup, hmem⟩ := ih
    rw [List.foldl_concat]
    obtain ⟨hnodup', hmem'⟩ := record_spec hnodup q
    refine ⟨hnodup', fun p => ?_⟩
    have hid : q.principal_id ∉ (rs.foldl record []).map (·.principal_id) ↔
        rs.find? (·.principal_id = q.principal_id) = none := by
      rw [← not_iff_not, not_not, ← ne_eq, Option.ne_none_iff_exists', List.mem_map]
      constructor
      · rintro ⟨r, hr, heq⟩
        exact ⟨r, heq ▸ (hmem r).mp hr⟩
      · rintro ⟨r, hr⟩
        have heq : r.principal_id = q.principal_id := by simpa using List.find?_some hr
        exact ⟨r, (hmem r).mpr (heq ▸ hr), heq⟩
    rw [hmem', hmem, hid, List.find?_append, Option.or_eq_some_iff, List.find?_singleton]
    refine or_congr_right ⟨?_, ?_⟩
    · rintro ⟨rfl, hnone⟩
      exact ⟨hnone, if_pos (decide_eq_true rfl)⟩
    · rintro ⟨hnone, hsome⟩
      have heq : q = p := by
        split at hsome
        · exact Option.some.inj hsome
        · cases hsome
      exact ⟨heq.symm, heq ▸ hnone⟩

theorem foldl_recordDirect (anchors : List ResponsibilityAnchor) (roots : List RootPrincipal) :
    anchors.foldl recordDirect roots = (anchors.filterMap rootOf).foldl record roots := by
  induction anchors generalizing roots with
  | nil => rfl
  | cons a rest ih =>
    rw [List.foldl_cons, ih, recordDirect]
    cases hroot : rootOf a with
    | none => rw [List.filterMap_cons_none hroot]
    | some p => rw [List.filterMap_cons_some hroot, List.foldl_cons]

theorem direct_unique (anchors : List ResponsibilityAnchor) :
    ((anchors.foldl recordDirect []).map (·.principal_id)).Nodup := by
  rw [foldl_recordDirect]
  exact (foldl_record _).1

theorem mem_direct (anchors : List ResponsibilityAnchor) (p : RootPrincipal) :
    p ∈ anchors.foldl recordDirect [] ↔ FirstRoot anchors p := by
  rw [foldl_recordDirect]
  exact (foldl_record _).2 p

variable {a : ResponsibilityAnchor} {p : RootPrincipal}

theorem rootOf_id (h : rootOf a = some p) : p.principal_id = a.principal_id := by
  rw [rootOf] at h
  split at h
  · exact Option.some.inj h ▸ rfl
  · exact Option.some.inj h ▸ rfl
  · cases h

theorem rootOf_none_iff (a : ResponsibilityAnchor) : rootOf a = none ↔ Indirect a := by
  rw [rootOf, Indirect]
  cases a.principal_kind with
  | human => exact ⟨nofun, nofun⟩
  | org => exact ⟨nofun, nofun⟩
  | agent_acting_for_principal => exact ⟨fun _ => rfl, fun _ => rfl⟩

theorem actsFor_root {pool : List ResponsibilityAnchor} (a : ResponsibilityAnchor) (p : RootPrincipal)
    (h : rootOf a = some p) : actsFor pool a = none := by
  rw [actsFor, h]

theorem actsFor_find {pool : List ResponsibilityAnchor} {a b : ResponsibilityAnchor} (h : actsFor pool a = some b) :
    pool.find? (·.principal_id = b.principal_id) = some b := by
  rw [actsFor] at h
  split at h
  · split at h
    · cases h
    · have heq := List.find?_some h
      rw [decide_eq_true_iff] at heq
      exact heq ▸ h
  · cases h

theorem firstRoot_of_find {anchors : List ResponsibilityAnchor}
    (hfind : anchors.find? (·.principal_id = a.principal_id) = some a) (hroot : rootOf a = some p) :
    FirstRoot anchors p := by
  obtain ⟨_, before, after, rfl, hnone⟩ := List.find?_eq_some_iff_append.mp hfind
  rw [FirstRoot, List.filterMap_append, List.filterMap_cons_some hroot, rootOf_id hroot, List.find?_append,
    List.find?_cons_of_pos (p := fun q : RootPrincipal => q.principal_id = a.principal_id)
      (decide_eq_true (rootOf_id hroot)), Option.or_eq_some_iff]
  refine .inr ⟨List.find?_eq_none.mpr (fun q hq hid => ?_), rfl⟩
  obtain ⟨b, hb, hbroot⟩ := List.mem_filterMap.mp hq
  have hother := hnone b hb
  rw [← rootOf_id hbroot, of_decide_eq_true hid] at hother
  simp at hother

theorem walk_total {anchors : List ResponsibilityAnchor} (ha : a ∈ anchors) :
    ∃ v, (∀ fuel, anchors.length < fuel → walkActingChain fuel a anchors = some v) ∧
      Ends (actsFor anchors) (·.principal_id) rootOf a v := by
  have hpool : ∀ b ∈ anchors, ∀ c, actsFor anchors b = some c → c ∈ anchors :=
    fun _ _ _ h => List.mem_of_find?_eq_some (actsFor_find h)
  obtain ⟨v, hv⟩ : ∃ v, ∀ fuel, anchors.length < fuel →
      walk (actsFor anchors) (·.principal_id) rootOf fuel [] a = some v :=
    walk_returns hpool ha List.nodup_nil (List.nil_subset _)
  exact ⟨v, hv, walk_ends (hv _ (Nat.lt_succ_self _))⟩

theorem firstRoot_of_ends {anchors : List ResponsibilityAnchor} (hindirect : Indirect a)
    (h : Ends (actsFor anchors) (·.principal_id) rootOf a (.ok p)) : FirstRoot anchors p := by
  obtain ⟨n, b, _, hat, hroot, _⟩ := h
  cases n with
  | zero =>
    rw [← Option.some.inj hat, (rootOf_none_iff a).mpr hindirect] at hroot
    cases hroot
  | succ n =>
    obtain ⟨c, _, hnext⟩ := Option.bind_eq_some_iff.mp hat
    exact firstRoot_of_find (actsFor_find hnext) hroot

theorem record_mem {roots : List RootPrincipal} (h : p ∈ roots) : record roots p = roots :=
  if_pos (List.any_eq_true.mpr ⟨p, h, decide_eq_true rfl⟩)

section
variable {anchors : List ResponsibilityAnchor} {verdict : ResponsibilityAnchor → Verdict RootPrincipal}
  (hends : ∀ a ∈ anchors, Ends (actsFor anchors) (·.principal_id) rootOf a (verdict a))

/-- One turn of the second loop, once the verdicts are there. -/
def settleWith (verdict : ResponsibilityAnchor → Verdict RootPrincipal) (s : Walked) (a : ResponsibilityAnchor) :
    Walked := if a.principal_kind ≠ .agent_acting_for_principal then s else s.settle (verdict a)

theorem foldlM_indirect {fuel : Nat} (hverdict : ∀ a ∈ anchors, walkActingChain fuel a anchors = some (verdict a))
    {l : List ResponsibilityAnchor} (hl : l ⊆ anchors) (s : Walked) :
    l.foldlM (recordIndirect fuel anchors) s = some (l.foldl (settleWith verdict) s) := by
  induction l generalizing s with
  | nil => rfl
  | cons a rest ih =>
    obtain ⟨ha, hrest⟩ := List.cons_subset.mp hl
    have hstep : recordIndirect fuel anchors s a = some (settleWith verdict s a) := by
      rw [recordIndirect, settleWith, hverdict a ha]
      split
      · rfl
      · rfl
    rw [List.foldlM_cons, hstep, List.foldl_cons]
    exact ih hrest _

include hends in
theorem foldl_settle {l : List ResponsibilityAnchor} (hl : l ⊆ anchors) {s : Walked}
    (hroots : s.roots = anchors.foldl recordDirect []) :
    (l.foldl (settleWith verdict) s).roots = anchors.foldl recordDirect [] ∧
      ((l.foldl (settleWith verdict) s).sawCircular = true ↔
        s.sawCircular = true ∨ ∃ a ∈ l, Indirect a ∧ verdict a = .circular) := by
  induction l generalizing s with
  | nil => exact ⟨hroots, ⟨.inl, fun h => h.resolve_right (fun ⟨_, ha, _⟩ => absurd ha List.not_mem_nil)⟩⟩
  | cons a rest ih =>
    obtain ⟨ha, hrest⟩ := List.cons_subset.mp hl
    have hstep : (settleWith verdict s a).roots = anchors.foldl recordDirect [] ∧
        ((settleWith verdict s a).sawCircular = true ↔
          s.sawCircular = true ∨ Indirect a ∧ verdict a = .circular) := by
      rw [settleWith]
      split
      · rename_i hdirect
        exact ⟨hroots, ⟨.inl, fun h => h.resolve_right (fun hc => hdirect hc.1)⟩⟩
      · rename_i hindirect
        have hindirect : Indirect a := not_not.mp hindirect
        cases hv : verdict a with
        | ok p =>
          have hp : p ∈ s.roots := by
            rw [hroots, mem_direct]
            exact firstRoot_of_ends hindirect (hv ▸ hends a ha)
          exact ⟨(record_mem hp).trans hroots, ⟨.inl, fun h => h.resolve_right nofun⟩⟩
        | circular => exact ⟨hroots, ⟨fun _ => .inr ⟨hindirect, rfl⟩, fun _ => rfl⟩⟩
        | unresolved => exact ⟨hroots, ⟨.inl, fun h => h.resolve_right nofun⟩⟩
    obtain ⟨hroots', hcircular⟩ := ih hrest hstep.1
    refine ⟨hroots', hcircular.trans ?_⟩
    rw [hstep.2, or_assoc]
    refine or_congr_right ⟨?_, ?_⟩
    · rintro (⟨hindirect, hv⟩ | ⟨b, hb, hrest⟩)
      · exact ⟨a, List.mem_cons_self, hindirect, hv⟩
      · exact ⟨b, List.mem_cons_of_mem a hb, hrest⟩
    · rintro ⟨b, hb, hindirect, hv⟩
      obtain rfl | hb := List.mem_cons.mp hb
      · exact .inl ⟨hindirect, hv⟩
      · exact .inr ⟨b, hb, hindirect, hv⟩

end

theorem result_spec (s : Walked) : s.result.principals = s.roots ∧
    (s.result.chain_integrity = .circular ↔ s.sawCircular = true) ∧
    (s.result.chain_integrity = .ok ↔ ¬ s.sawCircular = true ∧ s.roots ≠ []) := by
  rw [Walked.result]
  by_cases hroots : s.roots = []
  · rw [if_neg (by simp [hroots])]
    cases s.sawCircular with
    | true => simp [hroots]
    | false => cases s.sawUnresolved <;> simp [hroots]
  · rw [if_pos (List.length_pos_iff.mpr hroots)]
    cases s.sawCircular with
    | true => simp [hroots]
    | false => simp [hroots]

theorem cascade_eq {fuel : Nat} {chain : List V2Delegation} (hanchors : anchorsOf chain ≠ [])
    {verdict : ResponsibilityAnchor → Verdict RootPrincipal}
    (hverdict : ∀ a ∈ anchorsOf chain, walkActingChain fuel a (anchorsOf chain) = some (verdict a)) :
    cascadePrincipal fuel chain = some (Walked.result
      ((anchorsOf chain).foldl (settleWith verdict) ⟨(anchorsOf chain).foldl recordDirect [], false, false⟩)) := by
  have hfold := foldlM_indirect hverdict (List.Subset.refl _) ⟨(anchorsOf chain).foldl recordDirect [], false, false⟩
  cases chain with
  | nil => exact absurd rfl hanchors
  | cons root rest =>
    rw [cascadePrincipal, if_neg (fun h => hanchors (List.length_eq_zero_iff.mp h)), hfold]
    rfl

theorem exists_root_iff (anchors : List ResponsibilityAnchor) :
    anchors.foldl recordDirect [] ≠ [] ↔ ∃ a ∈ anchors, (rootOf a).isSome = true := by
  rw [ne_eq, List.eq_nil_iff_forall_not_mem, not_forall_not]
  simp only [mem_direct]
  constructor
  · rintro ⟨p, hp⟩
    obtain ⟨a, ha, hroot⟩ := List.mem_filterMap.mp (List.mem_of_find?_eq_some hp)
    exact ⟨a, ha, Option.isSome_iff_exists.mpr ⟨p, hroot⟩⟩
  · rintro ⟨a, ha, hsome⟩
    obtain ⟨p, hroot⟩ := Option.isSome_iff_exists.mp hsome
    have hfound : ((anchors.filterMap rootOf).find? (·.principal_id = p.principal_id)).isSome = true :=
      List.find?_isSome.mpr ⟨p, List.mem_filterMap.mpr ⟨a, ha, hroot⟩, decide_eq_true rfl⟩
    obtain ⟨q, hq⟩ := Option.isSome_iff_exists.mp hfound
    have hid : q.principal_id = p.principal_id := by simpa using List.find?_some hq
    refine ⟨q, ?_⟩
    rw [FirstRoot, hid]
    exact hq

theorem walkAt_mem {anchors : List ResponsibilityAnchor} {a b : ResponsibilityAnchor} (ha : a ∈ anchors) {n : Nat}
    (hat : walkAt (actsFor anchors) a n = some b) : b ∈ anchors := by
  cases n with
  | zero => exact Option.some.inj hat ▸ ha
  | succ n =>
    obtain ⟨c, _, hnext⟩ := Option.bind_eq_some_iff.mp hat
    exact List.mem_of_find?_eq_some (actsFor_find hnext)

/-- The cascade ends for every chain with an anchor, and its principals, its integrity and the class of every indirect
anchor are what the anchors make them. -/
theorem cascadePrincipal_spec {chain : List V2Delegation} (hanchors : anchorsOf chain ≠ []) :
    ∃ result, ∀ fuel, (anchorsOf chain).length < fuel →
      cascadePrincipal fuel chain = some result ∧ Cascades fuel (anchorsOf chain) result := by
  have hwalks : ∀ a, ∃ v, a ∈ anchorsOf chain →
      (∀ fuel, (anchorsOf chain).length < fuel → walkActingChain fuel a (anchorsOf chain) = some v) ∧
        Ends (actsFor (anchorsOf chain)) (·.principal_id) rootOf a v := by
    intro a
    by_cases ha : a ∈ anchorsOf chain
    · obtain ⟨v, hv⟩ := walk_total ha
      exact ⟨v, fun _ => hv⟩
    · exact ⟨.unresolved, fun h => absurd h ha⟩
  choose verdict hverdict using hwalks
  have hends : ∀ a ∈ anchorsOf chain, Ends (actsFor (anchorsOf chain)) (·.principal_id) rootOf a (verdict a) :=
    fun a ha => (hverdict a ha).2
  refine ⟨_, fun fuel hfuel => ⟨cascade_eq hanchors (fun a ha => (hverdict a ha).1 fuel hfuel), ?_⟩⟩
  have hwalk : ∀ a ∈ anchorsOf chain, walkActingChain fuel a (anchorsOf chain) = some (verdict a) :=
    fun a ha => (hverdict a ha).1 fuel hfuel
  obtain ⟨hroots, hsaw⟩ := foldl_settle hends (List.Subset.refl _)
    (s := ⟨(anchorsOf chain).foldl recordDirect [], false, false⟩) rfl
  obtain ⟨hprincipals, hcircular, hok⟩ := result_spec
    ((anchorsOf chain).foldl (settleWith verdict) ⟨(anchorsOf chain).foldl recordDirect [], false, false⟩)
  have hclass : (∃ a ∈ anchorsOf chain, Indirect a ∧ verdict a = .circular) ↔
      ∃ a ∈ anchorsOf chain, Indirect a ∧ walkActingChain fuel a (anchorsOf chain) = some .circular := by
    refine exists_congr fun a => and_congr_right fun ha => and_congr_right fun _ => ?_
    rw [hwalk a ha, Option.some.injEq]
  have hsaw' := hsaw.trans ⟨fun h => h.resolve_left Bool.false_ne_true, .inr⟩
  rw [hroots] at hprincipals hok
  rw [hsaw', hclass] at hcircular hok
  rw [exists_root_iff] at hok
  constructor
  · rw [hprincipals]
    exact direct_unique _
  · intro p
    rw [hprincipals, mem_direct]
  · intro a ha _
    rw [hwalk a ha, Option.some.injEq]
    exact (hends a ha).circular_iff actsFor_root
  · intro hdistinct a ha _
    refine revisits_iff_infinite actsFor_root (hends a ha) (fun i j b c hb hc hid => ?_)
    exact List.inj_on_of_nodup_map hdistinct (walkAt_mem ha hb) (walkAt_mem ha hc) hid
  · exact hcircular
  · exact hok
  · intro a ha hindirect p hp
    rw [hwalk a ha, Option.some.injEq] at hp
    rw [hprincipals, mem_direct]
    exact firstRoot_of_ends hindirect (hp ▸ hends a ha)

def sampleChain : List V2Delegation :=
  [⟨lit "root", some ⟨lit "alice", .human, none⟩⟩,
    ⟨lit "alice", some ⟨lit "bot", .agent_acting_for_principal, some (lit "relay")⟩⟩,
    ⟨lit "bot", some ⟨lit "relay", .agent_acting_for_principal, some (lit "bot")⟩⟩]

example : cascadePrincipal 4 sampleChain = some ⟨[⟨lit "alice", .human⟩], .circular⟩ := by decide

theorem cascadePrincipal_sample : ∃ result, ∀ fuel, (anchorsOf sampleChain).length < fuel →
    cascadePrincipal fuel sampleChain = some result ∧ Cascades fuel (anchorsOf sampleChain) result :=
  cascadePrincipal_spec (by decide)

end AgentPassport.ResponsibilityCascade
