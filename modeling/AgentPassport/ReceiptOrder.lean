import AgentPassport.ReceiptReport

/-! The order of evidence references and signatures, and lists that ascend in it. -/
namespace AgentPassport.ReceiptOrder
open JsText Js Utf8 Outcome ReceiptSchema ReceiptVerify ReceiptEnvelope

variable {a b : Str × Str}

theorem before_iff : before a b = true ↔ utf8 a.1 < utf8 b.1 ∨ utf8 a.1 = utf8 b.1 ∧ utf8 a.2 < utf8 b.2 := by
  rw [before, Bool.or_eq_true, Bool.and_eq_true, decide_eq_true_eq, decide_eq_true_eq, decide_eq_true_eq]

theorem before_irrefl (a : Str × Str) : ¬ before a a = true := by
  rw [before_iff]
  rintro (h | ⟨-, h⟩)
  · exact List.lt_irrefl _ h
  · exact List.lt_irrefl _ h

theorem before_trans {a b c : Str × Str} (h : before a b = true) (h' : before b c = true) : before a c = true := by
  rw [before_iff] at h h' ⊢
  rcases h with h | ⟨heq, h⟩
  · rcases h' with h' | ⟨heq', -⟩
    · exact .inl (List.lt_trans h h')
    · rw [heq'] at h
      exact .inl h
  · rcases h' with h' | ⟨heq', h'⟩
    · rw [← heq] at h'
      exact .inl h'
    · exact .inr ⟨heq.trans heq', List.lt_trans h h'⟩

theorem before_asymm (h : before a b = true) : ¬ before b a = true := by
  intro h'
  exact before_irrefl a (before_trans h h')

theorem bytes_eq_of_not_lt {s t : List UInt8} (h : ¬ s < t) (h' : ¬ t < s) : s = t :=
  List.le_antisymm (List.not_lt.mp h') (List.not_lt.mp h)

theorem bytes_of_tie (h : ¬ before a b = true) (h' : ¬ before b a = true) :
    utf8 a.1 = utf8 b.1 ∧ utf8 a.2 = utf8 b.2 := by
  rw [before_iff, not_or, not_and] at h h'
  have hfirst := bytes_eq_of_not_lt h.1 h'.1
  exact ⟨hfirst, bytes_eq_of_not_lt (h.2 hfirst) (h'.2 hfirst.symm)⟩

theorem eq_of_tie (ha : WellFormed a.1 ∧ WellFormed a.2) (hb : WellFormed b.1 ∧ WellFormed b.2)
    (h : ¬ before a b = true) (h' : ¬ before b a = true) : a = b := by
  obtain ⟨hfirst, hsecond⟩ := bytes_of_tie h h'
  exact Prod.ext (utf8_inj ha.1 hb.1 hfirst) (utf8_inj ha.2 hb.2 hsecond)

theorem ordered_iff : ordered a b = true ↔ ¬ before b a = true := by
  rw [ordered, Bool.not_eq_true', Bool.not_eq_true]

theorem ordered_total (a b : Str × Str) : ordered a b = true ∨ ordered b a = true := by
  rw [ordered_iff, ordered_iff, ← not_and_or]
  rintro ⟨h, h'⟩
  exact before_asymm h h'

theorem before_of_bytes {a a' b b' : Str × Str} (ha : utf8 a.1 = utf8 a'.1 ∧ utf8 a.2 = utf8 a'.2)
    (hb : utf8 b.1 = utf8 b'.1 ∧ utf8 b.2 = utf8 b'.2) : before a b = before a' b' := by
  rw [before, before, ha.1, ha.2, hb.1, hb.2]

theorem ordered_trans {a b c : Str × Str} (h : ordered a b = true) (h' : ordered b c = true) : ordered a c = true := by
  rw [ordered_iff] at h h' ⊢
  intro hca
  by_cases hab : before a b = true
  · exact h' (before_trans hca hab)
  · have htie := bytes_of_tie hab h
    rw [before_of_bytes ⟨rfl, rfl⟩ htie] at hca
    exact h' hca

/-- The keys ascend, and no two of them are joined to the same text. -/
structure Ascending (key : JsValue → Str × Str) (l : List JsValue) : Prop where
  before : l.Pairwise (fun a b => before (key a) (key b) = true)
  distinct : l.Pairwise (fun a b => joined (key a) ≠ joined (key b))

section
variable {check : JsValue → Check} {key : JsValue → Str × Str} {duplicate unsorted : String}

theorem any_joined {seen : List (Str × Str)} {k : Str × Str} :
    (!seen.any (fun other => joined other = joined k)) = true ↔ ∀ other ∈ seen, joined other ≠ joined k := by
  rw [Bool.not_eq_true', List.any_eq_false]
  simp only [decide_eq_true_eq, ne_eq]

theorem checkAscending_from {seen : List (Str × Str)} {l : List JsValue}
    (hseen : seen.Pairwise (fun later earlier => before earlier later = true)) :
    checkAscending check key duplicate unsorted seen l = .ok () ↔
      (∀ item ∈ l, check item = .ok ()) ∧ Ascending key l ∧
        ∀ item ∈ l, ∀ k ∈ seen, before k (key item) = true ∧ joined k ≠ joined (key item) := by
  induction l generalizing seen with
  | nil =>
    refine iff_of_true rfl ⟨List.forall_mem_nil _, ⟨.nil, .nil⟩, List.forall_mem_nil _⟩
  | cons item rest ih =>
    have hhead : (seen.head?.all (fun last => before last (key item))) = true ↔
        ∀ k ∈ seen, before k (key item) = true := by
      cases seen with
      | nil => exact iff_of_true rfl (List.forall_mem_nil _)
      | cons last earlier =>
        rw [List.head?_cons, Option.all_some, List.forall_mem_cons]
        constructor
        · intro h
          exact ⟨h, fun k hk => before_trans (List.rel_of_pairwise_cons hseen hk) h⟩
        · intro h
          exact h.1
    rw [checkAscending, bind_unit_eq_ok, bind_unit_eq_ok, bind_unit_eq_ok, require_eq_ok, require_eq_ok, any_joined, hhead]
    constructor
    · rintro ⟨hcheck, hjoined, hbefore, hrest⟩
      obtain ⟨hchecks, hascending, hseenRest⟩ := (ih (List.pairwise_cons.mpr ⟨hbefore, hseen⟩)).mp hrest
      refine ⟨List.forall_mem_cons.mpr ⟨hcheck, hchecks⟩, ⟨?_, ?_⟩, List.forall_mem_cons.mpr ⟨?_, ?_⟩⟩
      · exact List.pairwise_cons.mpr ⟨fun b hb => (hseenRest b hb _ List.mem_cons_self).1, hascending.before⟩
      · exact List.pairwise_cons.mpr ⟨fun b hb => (hseenRest b hb _ List.mem_cons_self).2, hascending.distinct⟩
      · exact fun k hk => ⟨hbefore k hk, hjoined k hk⟩
      · exact fun b hb k hk => hseenRest b hb k (List.mem_cons_of_mem _ hk)
    · rintro ⟨hchecks, ⟨hpairs, hdistinct⟩, hseenAll⟩
      obtain ⟨hcheck, hchecks⟩ := List.forall_mem_cons.mp hchecks
      obtain ⟨hitem, hseenRest⟩ := List.forall_mem_cons.mp hseenAll
      obtain ⟨hpair, hpairs⟩ := List.pairwise_cons.mp hpairs
      obtain ⟨hne, hdistinct⟩ := List.pairwise_cons.mp hdistinct
      refine ⟨hcheck, fun k hk => (hitem k hk).2, fun k hk => (hitem k hk).1, ?_⟩
      refine (ih (List.pairwise_cons.mpr ⟨fun k hk => (hitem k hk).1, hseen⟩)).mpr ⟨hchecks, ⟨hpairs, hdistinct⟩, ?_⟩
      intro b hb
      exact List.forall_mem_cons.mpr ⟨⟨hpair b hb, hne b hb⟩, hseenRest b hb⟩

theorem checkAscending_eq_ok {l : List JsValue} :
    checkAscending check key duplicate unsorted [] l = .ok () ↔ (∀ item ∈ l, check item = .ok ()) ∧ Ascending key l := by
  rw [checkAscending_from .nil]
  constructor
  · intro h
    exact ⟨h.1, h.2.1⟩
  · intro h
    exact ⟨h.1, h.2, fun _ _ => List.forall_mem_nil _⟩

end

theorem checkLists_eq_ok {receipt : JsValue} :
    checkLists receipt true = .ok () ↔
      (isArray (receipt.get (lit "evidence_refs")) = true ∧ isArray (receipt.get (lit "signatures")) = true) ∧
      ((∀ ref ∈ items (receipt.get (lit "evidence_refs")), checkEvidenceRef ref = .ok ()) ∧
        Ascending evidenceKey (items (receipt.get (lit "evidence_refs")))) ∧
      ((∀ proof ∈ items (receipt.get (lit "signatures")), checkSignature true proof = .ok ()) ∧
        Ascending signatureKey (items (receipt.get (lit "signatures")))) ∧
      ∃ proof ∈ items (receipt.get (lit "signatures")), (signatureKey proof).1 = text (receipt.get (lit "issuer")) := by
  rw [checkLists, bind_unit_eq_ok, bind_unit_eq_ok, bind_unit_eq_ok, require_eq_ok, require_eq_ok, checkAscending_eq_ok,
    checkAscending_eq_ok, Bool.and_eq_true, Bool.not_true, Bool.false_or, List.any_eq_true]
  simp only [decide_eq_true_eq, signatureKey]

theorem ascending_insert {key : JsValue → Str × Str} {bef aft : List JsValue} {e : JsValue} :
    Ascending key (bef ++ e :: aft) ↔ Ascending key (bef ++ aft) ∧
      ((∀ p ∈ bef, before (key p) (key e) = true) ∧ ∀ p ∈ aft, before (key e) (key p) = true) ∧
        ∀ p ∈ bef ++ aft, joined (key p) ≠ joined (key e) := by
  constructor
  · rintro ⟨hbefore, hdistinct⟩
    rw [List.pairwise_append] at hbefore hdistinct
    obtain ⟨hbef, haft, hcross⟩ := hbefore
    obtain ⟨hbef', haft', hcross'⟩ := hdistinct
    rw [List.pairwise_cons] at haft haft'
    refine ⟨⟨?_, ?_⟩, ⟨?_, haft.1⟩, ?_⟩
    · exact List.pairwise_append.mpr ⟨hbef, haft.2, fun a ha b hb => hcross a ha b (List.mem_cons_of_mem _ hb)⟩
    · exact List.pairwise_append.mpr ⟨hbef', haft'.2, fun a ha b hb => hcross' a ha b (List.mem_cons_of_mem _ hb)⟩
    · exact fun p hp => hcross p hp e List.mem_cons_self
    · rw [List.forall_mem_append]
      exact ⟨fun p hp => hcross' p hp e List.mem_cons_self, fun p hp => (haft'.1 p hp).symm⟩
  · rintro ⟨⟨hbefore, hdistinct⟩, ⟨hbef, haft⟩, hne⟩
    rw [List.pairwise_append] at hbefore hdistinct
    rw [List.forall_mem_append] at hne
    refine ⟨List.pairwise_append.mpr ⟨hbefore.1, List.pairwise_cons.mpr ⟨haft, hbefore.2.1⟩, ?_⟩,
      List.pairwise_append.mpr ⟨hdistinct.1, List.pairwise_cons.mpr ⟨fun p hp => (hne.2 p hp).symm, hdistinct.2.1⟩, ?_⟩⟩
    · exact fun a ha => List.forall_mem_cons.mpr ⟨hbef a ha, hbefore.2.2 a ha⟩
    · exact fun a ha => List.forall_mem_cons.mpr ⟨hne.1 a ha, hdistinct.2.2 a ha⟩

section
variable {α : Type} (key : α → Str × Str)

def sortBy (l : List α) : List α := l.insertionSort (fun a b => ordered (key a) (key b) = true)

variable {key}

theorem sortBy_perm (l : List α) : (sortBy key l).Perm l := List.perm_insertionSort _ l

theorem sortBy_ordered (l : List α) : (sortBy key l).Pairwise (fun a b => ordered (key a) (key b) = true) := by
  have : Std.Total (fun a b : α => ordered (key a) (key b) = true) := ⟨fun a b => ordered_total _ _⟩
  have : IsTrans α (fun a b : α => ordered (key a) (key b) = true) := ⟨fun a b c => ordered_trans⟩
  exact List.pairwise_insertionSort _ l

theorem sortBy_eq_of_perm {l l' : List α} (hperm : l'.Perm l)
    (hbefore : (sortBy key l).Pairwise (fun a b => before (key a) (key b) = true)) : sortBy key l' = sortBy key l := by
  have hsorted : (sortBy key l').Perm (sortBy key l) := (sortBy_perm l').trans (hperm.trans (sortBy_perm l).symm)
  refine List.Perm.eq_of_pairwise ?_ (sortBy_ordered l') (sortBy_ordered l) hsorted
  intro a b ha hb hab hba
  have hno : (sortBy key l).Pairwise (fun a b => ¬ (ordered (key a) (key b) = true ∧ ordered (key b) (key a) = true)) := by
    refine hbefore.imp ?_
    intro a b h htie
    exact ordered_iff.mp htie.2 h
  have : Std.Symm (fun a b : α => ¬ (ordered (key a) (key b) = true ∧ ordered (key b) (key a) = true)) :=
    ⟨fun a b h htie => h htie.symm⟩
  by_contra hne
  exact hno.forall (hsorted.subset ha) hb hne ⟨hab, hba⟩

end

end AgentPassport.ReceiptOrder
