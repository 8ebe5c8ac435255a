import AgentPassport.ReceiptVerify

/-! What the checks of a receipt establish, and what changing one member leaves. -/
namespace AgentPassport.ReceiptEnvelope
open JsText Js StrictParser StrictParserCorrect StrictRoundTrip CanonicalInjective ReceiptSchema ReceiptVerify
open Outcome

theorem require_eq_ok {ok : Bool} {text : String} : require ok text = .ok () ↔ ok = true := by
  cases ok with
  | true => exact iff_of_true rfl rfl
  | false =>
    constructor
    · intro h
      cases h
    · intro h
      cases h

/-- The strict check passes, whatever the path. -/
def IJson (v : JsValue) : Prop := ∀ path, assertIJson path v = .ok ()

theorem iJson_str {s : Str} : IJson (.str s) ↔ WellFormed s := by
  constructor
  · intro h
    exact ((StrictTokens.assertString_decides s []).cond_of_ok (h [])).1
  · intro h path
    exact (StrictTokens.assertString_decides s path).1 h

theorem iJson_of_assert (v : JsValue) : ∀ path, assertIJson path v = .ok () → IJson v := by
  induction v using JsValue.members_induction with
  | undefined =>
    intro path h
    cases h
  | null =>
    intro _ _ _
    rfl
  | bool b =>
    intro _ _ _
    rfl
  | num n =>
    intro path h path'
    cases n with
    | nan => cases h
    | infinite neg => cases h
    | finite d =>
      rw [assertIJson, assertNumber] at h ⊢
      split at h
      · cases h
      · rename_i hsafe
        rw [if_neg hsafe]
        rfl
  | str s =>
    intro path h
    exact iJson_str.mpr ((StrictTokens.assertString_decides s path).cond_of_ok h).1
  | other t =>
    intro path h
    cases h
  | date iso =>
    intro path h
    cases h
  | arr items ih =>
    intro path h path'
    rw [assertIJson] at h ⊢
    apply assertIJsonItems_ok
    intro v hv
    obtain ⟨p, hp⟩ := assertIJsonItems_inv h v hv
    exact ih v hv p hp
  | obj members ih =>
    intro path h path'
    rw [assertIJson] at h ⊢
    have hinv := assertIJsonMembers_inv h
    refine assertIJsonMembers_ok (fun m hm => (hinv m hm).1) ?_ path'
    intro m hm
    obtain ⟨-, p, hp⟩ := hinv m hm
    exact ih m hm p hp

variable {items : List JsValue}

theorem iJson_arr : IJson (.arr items) ↔ ∀ v ∈ items, IJson v := by
  constructor
  · intro h v hv
    have hall := h []
    rw [assertIJson] at hall
    obtain ⟨p, hp⟩ := assertIJsonItems_inv hall v hv
    exact iJson_of_assert v p hp
  · intro h path
    rw [assertIJson]
    exact assertIJsonItems_ok h path 0

theorem iJson_obj {members : List (Str × JsValue)} :
    IJson (.obj members) ↔ ∀ m ∈ members, WellFormed m.1 ∧ IJson m.2 := by
  constructor
  · intro h m hm
    have hall := h []
    rw [assertIJson] at hall
    obtain ⟨hname, p, hp⟩ := assertIJsonMembers_inv hall m hm
    exact ⟨hname, iJson_of_assert m.2 p hp⟩
  · intro h path
    rw [assertIJson]
    exact assertIJsonMembers_ok (fun m hm => (h m hm).1) (fun m hm => (h m hm).2) path

/-- No string has a noncharacter, whatever the path. -/
def Clean (v : JsValue) : Prop := ∀ path, assertNoNoncharacters path v = .ok ()

def CleanText (s : Str) : Prop := ∀ codePoint ∈ codePoints s, isNoncharacterCodePoint codePoint = false

instance (s : Str) : Decidable (CleanText s) := inferInstanceAs (Decidable (∀ _ ∈ _, _))

theorem assertNoNoncharacter_ok {s path : Str} : assertNoNoncharacter s path = .ok () ↔ CleanText s := by
  rw [assertNoNoncharacter, CleanText]
  constructor
  · intro h codePoint hmem
    split at h
    · cases h
    · rename_i hnone
      exact eq_false_of_ne_true (List.find?_eq_none.mp hnone codePoint hmem)
  · intro h
    have hnone : (codePoints s).find? isNoncharacterCodePoint = none :=
      List.find?_eq_none.mpr (fun codePoint hmem => ne_true_of_eq_false (h codePoint hmem))
    rw [hnone]
    rfl

theorem clean_str {s : Str} : Clean (.str s) ↔ CleanText s := by
  constructor
  · intro h
    exact assertNoNoncharacter_ok.mp (h [])
  · intro h path
    exact assertNoNoncharacter_ok.mpr h

variable {path : Str}

theorem assertNoNoncharacterItems_ok : ∀ {i : Nat},
    assertNoNoncharacterItems path i items = .ok () →
      ∀ v ∈ items, ∃ p, assertNoNoncharacters p v = .ok () := by
  induction items with
  | nil =>
    intro i _
    exact List.forall_mem_nil _
  | cons v rest ih =>
    intro i h
    rw [assertNoNoncharacterItems] at h
    obtain ⟨hv, hrest⟩ := bind_unit_eq_ok.mp h
    exact List.forall_mem_cons.mpr ⟨⟨_, hv⟩, ih hrest⟩

theorem assertNoNoncharacterItems_of (h : ∀ v ∈ items, Clean v) :
    ∀ i, assertNoNoncharacterItems path i items = .ok () := by
  induction items with
  | nil =>
    intro i
    rfl
  | cons v rest ih =>
    intro i
    obtain ⟨hv, hrest⟩ := List.forall_mem_cons.mp h
    rw [assertNoNoncharacterItems]
    exact bind_unit_eq_ok.mpr ⟨hv _, ih hrest (i + 1)⟩

theorem assertNoNoncharacterMembers_ok {members : List (Str × JsValue)}
    (h : assertNoNoncharacterMembers path members = .ok ()) :
    ∀ m ∈ members, CleanText m.1 ∧ ∃ p, assertNoNoncharacters p m.2 = .ok () := by
  induction members with
  | nil => exact List.forall_mem_nil _
  | cons m rest ih =>
    rw [assertNoNoncharacterMembers] at h
    obtain ⟨hname, h⟩ := bind_unit_eq_ok.mp h
    obtain ⟨hv, hrest⟩ := bind_unit_eq_ok.mp h
    exact List.forall_mem_cons.mpr ⟨⟨assertNoNoncharacter_ok.mp hname, _, hv⟩, ih hrest⟩

theorem assertNoNoncharacterMembers_of {members : List (Str × JsValue)} (h : ∀ m ∈ members, CleanText m.1 ∧ Clean m.2) :
    assertNoNoncharacterMembers path members = .ok () := by
  induction members with
  | nil => rfl
  | cons m rest ih =>
    obtain ⟨hm, hrest⟩ := List.forall_mem_cons.mp h
    rw [assertNoNoncharacterMembers]
    exact bind_unit_eq_ok.mpr ⟨assertNoNoncharacter_ok.mpr hm.1, bind_unit_eq_ok.mpr ⟨hm.2 _, ih hrest⟩⟩

theorem clean_of_assert (v : JsValue) : ∀ path, assertNoNoncharacters path v = .ok () → Clean v := by
  induction v using JsValue.members_induction with
  | undefined =>
    intro _ _ _
    rfl
  | null =>
    intro _ _ _
    rfl
  | bool b =>
    intro _ _ _
    rfl
  | num n =>
    intro _ _ _
    rfl
  | other t =>
    intro _ _ _
    rfl
  | date iso =>
    intro _ _ _
    rfl
  | str s =>
    intro path h
    exact clean_str.mpr (assertNoNoncharacter_ok.mp h)
  | arr items ih =>
    intro path h path'
    rw [assertNoNoncharacters] at h ⊢
    apply assertNoNoncharacterItems_of
    intro v hv
    obtain ⟨p, hp⟩ := assertNoNoncharacterItems_ok h v hv
    exact ih v hv p hp
  | obj members ih =>
    intro path h path'
    rw [assertNoNoncharacters] at h ⊢
    apply assertNoNoncharacterMembers_of
    intro m hm
    obtain ⟨hname, p, hp⟩ := assertNoNoncharacterMembers_ok h m hm
    exact ⟨hname, ih m hm p hp⟩

theorem clean_arr : Clean (.arr items) ↔ ∀ v ∈ items, Clean v := by
  constructor
  · intro h v hv
    have hall := h []
    rw [assertNoNoncharacters] at hall
    obtain ⟨p, hp⟩ := assertNoNoncharacterItems_ok hall v hv
    exact clean_of_assert v p hp
  · intro h path
    rw [assertNoNoncharacters]
    exact assertNoNoncharacterItems_of h 0

theorem clean_obj {members : List (Str × JsValue)} :
    Clean (.obj members) ↔ ∀ m ∈ members, CleanText m.1 ∧ Clean m.2 := by
  constructor
  · intro h m hm
    have hall := h []
    rw [assertNoNoncharacters] at hall
    obtain ⟨hname, p, hp⟩ := assertNoNoncharacterMembers_ok hall m hm
    exact ⟨hname, clean_of_assert m.2 p hp⟩
  · intro h path
    rw [assertNoNoncharacters]
    exact assertNoNoncharacterMembers_of h

theorem isJson_of_iJson {v : JsValue} (h : IJson v) (hkeyed : keyed v = true) : IsJson v :=
  isJson_of_assert v _ (h []) hkeyed

variable {numText : Double → Str}

theorem strictJCS_iJson {v : JsValue} (h : IJson v) (hkeyed : keyed v = true) :
    strictJCS numText v = .ok (emit numText v) :=
  strictJCS_ok (isJson_of_iJson h hkeyed) (h _)

theorem assertStrict_eq_ok {numText : Double → Str} {v : JsValue} (hkeyed : keyed v = true) :
    assertStrict numText v = .ok () ↔ IJson v := by
  constructor
  · intro h
    rw [assertStrict] at h
    split at h
    · rename_i canonical hcanonical
      rw [strictJCS] at hcanonical
      obtain ⟨u, hassert, -⟩ := bind_eq_ok.mp hcanonical
      cases hcheck : assertIJson (lit "$") v with
      | ok u => exact iJson_of_assert v _ hcheck
      | error e =>
        rw [hcheck] at hassert
        cases hassert
    · cases h
  · intro h
    rw [assertStrict, strictJCS_iJson h hkeyed]
    rfl

theorem strictText_iJson {R : Runtime} {v : JsValue} (h : IJson v) (hkeyed : keyed v = true) :
    strictText R v = .ok (emit R.numText v) := by
  rw [strictText, strictJCS_iJson h hkeyed]
  rfl

theorem unknownField_eq_ok {name : Str} {allowed : List Str} {members : List (Str × JsValue)} :
    unknownField name allowed members = .ok () ↔ ∀ m ∈ members, m.1 ∈ allowed := by
  have hany : ∀ key, (allowed.any (· = key)) = true ↔ key ∈ allowed := by
    intro key
    simp only [List.any_eq_true, decide_eq_true_eq, exists_eq_right]
  rw [unknownField]
  constructor
  · intro h m hm
    split at h
    · cases h
    · rename_i hnone
      have hknown := List.find?_eq_none.mp hnone m hm
      rw [Bool.not_eq_true', Bool.not_eq_false] at hknown
      exact (hany m.1).mp hknown
  · intro h
    have hnone : members.find? (fun m => !allowed.any (· = m.1)) = none := by
      rw [List.find?_eq_none]
      intro m hm
      rw [(hany m.1).mpr (h m hm)]
      exact Bool.false_ne_true
    rw [hnone]
    rfl

theorem any_name {members : List (Str × JsValue)} {key : Str} :
    (members.any (fun m => m.1 = key)) = true ↔ key ∈ members.map Prod.fst := by
  simp only [List.any_eq_true, decide_eq_true_eq, List.mem_map]

theorem missingField_eq_ok {name : Str} {required : List Str} {members : List (Str × JsValue)} :
    missingField name required members = .ok () ↔ ∀ key ∈ required, key ∈ members.map Prod.fst := by
  rw [missingField]
  constructor
  · intro h key hkey
    split at h
    · cases h
    · rename_i hnone
      have hpresent := List.find?_eq_none.mp hnone key hkey
      rw [Bool.not_eq_true', Bool.not_eq_false] at hpresent
      exact any_name.mp hpresent
  · intro h
    have hnone : required.find? (fun key => !members.any (fun m => m.1 = key)) = none := by
      rw [List.find?_eq_none]
      intro key hkey
      rw [any_name.mpr (h key hkey)]
      exact Bool.false_ne_true
    rw [hnone]
    rfl

theorem assertExactKeys_eq_ok {value : JsValue} {allowed required : List Str} {name : Str} (hrequired : required ≠ []) :
    assertExactKeys value allowed required name = .ok () ↔
      ∃ members, value = .obj members ∧ (∀ m ∈ members, m.1 ∈ allowed) ∧
        ∀ key ∈ required, key ∈ members.map Prod.fst := by
  have hnone : exactMembers [] allowed required name ≠ .ok () := by
    intro h
    have hmissing := missingField_eq_ok.mp (bind_unit_eq_ok.mp h).2
    obtain ⟨key, rest, rfl⟩ := List.exists_cons_of_ne_nil hrequired
    cases hmissing key List.mem_cons_self
  constructor
  · intro h
    cases value with
    | obj members =>
      obtain ⟨hallowed, hpresent⟩ := bind_unit_eq_ok.mp h
      exact ⟨members, rfl, unknownField_eq_ok.mp hallowed, missingField_eq_ok.mp hpresent⟩
    | date iso => exact absurd h hnone
    | arr items =>
      rw [assertExactKeys] at h
      split at h
      · exact absurd h hnone
      · cases h
    | str s =>
      rw [assertExactKeys] at h
      split at h
      · cases h
      · cases h
    | undefined => cases h
    | null => cases h
    | bool b => cases h
    | num n => cases h
    | other t => cases h
  · rintro ⟨members, rfl, hallowed, hpresent⟩
    exact bind_unit_eq_ok.mpr ⟨unknownField_eq_ok.mpr hallowed, missingField_eq_ok.mpr hpresent⟩

/-- What the validation of a receipt establishes. -/
structure Envelope (numText : Double → Str) (requireValues : Bool) (receipt : JsValue) : Prop where
  keys : assertExactKeys receipt RECEIPT_MEMBERS RECEIPT_REQUIRED (lit "ReceiptV1") = .ok ()
  iJson : IJson receipt
  clean : Clean receipt
  members : checkMembers receipt requireValues = .ok ()
  lists : checkLists receipt requireValues = .ok ()

variable {requireValues : Bool} {receipt : JsValue}

theorem Envelope.members_eq (h : Envelope numText requireValues receipt) :
    ∃ members, receipt = .obj members ∧ (∀ m ∈ members, m.1 ∈ RECEIPT_MEMBERS) ∧
      ∀ key ∈ RECEIPT_REQUIRED, key ∈ members.map Prod.fst :=
  (assertExactKeys_eq_ok (by decide)).mp h.keys

theorem validate_eq_ok (hkeyed : keyed receipt = true) :
    validateReceiptV1 numText receipt requireValues = .ok () ↔ Envelope numText requireValues receipt := by
  rw [validateReceiptV1, bind_unit_eq_ok, bind_unit_eq_ok, bind_unit_eq_ok, bind_unit_eq_ok, assertStrict_eq_ok hkeyed]
  constructor
  · rintro ⟨hkeys, hijson, hclean, hmembers, hlists⟩
    exact ⟨hkeys, hijson, clean_of_assert receipt _ hclean, hmembers, hlists⟩
  · rintro ⟨hkeys, hijson, hclean, hmembers, hlists⟩
    exact ⟨hkeys, hijson, hclean _, hmembers, hlists⟩

theorem Envelope.result_isRecord (h : Envelope numText requireValues receipt) :
    isRecord (receipt.get (lit "result")) = true := by
  obtain ⟨-, h⟩ := bind_unit_eq_ok.mp h.members
  obtain ⟨-, h⟩ := bind_unit_eq_ok.mp h
  obtain ⟨-, h⟩ := bind_unit_eq_ok.mp h
  obtain ⟨-, h⟩ := bind_unit_eq_ok.mp h
  obtain ⟨-, h⟩ := bind_unit_eq_ok.mp h
  obtain ⟨-, h⟩ := bind_unit_eq_ok.mp h
  obtain ⟨-, h⟩ := bind_unit_eq_ok.mp h
  obtain ⟨-, h⟩ := bind_unit_eq_ok.mp h
  obtain ⟨-, h⟩ := bind_unit_eq_ok.mp h
  obtain ⟨-, h⟩ := bind_unit_eq_ok.mp h
  exact require_eq_ok.mp h

section
variable {members : List (Str × JsValue)} {name : Str} {v : JsValue}

theorem setMember_split (h : name ∉ members.map Prod.fst) :
    ∃ bef aft, members = bef ++ aft ∧ setMember name v members = bef ++ (name, v) :: aft := by
  rw [setMember, if_neg (fun hany => h (any_name.mp hany))]
  exact ⟨_, _, List.takeWhile_append_dropWhile.symm, rfl⟩

theorem setMember_present (h : name ∈ members.map Prod.fst) :
    setMember name v members = members.map (fun m => if m.1 = name then (name, v) else m) := by
  rw [setMember, if_pos (any_name.mpr h)]

theorem setMember_names (h : name ∈ members.map Prod.fst) :
    (setMember name v members).map Prod.fst = members.map Prod.fst := by
  rw [setMember_present h, List.map_map]
  apply List.map_congr_left
  intro m _
  rw [Function.comp_apply]
  split
  · rename_i hname
    exact hname.symm
  · rfl

theorem setMember_setMember (h : name ∈ members.map Prod.fst) {w : JsValue} :
    setMember name w (setMember name v members) = setMember name w members := by
  have hset : name ∈ (setMember name v members).map Prod.fst := by
    rw [setMember_names h]
    exact h
  rw [setMember_present hset, setMember_present h, setMember_present h, List.map_map]
  apply List.map_congr_left
  intro m _
  rw [Function.comp_apply]
  by_cases hm : m.1 = name
  · rw [if_pos hm, if_pos rfl, if_pos hm]
  · rw [if_neg hm, if_neg hm]

theorem mem_names_setMember {other : Str} :
    other ∈ (setMember name v members).map Prod.fst ↔ other = name ∨ other ∈ members.map Prod.fst := by
  by_cases h : name ∈ members.map Prod.fst
  · rw [setMember_names h]
    constructor
    · exact .inr
    · rintro (rfl | hother)
      · exact h
      · exact hother
  · obtain ⟨bef, aft, rfl, hset⟩ := setMember_split (v := v) h
    rw [hset, List.map_append, List.map_append, List.map_cons, List.mem_append, List.mem_cons, List.mem_append]
    exact or_left_comm

theorem nodup_names_setMember (h : (members.map Prod.fst).Nodup) : ((setMember name v members).map Prod.fst).Nodup := by
  by_cases hname : name ∈ members.map Prod.fst
  · rw [setMember_names hname]
    exact h
  · obtain ⟨bef, aft, rfl, hset⟩ := setMember_split (v := v) hname
    rw [List.map_append] at h hname
    rw [hset, List.map_append, List.map_cons, List.nodup_middle, List.nodup_cons]
    exact ⟨hname, h⟩

theorem find_none {l : List (Str × JsValue)} (h : name ∉ l.map Prod.fst) : l.find? (fun m => m.1 = name) = none := by
  rw [List.find?_eq_none]
  intro m hm heq
  exact h (List.mem_map.mpr ⟨m, hm, of_decide_eq_true heq⟩)

theorem member?_setMember_self : member? name (setMember name v members) = some v := by
  by_cases h : name ∈ members.map Prod.fst
  · rw [setMember_present h, member?]
    induction members with
    | nil => cases h
    | cons m rest ih =>
      rw [List.map_cons, List.find?_cons]
      by_cases hm : m.1 = name
      · rw [if_pos hm, decide_eq_true rfl]
        rfl
      · rw [if_neg hm, decide_eq_false hm]
        rw [List.map_cons, List.mem_cons] at h
        exact ih (h.resolve_left (fun heq => hm heq.symm))
  · obtain ⟨bef, aft, rfl, hset⟩ := setMember_split (v := v) h
    rw [List.map_append, List.mem_append, not_or] at h
    rw [hset, member?, List.find?_append, find_none h.1, Option.none_or, List.find?_cons, decide_eq_true rfl]
    rfl

theorem member?_setMember_ne {other : Str} (hne : other ≠ name) :
    member? other (setMember name v members) = member? other members := by
  by_cases h : name ∈ members.map Prod.fst
  · rw [setMember_present h, member?, member?]
    congr 1
    clear h
    induction members with
    | nil => rfl
    | cons m rest ih =>
      rw [List.map_cons, List.find?_cons, List.find?_cons]
      by_cases hm : m.1 = name
      · rw [if_pos hm, decide_eq_false (fun heq : name = other => hne heq.symm),
          decide_eq_false (fun heq : m.1 = other => hne (heq.symm.trans hm))]
        exact ih
      · rw [if_neg hm]
        split
        · rfl
        · exact ih
  · obtain ⟨bef, aft, rfl, hset⟩ := setMember_split (v := v) h
    rw [hset, member?, member?, List.find?_append, List.find?_append, List.find?_cons,
      decide_eq_false (fun heq : name = other => hne heq.symm)]

theorem filter_setMember {names : List Str} (hname : name ∈ names) :
    (setMember name v members).filter (fun m => !names.any (· = m.1)) = members.filter (fun m => !names.any (· = m.1)) := by
  have hout : (!names.any (· = name)) = false := by
    rw [Bool.not_eq_false', List.any_eq_true]
    exact ⟨name, hname, decide_eq_true rfl⟩
  by_cases h : name ∈ members.map Prod.fst
  · rw [setMember_present h]
    clear h
    induction members with
    | nil => rfl
    | cons m rest ih =>
      rw [List.map_cons, List.filter_cons, List.filter_cons, ih]
      by_cases hm : m.1 = name
      · rw [if_pos hm, hm, hout]
        rfl
      · rw [if_neg hm]
  · obtain ⟨bef, aft, rfl, hset⟩ := setMember_split (v := v) h
    rw [hset, List.filter_append, List.filter_append, List.filter_cons, hout, if_neg Bool.false_ne_true]

theorem keyed_setMember (hkeyed : keyed (.obj members) = true) (hv : keyed v = true) :
    keyed (.obj (setMember name v members)) = true := by
  rw [keyed_obj] at hkeyed ⊢
  refine ⟨nodup_names_setMember hkeyed.1, ?_⟩
  intro m hm
  rcases Js.mem_setMember hm with rfl | hold
  · exact hv
  · exact hkeyed.2 m hold

theorem forall_setMember {P : Str × JsValue → Prop} (h : ∀ m ∈ members, P m) (hv : P (name, v)) :
    ∀ m ∈ setMember name v members, P m := by
  intro m hm
  rcases Js.mem_setMember hm with rfl | hold
  · exact hv
  · exact h m hold

theorem get_setMember_self : (JsValue.obj (setMember name v members)).get name = v := by
  rw [JsValue.get, member?_setMember_self]
  rfl

theorem get_setMember_ne {other : Str} (hne : other ≠ name) :
    (JsValue.obj (setMember name v members)).get other = (JsValue.obj members).get other := by
  rw [JsValue.get, JsValue.get, member?_setMember_ne hne]

theorem without_setMember {names : List Str} (hname : name ∈ names) :
    without (.obj (setMember name v members)) names = without (.obj members) names := by
  rw [without, without, filter_setMember hname]

end

end AgentPassport.ReceiptEnvelope
