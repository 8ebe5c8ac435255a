import AgentPassport.JsValue

/-! Plain-data snapshots of caller values (`v2/authority-delegation/plain-data.ts`). A caller
value is what the walk can learn from property descriptors, none of which runs caller code: a
container met again on its own path is `cycle`, and a property that is a hole, an accessor or
not enumerable has no value. -/
namespace AgentPassport.PlainData
open JsText Js

/-- What is read of an array apart from its indices. -/
structure ArrayHeader where
  intrinsicPrototype : Bool
  ownSymbols : Bool
  /-- An own `toJSON` that is callable or an accessor. -/
  toJSONHook : Bool
  deriving DecidableEq

/-- What is read of an object apart from its own names. -/
structure ObjectHeader where
  boxedPrimitive : Bool
  rawJSON : Bool
  /-- The prototype is null or the `Object.prototype` of some realm. -/
  plainPrototype : Bool
  ownSymbols : Bool
  deriving DecidableEq

inductive CallerValue where
  | undefined
  | null
  | bool (b : Bool)
  | num (n : JsNumber)
  | str (s : Str)
  | other (type : OtherType)
  | proxy
  | cycle
  | arr (header : ArrayHeader) (slots : List (Option CallerValue))
  | obj (header : ObjectHeader) (members : List (Str × Option CallerValue))

def NOT_PLAIN_DATA : JsValue := .other .symbol

def plainArrayLength (header : ArrayHeader) (slots : List (Option CallerValue)) : Option Nat :=
  if !header.intrinsicPrototype then none
  else if header.ownSymbols then none
  else if header.toJSONHook then none
  else some slots.length

/-- The own names of an exact plain object; beyond `2 ^ 23` of them the runtime throws. -/
def plainObjectKeys (header : ObjectHeader) (members : List (Str × Option CallerValue)) : Option (List Str) :=
  if header.boxedPrimitive || header.rawJSON then none
  else if !header.plainPrototype then none
  else if header.ownSymbols then none
  else if 2 ^ 23 < members.length then none
  else some (members.map Prod.fst)

mutual
def snapshotPlainData : CallerValue → JsValue
  | .null => .null
  | .bool b => .bool b
  | .str s => .str s
  | .num (.finite d) => .num (.finite d)
  | .arr header slots =>
    match plainArrayLength header slots with
    | none => NOT_PLAIN_DATA
    | some _ =>
      match snapshotSlots slots with
      | none => NOT_PLAIN_DATA
      | some items => .arr items
  | .obj header members =>
    match plainObjectKeys header members with
    | none => NOT_PLAIN_DATA
    | some _ =>
      match snapshotMembers members with
      | none => NOT_PLAIN_DATA
      | some members => .obj members
  | _ => NOT_PLAIN_DATA

/-- The members of an array, unless one of them is not an enumerable data property. -/
def snapshotSlots : List (Option CallerValue) → Option (List JsValue)
  | [] => some []
  | none :: _ => none
  | some v :: rest => (snapshotSlots rest).map (snapshotPlainData v :: ·)

def snapshotMembers : List (Str × Option CallerValue) → Option (List (Str × JsValue))
  | [] => some []
  | (_, none) :: _ => none
  | (name, some v) :: rest => (snapshotMembers rest).map ((name, snapshotPlainData v) :: ·)
end

inductive PlainDataChainRejection where
  | notAContainer
  | overCeiling
  deriving DecidableEq

/-- The values of the indices, unless one of them is not an enumerable data property. -/
def dataMembers : List (Option CallerValue) → Option (List CallerValue)
  | [] => some []
  | none :: _ => none
  | some v :: rest => (dataMembers rest).map (v :: ·)

/-- The members of a chain container, each read through its own descriptor. -/
def readPlainDataChainContainer (minLength maxLength : Nat) :
    CallerValue → Except PlainDataChainRejection (List CallerValue)
  | .arr header slots =>
    match plainArrayLength header slots with
    | none => throw .notAContainer
    | some length =>
      if maxLength < length then throw .overCeiling
      else if length < minLength then throw .notAContainer
      else match dataMembers slots with
        | none => throw .notAContainer
        | some members => return members
  | _ => throw .notAContainer

theorem dataMembers_append (slots : List (Option CallerValue)) (v : CallerValue) :
    dataMembers (slots ++ [some v]) = (dataMembers slots).map (· ++ [v]) := by
  induction slots with
  | nil => rfl
  | cons slot rest ih =>
    cases slot with
    | none => rfl
    | some w =>
      rw [List.cons_append, dataMembers, dataMembers, ih, Option.map_map, Option.map_map]
      rfl

theorem dataMembers_length {slots : List (Option CallerValue)} :
    ∀ {members : List CallerValue}, dataMembers slots = some members → members.length = slots.length := by
  induction slots with
  | nil =>
    intro members h
    cases h
    rfl
  | cons slot rest ih =>
    intro members h
    cases slot with
    | none => cases h
    | some w =>
      rw [dataMembers] at h
      obtain ⟨tail, htail, rfl⟩ := Option.map_eq_some_iff.mp h
      rw [List.length_cons, List.length_cons, ih htail]

theorem mem_of_dataMembers {slots : List (Option CallerValue)} :
    ∀ {members : List CallerValue}, dataMembers slots = some members →
      ∀ v ∈ members, some v ∈ slots := by
  induction slots with
  | nil =>
    intro members h v hv
    cases h
    cases hv
  | cons slot rest ih =>
    intro members h v hv
    cases slot with
    | none => cases h
    | some w =>
      rw [dataMembers] at h
      obtain ⟨tail, htail, rfl⟩ := Option.map_eq_some_iff.mp h
      obtain rfl | hv := List.mem_cons.mp hv
      · exact List.mem_cons_self
      · exact List.mem_cons_of_mem _ (ih htail v hv)

theorem readContainer_ok {minLength maxLength : Nat} {raw : CallerValue} {members : List CallerValue} :
    readPlainDataChainContainer minLength maxLength raw = .ok members ↔
      ∃ slots, raw = .arr ⟨true, false, false⟩ slots ∧ minLength ≤ slots.length ∧
        slots.length ≤ maxLength ∧ dataMembers slots = some members := by
  constructor
  · intro h
    cases raw with
    | arr header slots =>
      obtain ⟨intrinsic, symbols, hook⟩ := header
      rw [readPlainDataChainContainer] at h
      split at h
      · cases h
      rename_i length hlength
      unfold plainArrayLength at hlength
      split_ifs at hlength with hproto hsymbols hhook
      simp only [Bool.not_eq_true, Bool.not_eq_false'] at hproto hsymbols hhook
      cases hlength
      split at h
      · cases h
      rename_i hmax
      split at h
      · cases h
      rename_i hmin
      split at h
      · cases h
      rename_i hmembers
      cases h
      subst hproto hsymbols hhook
      exact ⟨slots, rfl, not_lt.mp hmin, not_lt.mp hmax, hmembers⟩
    | _ => cases h
  · rintro ⟨slots, rfl, hmin, hmax, hmembers⟩
    simp only [readPlainDataChainContainer, plainArrayLength, Bool.not_true, Bool.false_eq_true, if_false,
      if_neg (not_lt.mpr hmax), if_neg (not_lt.mpr hmin), hmembers]
    rfl

mutual
def plain : JsValue → CallerValue
  | .undefined => .undefined
  | .null => .null
  | .bool b => .bool b
  | .num n => .num n
  | .str s => .str s
  | .other type => .other type
  | .date _ => .obj ⟨false, false, false, false⟩ []
  | .arr items => .arr ⟨true, false, false⟩ (plainItems items)
  | .obj members => .obj ⟨false, false, true, false⟩ (plainMembers members)

def plainItems : List JsValue → List (Option CallerValue)
  | [] => []
  | v :: rest => some (plain v) :: plainItems rest

def plainMembers : List (Str × JsValue) → List (Str × Option CallerValue)
  | [] => []
  | (name, v) :: rest => (name, some (plain v)) :: plainMembers rest
end

inductive IsSnapshot : JsValue → Prop
  | null : IsSnapshot .null
  | bool (b : Bool) : IsSnapshot (.bool b)
  | num (d : Double) : IsSnapshot (.num (.finite d))
  | str (s : Str) : IsSnapshot (.str s)
  | marker : IsSnapshot NOT_PLAIN_DATA
  | arr {items : List JsValue} (h : ∀ v ∈ items, IsSnapshot v) : IsSnapshot (.arr items)
  | obj {members : List (Str × JsValue)} (names : members.length ≤ 2 ^ 23)
      (h : ∀ m ∈ members, IsSnapshot m.2) : IsSnapshot (.obj members)

mutual
theorem isSnapshot_snapshot : (v : CallerValue) → IsSnapshot (snapshotPlainData v)
  | .undefined => .marker
  | .null => .null
  | .bool b => .bool b
  | .num (.finite d) => .num d
  | .num .nan => .marker
  | .num (.infinite _) => .marker
  | .str s => .str s
  | .other _ => .marker
  | .proxy => .marker
  | .cycle => .marker
  | .arr header slots => by
    rw [snapshotPlainData]
    split
    · exact .marker
    split
    · exact .marker
    · rename_i items hitems
      exact .arr (isSnapshot_slots slots items hitems)
  | .obj header members => by
    rw [snapshotPlainData]
    split
    · exact .marker
    rename_i hkeys
    split
    · exact .marker
    · rename_i copies hcopies
      obtain ⟨hlen, hall⟩ := isSnapshot_members members copies hcopies
      refine .obj ?_ hall
      unfold plainObjectKeys at hkeys
      split at hkeys
      · cases hkeys
      split at hkeys
      · cases hkeys
      split at hkeys
      · cases hkeys
      split at hkeys
      · cases hkeys
      · omega

theorem isSnapshot_slots : (slots : List (Option CallerValue)) → (items : List JsValue) →
    snapshotSlots slots = some items → ∀ v ∈ items, IsSnapshot v
  | [], items, h, v, hv => by
    rw [snapshotSlots] at h
    cases h
    cases hv
  | none :: _, items, h, _, _ => by
    rw [snapshotSlots] at h
    cases h
  | some w :: rest, items, h, v, hv => by
    rw [snapshotSlots] at h
    obtain ⟨tail, htail, rfl⟩ := Option.map_eq_some_iff.mp h
    obtain rfl | hv := List.mem_cons.mp hv
    · exact isSnapshot_snapshot w
    · exact isSnapshot_slots rest tail htail v hv

theorem isSnapshot_members : (members : List (Str × Option CallerValue)) → (copies : List (Str × JsValue)) →
    snapshotMembers members = some copies →
    copies.length = members.length ∧ ∀ m ∈ copies, IsSnapshot m.2
  | [], copies, h => by
    rw [snapshotMembers] at h
    cases h
    exact ⟨rfl, fun _ hm => by cases hm⟩
  | (_, none) :: _, copies, h => by
    rw [snapshotMembers] at h
    cases h
  | (name, some w) :: rest, copies, h => by
    rw [snapshotMembers] at h
    obtain ⟨tail, htail, rfl⟩ := Option.map_eq_some_iff.mp h
    obtain ⟨hlen, hall⟩ := isSnapshot_members rest tail htail
    refine ⟨by rw [List.length_cons, List.length_cons, hlen], ?_⟩
    intro m hm
    obtain rfl | hm := List.mem_cons.mp hm
    · exact isSnapshot_snapshot w
    · exact hall m hm
end

theorem snapshotSlots_plain {items : List JsValue} (h : ∀ v ∈ items, snapshotPlainData (plain v) = v) :
    snapshotSlots (plainItems items) = some items := by
  induction items with
  | nil => rw [plainItems, snapshotSlots]
  | cons v rest ih =>
    rw [plainItems, snapshotSlots, ih (fun w hw => h w (List.mem_cons_of_mem v hw)),
      h v List.mem_cons_self]
    rfl

theorem snapshotMembers_plain {members : List (Str × JsValue)}
    (h : ∀ m ∈ members, snapshotPlainData (plain m.2) = m.2) :
    snapshotMembers (plainMembers members) = some members := by
  induction members with
  | nil => rw [plainMembers, snapshotMembers]
  | cons m rest ih =>
    rw [plainMembers, snapshotMembers, ih (fun w hw => h w (List.mem_cons_of_mem m hw)),
      h m List.mem_cons_self]
    rfl

theorem plainMembers_length (members : List (Str × JsValue)) :
    (plainMembers members).length = members.length := by
  induction members with
  | nil => rw [plainMembers, List.length_nil, List.length_nil]
  | cons m rest ih => rw [plainMembers, List.length_cons, List.length_cons, ih]

theorem plainObjectKeys_plain (members : List (Str × JsValue)) :
    plainObjectKeys ⟨false, false, true, false⟩ (plainMembers members) =
      if 2 ^ 23 < members.length then none else some ((plainMembers members).map Prod.fst) := by
  simp only [plainObjectKeys, Bool.or_self, Bool.false_eq_true, if_false, Bool.not_true, plainMembers_length]

theorem snapshot_plain {v : JsValue} (h : IsSnapshot v) : snapshotPlainData (plain v) = v := by
  induction h with
  | null => rw [plain, snapshotPlainData]
  | bool b => rw [plain, snapshotPlainData]
  | num d => rw [plain, snapshotPlainData]
  | str s => rw [plain, snapshotPlainData]
  | marker => rfl
  | arr _ ih =>
    rw [plain, snapshotPlainData, snapshotSlots_plain ih]
    rfl
  | @obj members hlen _ ih =>
    rw [plain, snapshotPlainData, plainObjectKeys_plain, if_neg (not_lt.mpr hlen)]
    simp only [snapshotMembers_plain ih]

theorem snapshot_idem (v : CallerValue) :
    snapshotPlainData (plain (snapshotPlainData v)) = snapshotPlainData v :=
  snapshot_plain (isSnapshot_snapshot v)

theorem snapshot_plain_obj {members : List (Str × JsValue)} (h : ∀ m ∈ members, IsSnapshot m.2) :
    snapshotPlainData (plain (.obj members)) = .obj members ∨
      snapshotPlainData (plain (.obj members)) = NOT_PLAIN_DATA := by
  by_cases hlen : 2 ^ 23 < members.length
  · right
    rw [plain, snapshotPlainData, plainObjectKeys_plain, if_pos hlen]
  · left
    exact snapshot_plain (.obj (not_lt.mp hlen) h)

end AgentPassport.PlainData
