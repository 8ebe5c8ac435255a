import AgentPassport.JsNumber
import Mathlib.Data.List.Nodup
import Mathlib.Data.List.TakeWhile

/-! JavaScript values as far as `typeof`, `Array.isArray` and the own enumerable members of
a plain container can tell them apart. -/
namespace AgentPassport.Js
open JsText

/-- The values JSON has no form for, by `typeof`. -/
inductive OtherType where
  | bigint | function | symbol
  deriving DecidableEq

/-- `typeof` as a text. -/
def typeName : OtherType → Str
  | .bigint => lit "bigint"
  | .function => lit "function"
  | .symbol => lit "symbol"

/-- A value made of plain containers. The members of an object are in the order of
`Object.keys`; a `Date` is its ISO text, or none when it is invalid. -/
inductive JsValue where
  | undefined
  | null
  | bool (b : Bool)
  | num (n : JsNumber)
  | str (s : Str)
  | other (type : OtherType)
  | date (iso : Option Str)
  | arr (items : List JsValue)
  | obj (members : List (Str × JsValue))

def member? (name : Str) (members : List (Str × JsValue)) : Option JsValue :=
  (members.find? (fun m => m.1 = name)).map (·.2)

/-- Induction over a value through the members of its containers. -/
theorem JsValue.members_induction {Q : JsValue → Prop} (undefined : Q .undefined) (null : Q .null)
    (bool : ∀ b, Q (.bool b)) (num : ∀ n, Q (.num n)) (str : ∀ s, Q (.str s))
    (other : ∀ t, Q (.other t)) (date : ∀ iso, Q (.date iso))
    (arr : ∀ items, (∀ v ∈ items, Q v) → Q (.arr items))
    (obj : ∀ members : List (Str × JsValue), (∀ m ∈ members, Q m.2) → Q (.obj members)) (v : JsValue) :
    Q v := by
  refine @JsValue.rec Q (fun items => ∀ v ∈ items, Q v) (fun members => ∀ m ∈ members, Q m.2)
    (fun m => Q m.2) undefined null bool num str other date arr obj ?_ ?_ ?_ ?_ ?_ v
  · intro v hv
    cases hv
  · intro v rest hv hrest
    exact List.forall_mem_cons.mpr ⟨hv, hrest⟩
  · intro m hm
    cases hm
  · intro m rest hm hrest
    exact List.forall_mem_cons.mpr ⟨hm, hrest⟩
  · intro name v hv
    exact hv

/-- `value[name]` on a plain object; a missing member reads as undefined. -/
def JsValue.get (v : JsValue) (name : Str) : JsValue :=
  match v with
  | .obj members => (member? name members).getD .undefined
  | _ => .undefined

/-- `value !== null && typeof value === 'object'`. -/
def JsValue.isObject : JsValue → Bool
  | .date _ => true
  | .arr _ => true
  | .obj _ => true
  | _ => false

def digitsValue (s : Str) : Nat := s.foldl (fun n c => n * 10 + (c.toNat - 0x30)) 0

theorem digitsValue_decimal (n : Nat) : digitsValue (decimal n) = n := by
  have hfold : ∀ (cs : List Char) (k : Nat), (∀ c ∈ cs, c.isDigit = true) →
      (cs.map (fun c => UInt16.ofNat c.toNat)).foldl (fun n c => n * 10 + (c.toNat - 0x30)) k =
        Nat.ofDigitChars 10 cs k := by
    intro cs
    induction cs with
    | nil =>
      intro k _
      rw [Nat.ofDigitChars_nil]
      rfl
    | cons c cs ih =>
      intro k hcs
      obtain ⟨hc, hcs⟩ := List.forall_mem_cons.mp hcs
      rw [List.map_cons, List.foldl_cons, ih _ hcs, Nat.ofDigitChars_cons, toNat_of_digit hc, Nat.mul_comm]
      rfl
  rw [digitsValue, decimal, hfold _ 0 (fun c hc => Nat.isDigit_of_mem_toDigits (by decide) (by decide) hc),
    Nat.ofDigitChars_ten_toDigits]

/-- The number of an array index: the names an object lists first, in ascending order. -/
def arrayIndex (name : Str) : Option Nat :=
  if name = [] ∨ (name.any fun c => !isDigit c) ∨ (name.head? = some 0x30 ∧ name ≠ [0x30]) then none
  else if digitsValue name < 2 ^ 32 - 1 then some (digitsValue name) else none

/-- Whether a new member `name` is listed before `other`. -/
def listedBefore (name other : Str) : Bool :=
  match arrayIndex name, arrayIndex other with
  | some i, some j => i < j
  | some _, none => true
  | none, _ => false

/-- `value[name] = v` on an object of own members. -/
def setMember (name : Str) (v : JsValue) (members : List (Str × JsValue)) : List (Str × JsValue) :=
  if members.any (fun m => m.1 = name) then
    members.map (fun m => if m.1 = name then (name, v) else m)
  else
    members.takeWhile (fun m => !listedBefore name m.1) ++
      (name, v) :: members.dropWhile (fun m => !listedBefore name m.1)

/-- The JSON values: finite numbers, strings of Unicode scalar values, and at every depth
objects whose member names are distinct. -/
inductive IsJson : JsValue → Prop
  | null : IsJson .null
  | bool (b : Bool) : IsJson (.bool b)
  | num (d : Double) : IsJson (.num (.finite d))
  | str {s : Str} (h : WellFormed s) : IsJson (.str s)
  | arr {items : List JsValue} (h : ∀ x ∈ items, IsJson x) : IsJson (.arr items)
  | obj {members : List (Str × JsValue)} (names : (members.map Prod.fst).Nodup)
      (wellFormed : ∀ m ∈ members, WellFormed m.1) (values : ∀ m ∈ members, IsJson m.2) :
      IsJson (.obj members)

/-- Equal up to the order of object members at every depth; the two zeros are equal. -/
inductive Same : JsValue → JsValue → Prop
  | null : Same .null .null
  | bool (b : Bool) : Same (.bool b) (.bool b)
  | num {d e : Double} (h : d.scaled = e.scaled) : Same (.num (.finite d)) (.num (.finite e))
  | str (s : Str) : Same (.str s) (.str s)
  | arr {xs ys : List JsValue} (length : xs.length = ys.length)
      (items : ∀ p ∈ xs.zip ys, Same p.1 p.2) : Same (.arr xs) (.arr ys)
  | obj {ms ns : List (Str × JsValue)} (names : (ms.map Prod.fst).Perm (ns.map Prod.fst))
      (members : ∀ m ∈ ms, ∀ n ∈ ns, m.1 = n.1 → Same m.2 n.2) : Same (.obj ms) (.obj ns)

variable {members : List (Str × JsValue)}

variable {name : Str}

theorem member?_eq_some (h : (members.map Prod.fst).Nodup) {v : JsValue} :
    member? name members = some v ↔ (name, v) ∈ members := by
  induction members with
  | nil => simp [member?]
  | cons m rest ih =>
    obtain ⟨k, w⟩ := m
    obtain ⟨hk, hrest⟩ := List.nodup_cons.mp h
    unfold member? at ih ⊢
    by_cases hkn : k = name
    · subst hkn
      simp only [List.find?_cons, decide_true, Option.map_some, Option.some.injEq, List.mem_cons,
        Prod.mk.injEq, true_and]
      constructor
      · exact fun hw => .inl hw.symm
      · rintro (hw | hmem)
        · exact hw.symm
        · exact absurd (List.mem_map_of_mem hmem) hk
    · simp only [List.find?_cons, hkn, decide_false, ih hrest, List.mem_cons, Prod.mk.injEq]
      constructor
      · exact .inr
      · rintro (⟨hn, -⟩ | hmem)
        · exact absurd hn.symm hkn
        · exact hmem

theorem find_name {m : Str × JsValue} (h : members.find? (fun m => m.1 = name) = some m) :
    m ∈ members ∧ m.1 = name := by
  refine ⟨List.mem_of_find?_eq_some h, ?_⟩
  simpa using List.find?_some h

theorem setMember_new (v : JsValue) (hnew : ∀ m ∈ members, m.1 ≠ name) (hindex : arrayIndex name = none) :
    setMember name v members = members ++ [(name, v)] := by
  have hnone : ¬ (members.any (fun m => m.1 = name)) = true := by
    intro h
    obtain ⟨m, hm, heq⟩ := List.any_eq_true.mp h
    exact hnew m hm (of_decide_eq_true heq)
  have hlast : ∀ m ∈ members, (!listedBefore name m.1) = true := by
    intro m _
    simp [listedBefore, hindex]
  rw [setMember, if_neg hnone, List.takeWhile_eq_self_iff.mpr hlast, List.dropWhile_eq_nil_iff.mpr hlast]

theorem mem_setMember {v : JsValue} {m : Str × JsValue} (h : m ∈ setMember name v members) :
    m = (name, v) ∨ m ∈ members := by
  unfold setMember at h
  split at h
  · obtain ⟨n, hn, heq⟩ := List.mem_map.mp h
    split at heq
    · exact .inl heq.symm
    · exact .inr (heq ▸ hn)
  · obtain hm | hm := List.mem_append.mp h
    · exact .inr (List.takeWhile_sublist _ |>.mem hm)
    · obtain hm | hm := List.mem_cons.mp hm
      · exact .inl hm
      · exact .inr ((List.dropWhile_sublist _).mem hm)

theorem Same.of_isJson {v : JsValue} (h : IsJson v) : Same v v := by
  induction h with
  | null => exact .null
  | bool b => exact .bool b
  | num d => exact .num rfl
  | @str s _ => exact .str s
  | @arr items _ ih =>
    refine .arr rfl ?_
    rintro ⟨x, y⟩ hxy
    obtain ⟨i, hi, heq⟩ := List.getElem_of_mem hxy
    rw [List.getElem_zip] at heq
    cases heq
    exact ih _ (List.getElem_mem _)
  | @obj members hnames _ _ ih =>
    refine .obj (List.Perm.refl _) ?_
    intro m hm n hn hmn
    obtain rfl := List.inj_on_of_nodup_map hnames hm hn hmn
    exact ih m hm

end AgentPassport.Js
