import AgentPassport.JsValue
import AgentPassport.JsonString
import AgentPassport.SeparatedText

/-! The grammar of RFC 8259 over code units, what `JSON.parse` makes of a text, and the
restrictions of the strict reader. A parse tree keeps every member in the order of the text,
repeated names included. -/
namespace AgentPassport.JsonGrammar
open JsText Js JsonString SeparatedText

inductive JsonTree where
  | null
  | bool (b : Bool)
  | number (token : Str)
  | string (s : Str)
  | array (items : List JsonTree)
  | object (members : List (Str × JsonTree))

def isWs (c : UInt16) : Bool := c = 0x20 || c = 0x09 || c = 0x0D || c = 0x0A

/-- The production `ws`. -/
def Ws (s : Str) : Prop := ∀ c ∈ s, isWs c = true

def Digits (s : Str) : Prop := ∀ c ∈ s, isDigit c = true

/-- The production `int`. -/
def IntText (s : Str) : Prop :=
  s = [0x30] ∨ ∃ c ds, s = c :: ds ∧ isDigit c = true ∧ c ≠ 0x30 ∧ Digits ds

/-- The production `frac`, or nothing. -/
def FracText (s : Str) : Prop := s = [] ∨ ∃ ds, s = 0x2E :: ds ∧ ds ≠ [] ∧ Digits ds

/-- The production `exp`, or nothing. -/
def ExpText (s : Str) : Prop :=
  s = [] ∨ ∃ e sign ds, s = e :: (sign ++ ds) ∧ (e = 0x65 ∨ e = 0x45) ∧
    (sign = [] ∨ sign = [0x2B] ∨ sign = [0x2D]) ∧ ds ≠ [] ∧ Digits ds

/-- The production `number`. -/
def NumberText (s : Str) : Prop :=
  ∃ minus int frac exp, s = minus ++ (int ++ (frac ++ exp)) ∧ (minus = [] ∨ minus = [0x2D]) ∧
    IntText int ∧ FracText frac ∧ ExpText exp

/-- A value between the white space around it. -/
structure Item where
  before : Str
  text : Str
  after : Str
  tree : JsonTree

def Item.written (p : Item) : Str := p.before ++ (p.text ++ p.after)

/-- The production `member`, with the white space around it. -/
structure Member where
  before : Str
  token : Str
  name : Str
  gap : Str
  value : Item

def Member.written (m : Member) : Str := m.before ++ (m.token ++ (m.gap ++ 0x3A :: m.value.written))

/-- The production `value`. -/
inductive ValueText : Str → JsonTree → Prop
  | null : ValueText (lit "null") .null
  | true : ValueText (lit "true") (.bool true)
  | false : ValueText (lit "false") (.bool false)
  | number {s : Str} (h : NumberText s) : ValueText s (.number s)
  | string {token s : Str} (h : StringText token s) : ValueText token (.string s)
  | emptyArray {gap : Str} (h : Ws gap) : ValueText (0x5B :: (gap ++ [0x5D])) (.array [])
  | array {items : List Item} (some : items ≠ [])
      (space : ∀ p ∈ items, Ws p.before ∧ Ws p.after) (values : ∀ p ∈ items, ValueText p.text p.tree) :
      ValueText (0x5B :: (join 0x2C (items.map Item.written) ++ [0x5D])) (.array (items.map Item.tree))
  | emptyObject {gap : Str} (h : Ws gap) : ValueText (0x7B :: (gap ++ [0x7D])) (.object [])
  | object {members : List Member} (some : members ≠ [])
      (space : ∀ m ∈ members, Ws m.before ∧ Ws m.gap ∧ Ws m.value.before ∧ Ws m.value.after)
      (names : ∀ m ∈ members, StringText m.token m.name)
      (values : ∀ m ∈ members, ValueText m.value.text m.value.tree) :
      ValueText (0x7B :: (join 0x2C (members.map Member.written) ++ [0x7D]))
        (.object (members.map (fun m => (m.name, m.value.tree))))

/-- The production `JSON-text`. -/
def JsonText (raw : Str) (tree : JsonTree) : Prop :=
  ∃ before text after, raw = before ++ (text ++ after) ∧ Ws before ∧ Ws after ∧ ValueText text tree

/-- The members of a text assigned one after the other. -/
def assign (members : List (Str × JsValue)) : List (Str × JsValue) → List (Str × JsValue)
  | [] => members
  | (name, v) :: rest => assign (setMember name v members) rest

section
variable (numberValue : Str → JsNumber)

mutual
/-- The value `JSON.parse` returns; `numberValue` is its reading of a number token. -/
def jsonValue : JsonTree → JsValue
  | .null => .null
  | .bool b => .bool b
  | .number token => .num (numberValue token)
  | .string s => .str s
  | .array items => .arr (jsonItems items)
  | .object members => .obj (assign [] (jsonMembers members))

def jsonItems : List JsonTree → List JsValue
  | [] => []
  | t :: rest => jsonValue t :: jsonItems rest

def jsonMembers : List (Str × JsonTree) → List (Str × JsValue)
  | [] => []
  | (name, t) :: rest => (name, jsonValue t) :: jsonMembers rest
end

theorem jsonItems_eq_map (items : List JsonTree) :
    jsonItems numberValue items = items.map (jsonValue numberValue) := by
  induction items with
  | nil => simp [jsonItems]
  | cons t rest ih => simp [jsonItems, ih]

theorem jsonMembers_eq_map (members : List (Str × JsonTree)) :
    jsonMembers numberValue members = members.map (fun m => (m.1, jsonValue numberValue m.2)) := by
  induction members with
  | nil => simp [jsonMembers]
  | cons m rest ih => simp [jsonMembers, ih]

/-- Nested at most so many values deep, the outermost one counted. -/
inductive Within : Nat → JsonTree → Prop
  | null (n : Nat) : Within (n + 1) .null
  | bool (n : Nat) (b : Bool) : Within (n + 1) (.bool b)
  | number (n : Nat) (token : Str) : Within (n + 1) (.number token)
  | string (n : Nat) (s : Str) : Within (n + 1) (.string s)
  | array {n : Nat} {items : List JsonTree} (h : ∀ t ∈ items, Within n t) : Within (n + 1) (.array items)
  | object {n : Nat} {members : List (Str × JsonTree)} (h : ∀ m ∈ members, Within n m.2) :
      Within (n + 1) (.object members)

/-- Finite, and in the safe range when it is an integer. -/
def Interoperable (n : JsNumber) : Prop :=
  ∃ d, n = .finite d ∧ (d.isInteger = true → d.toInt.natAbs ≤ 2 ^ 53 - 1)

/-- No two members of an object have one decoded name, no decoded string has an unpaired
surrogate, and every number is interoperable. -/
inductive Strict : JsonTree → Prop
  | null : Strict .null
  | bool (b : Bool) : Strict (.bool b)
  | number {token : Str} (h : Interoperable (numberValue token)) : Strict (.number token)
  | string {s : Str} (h : WellFormed s) : Strict (.string s)
  | array {items : List JsonTree} (h : ∀ t ∈ items, Strict t) : Strict (.array items)
  | object {members : List (Str × JsonTree)} (names : (members.map Prod.fst).Nodup)
      (wellFormed : ∀ m ∈ members, WellFormed m.1) (values : ∀ m ∈ members, Strict m.2) :
      Strict (.object members)

end

end AgentPassport.JsonGrammar
