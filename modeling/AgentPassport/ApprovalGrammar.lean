import AgentPassport.ApprovalRules
import AgentPassport.LongestMatch

/-! The grammar of approval rules: its words and sentences over characters, and what a sentence says
of an action. -/
namespace AgentPassport.ApprovalGrammar
open ActionRecord ApprovalRules LongestMatch

def blank (c : Char) : Bool := c = ' ' || c = '\t' || c = '\n' || c = '\x0c' || c = '\r'
def digit (c : Char) : Bool := '0' ≤ c && c ≤ '9'
def letter (c : Char) : Bool := ('A' ≤ c && c ≤ 'Z') || ('a' ≤ c && c ≤ 'z') || c = '_'
def wordPart (c : Char) : Bool := letter c || digit c

def isNumber (w : List Char) : Bool := w ≠ [] && w.all digit

def isIdentifier : List Char → Bool
  | [] => false
  | c :: cs => letter c && cs.all wordPart

def compareWord : CompareOp → List Char
  | .eq => ['=', '=']
  | .ne => ['!', '=']
  | .lt => ['<']
  | .le => ['<', '=']
  | .gt => ['>']
  | .ge => ['>', '=']

/-- A number, an identifier or keyword, a comparison, a bracket or a comma. -/
inductive IsWord : List Char → Prop
  | number {w : List Char} (h : isNumber w = true) : IsWord w
  | identifier {w : List Char} (h : isIdentifier w = true) : IsWord w
  | compare (op : CompareOp) : IsWord (compareWord op)
  | lBracket : IsWord ['[']
  | rBracket : IsWord [']']
  | comma : IsWord [',']

def decimal (w : List Char) : Nat := w.foldl (fun n c => 10 * n + (c.toNat - 0x30)) 0

def names : PredicateField → List (String × Nat)
  | .operation => [("read", 0), ("write", 1), ("delete", 2), ("external_send", 3), ("money_move", 4),
      ("data_export", 5), ("approval_request", 6)]
  | .riskClass => [("R0", 0), ("R1", 1), ("R2", 2), ("R3", 3), ("R4", 4)]
  | .costUnits => []

/-- The word is a name of the field's value, or a 64-bit number. -/
def Denotes (field : PredicateField) (w : List Char) (n : Nat) : Prop :=
  (String.ofList w, n) ∈ names field ∨ isNumber w = true ∧ decimal w = n ∧ n < 2 ^ 64

structure Value (field : PredicateField) where
  word : List Char
  number : Nat
  denotes : Denotes field word number

/-- `Field CompareOp Value`; operations are not ordered. -/
structure Comparison where
  field : PredicateField
  op : CompareOp
  value : Value field
  unordered : field = .operation → op = .eq ∨ op = .ne

/-- `Field 'NOT'? 'IN' '[' Value (',' Value)* ']'`, of the operation. -/
structure SetMembership where
  op : SetOp
  first : Value .operation
  more : List (Value .operation)

inductive Term where
  | comparison (c : Comparison)
  | setMembership (s : SetMembership)

/-- `Term ('AND' Term)*`. -/
structure Conjunction where
  first : Term
  more : List Term

def fieldWord : PredicateField → List Char
  | .operation => "operation".toList
  | .riskClass => "risk_class".toList
  | .costUnits => "cost_units".toList

def setWords : SetOp → List (List Char)
  | .isIn => ["IN".toList]
  | .notIn => ["NOT".toList, "IN".toList]

def moreWords (more : List (Value .operation)) : List (List Char) :=
  more.flatMap (fun v => [[','], v.word]) ++ [[']']]

def Term.rest : Term → List (List Char)
  | .comparison c => [compareWord c.op, c.value.word]
  | .setMembership s => setWords s.op ++ (['['] :: s.first.word :: moreWords s.more)

def Term.field : Term → PredicateField
  | .comparison c => c.field
  | .setMembership _ => .operation

def Term.words (t : Term) : List (List Char) := fieldWord t.field :: t.rest

def Conjunction.words (c : Conjunction) : List (List Char) :=
  c.first.words ++ c.more.flatMap (fun t => "AND".toList :: t.words)

/-- The words that the text begins with, and what is left. -/
abbrev Reading : List Char → List (List Char) → List Char → Prop := Reads (blank · = true) IsWord

/-- The text is the words of the conjunction, each the longest at its place, with blanks anywhere
between them. -/
def Spells (text : List Char) (c : Conjunction) : Prop :=
  ∃ gap, Reading text c.words gap ∧ ∀ x ∈ gap, blank x = true

def fieldNumber (action : ActionDescriptor) : PredicateField → Nat
  | .operation => action.operationId.toNat
  | .riskClass => action.riskClass.toNat
  | .costUnits => action.costUnits.toNat

def Relates : CompareOp → Nat → Nat → Prop
  | .eq, m, n => m = n
  | .ne, m, n => m ≠ n
  | .lt, m, n => m < n
  | .le, m, n => m ≤ n
  | .gt, m, n => m > n
  | .ge, m, n => m ≥ n

def Term.Holds (action : ActionDescriptor) : Term → Prop
  | .comparison c => Relates c.op (fieldNumber action c.field) c.value.number
  | .setMembership s =>
    match s.op with
    | .isIn => ∃ v ∈ s.first :: s.more, fieldNumber action .operation = v.number
    | .notIn => ∀ v ∈ s.first :: s.more, fieldNumber action .operation ≠ v.number

def Conjunction.Holds (c : Conjunction) (action : ActionDescriptor) : Prop :=
  ∀ t ∈ c.first :: c.more, t.Holds action

def bytesOf (text : List Char) : List UInt8 := text.flatMap String.utf8EncodeChar

@[simp] theorem bytesOf_nil : bytesOf [] = [] := rfl

theorem bytesOf_append (s t : List Char) : bytesOf (s ++ t) = bytesOf s ++ bytesOf t := List.flatMap_append

def byteOf (c : Char) : UInt8 := UInt8.ofNat c.toNat

variable {c : Char}

theorem byteOf_toNat (hc : c.toNat < 0x80) : (byteOf c).toNat = c.toNat := by
  rw [byteOf, UInt8.toNat_ofNat']
  omega

theorem bytesOf_cons_low (hc : c.toNat < 0x80) (text : List Char) : bytesOf (c :: text) = byteOf c :: bytesOf text := by
  have hencode : String.utf8EncodeChar c = [byteOf c] := by
    rw [String.utf8EncodeChar]
    simp only [show c.val.toNat = c.toNat from rfl]
    exact if_pos (by omega)
  rw [bytesOf, List.flatMap_cons, hencode]
  rfl

theorem bytesOf_cons_high (hc : 0x80 ≤ c.toNat) (text : List Char) :
    ∃ b bs, bytesOf (c :: text) = b :: bs ∧ 0x80 ≤ b.toNat := by
  have hencode : ∃ b bs, String.utf8EncodeChar c = b :: bs ∧ 0x80 ≤ b.toNat := by
    have hlead : ∀ n, 0x80 ≤ n % 256 → 0x80 ≤ (UInt8.ofNat n).toNat := by
      intro n hn
      rw [UInt8.toNat_ofNat']
      exact hn
    have hval := c.valid
    rw [String.utf8EncodeChar]
    simp only [show c.val.toNat = c.toNat from rfl] at hval ⊢
    split
    · omega
    · split
      · exact ⟨_, _, rfl, hlead _ (by omega)⟩
      · split
        · exact ⟨_, _, rfl, hlead _ (by omega)⟩
        · exact ⟨_, _, rfl, hlead _ (by omega)⟩
  obtain ⟨b, bs, heq, hb⟩ := hencode
  refine ⟨b, bs ++ bytesOf text, ?_, hb⟩
  rw [bytesOf, List.flatMap_cons, heq]
  rfl

structure ByteClass (p : Char → Bool) (P : UInt8 → Bool) : Prop where
  low : ∀ c, c.toNat < 0x80 → P (byteOf c) = p c
  high : ∀ c, 0x80 ≤ c.toNat → p c = false
  byte : ∀ b : UInt8, 0x80 ≤ b.toNat → P b = false

section Classes
variable {p : Char → Bool} {P : UInt8 → Bool} (hclass : ByteClass p P)
include hclass

theorem ByteClass.takeWhile (text : List Char) : (bytesOf text).takeWhile P = bytesOf (text.takeWhile p) := by
  induction text with
  | nil => rfl
  | cons c text ih =>
    by_cases hc : c.toNat < 0x80
    · rw [bytesOf_cons_low hc, List.takeWhile_cons, List.takeWhile_cons, hclass.low c hc]
      cases p c with
      | true => rw [if_pos rfl, if_pos rfl, ih, bytesOf_cons_low hc]
      | false => rfl
    · obtain ⟨b, bs, heq, hb⟩ := bytesOf_cons_high (Nat.not_lt.mp hc) text
      rw [heq, List.takeWhile_cons, List.takeWhile_cons, hclass.byte b hb, hclass.high c (Nat.not_lt.mp hc)]
      rfl

theorem ByteClass.isLow (hc : p c = true) : c.toNat < 0x80 := by
  by_contra hhigh
  rw [hclass.high c (Nat.not_lt.mp hhigh)] at hc
  cases hc

theorem ByteClass.length {w : List Char} (hw : ∀ c ∈ w, p c = true) : (bytesOf w).length = w.length := by
  induction w with
  | nil => rfl
  | cons c w ih =>
    obtain ⟨hc, hrest⟩ := List.forall_mem_cons.mp hw
    rw [bytesOf_cons_low (hclass.isLow hc), List.length_cons, List.length_cons, ih hrest]

end Classes

theorem ByteClass.of_number {p : Char → Bool} {P : UInt8 → Bool} (q : Nat → Bool) (hp : ∀ c, p c = q c.toNat)
    (hP : ∀ b, P b = q b.toNat) (hq : ∀ n, 0x80 ≤ n → q n = false) : ByteClass p P where
  low c hc := by rw [hP, hp, byteOf_toNat hc]
  high c hc := (hp c).trans (hq _ hc)
  byte b hb := (hP b).trans (hq _ hb)

def between (a b n : Nat) : Bool := a ≤ n && n ≤ b

theorem between_high {a b : Nat} (hb : b < 0x80) {n : Nat} (hn : 0x80 ≤ n) : between a b n = false := by
  rw [between, decide_eq_false (show ¬ n ≤ b by omega), Bool.and_false]

theorem ne_high {a : Nat} (ha : a < 0x80) {n : Nat} (hn : 0x80 ≤ n) : decide (n = a) = false :=
  decide_eq_false (by omega)

theorem char_between (a b c : Char) : (decide (a ≤ c) && decide (c ≤ b)) = between a.toNat b.toNat c.toNat := by
  simp only [between, Char.le_def, UInt32.le_iff_toNat_le]
  rfl

theorem byte_between (a b c : UInt8) : (decide (a ≤ c) && decide (c ≤ b)) = between a.toNat b.toNat c.toNat := by
  simp only [between, UInt8.le_iff_toNat_le]

theorem char_eq (c a : Char) : decide (c = a) = decide (c.toNat = a.toNat) :=
  decide_eq_decide.mpr Char.toNat_inj.symm

theorem byte_eq (c a : UInt8) : decide (c = a) = decide (c.toNat = a.toNat) :=
  decide_eq_decide.mpr UInt8.toNat_inj.symm

theorem blank_class : ByteClass blank isAsciiWhitespace := by
  refine .of_number (fun n => n = 0x20 || n = 0x09 || n = 0x0A || n = 0x0C || n = 0x0D) ?_ ?_ ?_
  · intro c
    simp only [blank, char_eq]
    rfl
  · intro b
    simp only [isAsciiWhitespace, byte_eq]
    rfl
  · intro n hn
    simp only [ne_high _ hn, Nat.reduceLT, Bool.or_false]

theorem digit_class : ByteClass digit isAsciiDigit := by
  refine .of_number (between 0x30 0x39) (fun c => char_between '0' '9' c) (fun b => byte_between 0x30 0x39 b) ?_
  intro n hn
  exact between_high (by decide) hn

theorem letter_class : ByteClass letter isIdentStart := by
  refine .of_number (fun n => between 0x41 0x5A n || between 0x61 0x7A n || n = 0x5F) ?_ ?_ ?_
  · intro c
    simp only [letter, char_between, char_eq]
    rfl
  · intro b
    simp only [isIdentStart, isAsciiAlphabetic, byte_between, byte_eq]
    rfl
  · intro n hn
    simp only [ne_high _ hn, between_high _ hn, Nat.reduceLT, Bool.or_false]

theorem wordPart_class : ByteClass wordPart isIdentPart := by
  refine .of_number (fun n => between 0x41 0x5A n || between 0x61 0x7A n || n = 0x5F || between 0x30 0x39 n) ?_ ?_ ?_
  · intro c
    simp only [wordPart, letter, digit, char_between, char_eq]
    rfl
  · intro b
    simp only [isIdentPart, isAsciiAlphabetic, isAsciiDigit, byte_between, byte_eq]
    exact Bool.or_right_comm _ _ _
  · intro n hn
    simp only [ne_high _ hn, between_high _ hn, Nat.reduceLT, Bool.or_false]

end AgentPassport.ApprovalGrammar
