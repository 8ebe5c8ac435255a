import AgentPassport.ActionRecord

/-! The approval-rule language: lexer, parser and matcher. The lexer works on the bytes
of the predicate, so every position is a byte position. -/
namespace AgentPassport.ApprovalRules
open ActionRecord

inductive ApprovalAction where
  | escalate | deny
  deriving DecidableEq

inductive PredicateField where
  | operation | riskClass | costUnits
  deriving DecidableEq

inductive CompareOp where
  | eq | ne | lt | le | gt | ge
  deriving DecidableEq

inductive SetOp where
  | isIn | notIn
  deriving DecidableEq

inductive CompiledPredicate where
  | compare (field : PredicateField) (op : CompareOp) (value : UInt64)
  | setMember (field : PredicateField) (op : SetOp) (set : List UInt64)
  deriving DecidableEq

structure CompiledApprovalRule where
  source : String
  terms : List CompiledPredicate
  onMatch : ApprovalAction
  deriving DecidableEq

inductive ApprovalCompileError where
  | emptyPredicate
  | syntaxError (pos : Nat) (msg : String)
  | unknownField (name : String)
  | unknownOperation (name : String)
  | unknownRiskClass (name : String)
  | invalidValue (field : PredicateField) (value : String)
  | unsupportedOperator (field : PredicateField) (op : String)
  deriving DecidableEq

def operationIdFromName (name : String) : Option UInt16 :=
  if name = "read" then some 0
  else if name = "write" then some 1
  else if name = "delete" then some 2
  else if name = "external_send" then some 3
  else if name = "money_move" then some 4
  else if name = "data_export" then some 5
  else if name = "approval_request" then some 6
  else none

def riskClassValueFromName (name : String) : Option UInt8 :=
  if name = "R0" then some 0
  else if name = "R1" then some 1
  else if name = "R2" then some 2
  else if name = "R3" then some 3
  else if name = "R4" then some 4
  else none

inductive Token where
  | identifier (name : String)
  | number (n : UInt64)
  | op (text : String)
  | lBracket
  | rBracket
  | comma
  | and
  | not
  | isIn
  | eof
  deriving DecidableEq

/-- The derived debug form, as it appears in a message. -/
def Token.debug : Token → String
  | .identifier s => "Identifier(\"" ++ s ++ "\")"
  | .number n => "Number(" ++ toString n.toNat ++ ")"
  | .op s => "Op(\"" ++ s ++ "\")"
  | .lBracket => "LBracket"
  | .rBracket => "RBracket"
  | .comma => "Comma"
  | .and => "And"
  | .not => "Not"
  | .isIn => "In"
  | .eof => "Eof"

/-- A lexer is its byte position and the bytes from there on. -/
structure Lexer where
  pos : Nat
  rest : List UInt8
  deriving DecidableEq

def isAsciiWhitespace (b : UInt8) : Bool :=
  b = 0x20 || b = 0x09 || b = 0x0A || b = 0x0C || b = 0x0D
def isAsciiDigit (b : UInt8) : Bool := 0x30 ≤ b && b ≤ 0x39
def isAsciiAlphabetic (b : UInt8) : Bool := (0x41 ≤ b && b ≤ 0x5A) || (0x61 ≤ b && b ≤ 0x7A)
def isIdentStart (b : UInt8) : Bool := isAsciiAlphabetic b || b = 0x5F
def isIdentPart (b : UInt8) : Bool := isAsciiAlphabetic b || isAsciiDigit b || b = 0x5F

def asciiText (bs : List UInt8) : String := String.ofList (bs.map (fun b => Char.ofNat b.toNat))

def digitsValue (bs : List UInt8) : Nat :=
  bs.foldl (fun n b => 10 * n + (b.toNat - 0x30)) 0

def Lexer.advance (lex : Lexer) (n : Nat) : Lexer := ⟨lex.pos + n, lex.rest.drop n⟩

def Lexer.skipWs (lex : Lexer) : Lexer :=
  lex.advance (lex.rest.takeWhile isAsciiWhitespace).length

def hexDigit (n : Nat) : Char := Char.ofNat (if n < 10 then 0x30 + n else 0x57 + n)

/-- `{:?}` of one Latin-1 character. -/
def charDebug (b : UInt8) : String :=
  let c := Char.ofNat b.toNat
  let body :=
    if b = 0 then "\\0"
    else if b = 0x09 then "\\t"
    else if b = 0x0A then "\\n"
    else if b = 0x0D then "\\r"
    else if b = 0x27 then "\\'"
    else if b = 0x5C then "\\\\"
    else if b < 0x20 || (0x7F ≤ b && b ≤ 0xA0) || b = 0xAD then
      let digits := if b < 0x10 then [hexDigit b.toNat]
        else [hexDigit (b.toNat / 16), hexDigit (b.toNat % 16)]
      "\\u\x7b" ++ String.ofList digits ++ "\x7d"
    else String.singleton c
  "'" ++ body ++ "'"

def keywordToken (ident : String) : Token :=
  if ident = "AND" then .and
  else if ident = "NOT" then .not
  else if ident = "IN" then .isIn
  else .identifier ident

def Lexer.next (lex : Lexer) : Except ApprovalCompileError ((Nat × Token) × Lexer) :=
  let lex := lex.skipWs
  let start := lex.pos
  let followedByEq := lex.rest[1]? = some 0x3D
  let token (t : Token) (n : Nat) : Except ApprovalCompileError ((Nat × Token) × Lexer) :=
    .ok ((start, t), lex.advance n)
  match lex.rest with
  | [] => token .eof 0
  | b :: _ =>
    if b = 0x5B then token .lBracket 1
    else if b = 0x5D then token .rBracket 1
    else if b = 0x2C then token .comma 1
    else if b = 0x3D then
      if followedByEq then token (.op "==") 2
      else .error (.syntaxError start "expected '==' (single '=' is not an operator)")
    else if b = 0x21 then
      if followedByEq then token (.op "!=") 2
      else .error (.syntaxError start "expected '!=' (bare '!' is not an operator)")
    else if b = 0x3C then
      if followedByEq then token (.op "<=") 2 else token (.op "<") 1
    else if b = 0x3E then
      if followedByEq then token (.op ">=") 2 else token (.op ">") 1
    else if isAsciiDigit b then
      let digits := lex.rest.takeWhile isAsciiDigit
      if digitsValue digits < 2 ^ 64 then
        token (.number (UInt64.ofNat (digitsValue digits))) digits.length
      else .error (.syntaxError start "number overflow")
    else if isIdentStart b then
      let ident := lex.rest.takeWhile isIdentPart
      token (keywordToken (asciiText ident)) ident.length
    else .error (.syntaxError start ("unexpected character " ++ charDebug b))

def fieldFromIdent (name : String) : Option PredicateField :=
  if name = "operation" then some .operation
  else if name = "risk_class" then some .riskClass
  else if name = "cost_units" then some .costUnits
  else none

def compareOpFromStr (op : String) : Option CompareOp :=
  if op = "==" then some .eq
  else if op = "!=" then some .ne
  else if op = "<" then some .lt
  else if op = "<=" then some .le
  else if op = ">" then some .gt
  else if op = ">=" then some .ge
  else none

def resolveValueForField (field : PredicateField) (tok : Token) (pos : Nat) :
    Except ApprovalCompileError UInt64 :=
  match field, tok with
  | .operation, .identifier name =>
    match operationIdFromName name with
    | some id => .ok id.toUInt64
    | none => .error (.unknownOperation name)
  | .operation, .number n => .ok n
  | .riskClass, .identifier name =>
    match riskClassValueFromName name with
    | some v => .ok v.toUInt64
    | none => .error (.unknownRiskClass name)
  | .riskClass, .number n => .ok n
  | .costUnits, .number n => .ok n
  | .costUnits, .identifier name => .error (.invalidValue .costUnits name)
  | _, _ => .error (.syntaxError pos "expected a value (identifier or number)")

/-- The values of a set literal after `[`. Each round reads at least two tokens, so the
bytes left bound the rounds. -/
def parseSetValues (field : PredicateField) : Nat → List UInt64 → Lexer →
    Except ApprovalCompileError (List UInt64 × Lexer)
  | 0, set, lex => .ok (set, lex)
  | fuel+1, set, lex => do
    let ((vpos, vtok), lex) ← lex.next
    let val ← resolveValueForField field vtok vpos
    let ((sepPos, sep), lex) ← lex.next
    match sep with
    | .comma => parseSetValues field fuel (set ++ [val]) lex
    | .rBracket => return (set ++ [val], lex)
    | _ => throw (.syntaxError sepPos "expected ',' or ']' in set literal")

def parseSetMembership (lex : Lexer) (field : PredicateField) (op : SetOp) (opPos : Nat) :
    Except ApprovalCompileError (CompiledPredicate × Lexer) := do
  if field ≠ .operation then
    throw (.unsupportedOperator field (match op with | .isIn => "IN" | .notIn => "NOT IN"))
  let ((lbPos, lb), lex) ← lex.next
  if lb ≠ .lBracket then throw (.syntaxError lbPos "expected '[' after IN")
  let (set, lex) ← parseSetValues field (lex.rest.length + 1) [] lex
  if set.isEmpty then
    throw (.syntaxError opPos "set literal must contain at least one value")
  return (.setMember field op set, lex)

def parseTerm (lex : Lexer) (first : Nat × Token) :
    Except ApprovalCompileError (CompiledPredicate × Lexer) := do
  let fieldName ← match first.2 with
    | .identifier s => pure s
    | _ => throw (.syntaxError first.1 "expected field identifier")
  let field ← match fieldFromIdent fieldName with
    | some f => pure f
    | none => throw (.unknownField fieldName)
  let ((opPos, opTok), lex) ← lex.next
  match opTok with
  | .op opStr =>
    let op ← match compareOpFromStr opStr with
      | some op => pure op
      | none => throw (.syntaxError opPos "unrecognized operator")
    if field = .operation ∧ op ≠ .eq ∧ op ≠ .ne then
      throw (.unsupportedOperator field opStr)
    let ((valPos, valTok), lex) ← lex.next
    let value ← resolveValueForField field valTok valPos
    return (.compare field op value, lex)
  | .not =>
    let ((_, t), lex) ← lex.next
    if t ≠ .isIn then throw (.syntaxError opPos "expected 'IN' after 'NOT'")
    parseSetMembership lex field .notIn opPos
  | .isIn => parseSetMembership lex field .isIn opPos
  | other =>
    throw (.syntaxError opPos ("expected comparison or set-membership, got " ++ other.debug))

/-- The terms after the first, each behind an `AND`. -/
def parseMoreTerms : Nat → List CompiledPredicate → Lexer →
    Except ApprovalCompileError (List CompiledPredicate)
  | 0, terms, _ => .ok terms
  | fuel+1, terms, lex => do
    let ((andPos, t), lex) ← lex.next
    match t with
    | .eof => return terms
    | .and =>
      let (nextFirst, lex) ← lex.next
      let (term, lex) ← parseTerm lex nextFirst
      parseMoreTerms fuel (terms ++ [term]) lex
    | _ => throw (.syntaxError andPos "expected 'AND' or end of predicate")

def parseConjunction (lex : Lexer) : Except ApprovalCompileError (List CompiledPredicate) := do
  let (first, lex) ← lex.next
  if first.2 = .eof then throw .emptyPredicate
  let (term, lex) ← parseTerm lex first
  parseMoreTerms (lex.rest.length + 1) [term] lex

/-- `char::is_whitespace`: the Unicode `White_Space` property. -/
def isUnicodeWhitespace (c : Char) : Bool :=
  let n := c.toNat
  (0x09 ≤ n && n ≤ 0x0D) || n = 0x20 || n = 0x85 || n = 0xA0 || n = 0x1680 ||
    (0x2000 ≤ n && n ≤ 0x200A) || n = 0x2028 || n = 0x2029 || n = 0x202F || n = 0x205F ||
    n = 0x3000

def CompiledApprovalRule.compile (predicate : String) (onMatch : ApprovalAction) :
    Except ApprovalCompileError CompiledApprovalRule := do
  if predicate.toList.all isUnicodeWhitespace then throw .emptyPredicate
  let terms ← parseConjunction ⟨0, predicate.toList.flatMap String.utf8EncodeChar⟩
  return ⟨predicate, terms, onMatch⟩

def fieldValue (action : ActionDescriptor) : PredicateField → UInt64
  | .operation => action.operationId.toUInt64
  | .riskClass => action.riskClass.toUInt64
  | .costUnits => action.costUnits.toUInt64

def evalTerm (term : CompiledPredicate) (action : ActionDescriptor) : Bool :=
  match term with
  | .compare field op value =>
    let lhs := fieldValue action field
    match op with
    | .eq => lhs = value
    | .ne => lhs ≠ value
    | .lt => lhs < value
    | .le => lhs ≤ value
    | .gt => lhs > value
    | .ge => lhs ≥ value
  | .setMember field op set =>
    let present := set.contains (fieldValue action field)
    match op with
    | .isIn => present
    | .notIn => !present

def CompiledApprovalRule.matches (rule : CompiledApprovalRule) (action : ActionDescriptor) :
    Bool :=
  rule.terms.all (fun t => evalTerm t action)

end AgentPassport.ApprovalRules
