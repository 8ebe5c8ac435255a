import AgentPassport.JsonGrammar

/-! The strict reader of received JSON (`v2/receipt-core/jcs.ts`): `assertIJson` and
`parseStrictIJson`. The offset into the text is the part of the text still to be read. -/
namespace AgentPassport.StrictParser
open JsText Js JsonString JsonGrammar

/-- `IJsonValidationError` and `IJsonResourceLimitError` with their messages, the runtime's
`RangeError`, and the end of the recursion's fuel. -/
inductive IJsonError where
  | validation (message : Str)
  | resourceLimit (message : Str)
  | rangeError
  | outOfFuel
  deriving DecidableEq

def invalid {α : Type} (message : String) : Except IJsonError α := throw (.validation (lit message))

def surrogateText : Surrogate → Str
  | .high => lit ": unpaired high surrogate"
  | .low => lit ": unpaired low surrogate"

def assertUnicodeScalarString (value path : Str) : Except IJsonError Unit :=
  match loneSurrogate value with
  | some which => throw (.validation (path ++ surrogateText which))
  | none => pure ()

def assertNumber (path : Str) : JsNumber → Except IJsonError Unit
  | .finite d =>
    if d.isInteger && !d.isSafeInteger then
      throw (.validation (path ++ lit ": integer exceeds the interoperable IEEE 754 range"))
    else pure ()
  | _ => throw (.validation (path ++ lit ": non-finite number"))

mutual
def assertIJson (path : Str) : JsValue → Except IJsonError Unit
  | .null => pure ()
  | .bool _ => pure ()
  | .str s => assertUnicodeScalarString s path
  | .num n => assertNumber path n
  | .undefined => throw (.validation (path ++ lit ": unsupported undefined"))
  | .other type => throw (.validation (path ++ lit ": unsupported " ++ typeName type))
  | .date _ => throw (.validation (path ++ lit ": Date must be converted explicitly"))
  | .arr items => assertIJsonItems path 0 items
  | .obj members => assertIJsonMembers path members

def assertIJsonItems (path : Str) (i : Nat) : List JsValue → Except IJsonError Unit
  | [] => pure ()
  | v :: rest => do
    assertIJson (path ++ lit "[" ++ decimal i ++ lit "]") v
    assertIJsonItems path (i + 1) rest

def assertIJsonMembers (path : Str) : List (Str × JsValue) → Except IJsonError Unit
  | [] => pure ()
  | (name, v) :: rest => do
    assertUnicodeScalarString name (path ++ lit " key")
    assertIJson (path ++ lit "." ++ name) v
    assertIJsonMembers path rest
end

def skipWhitespace (rest : Str) : Str := rest.dropWhile isWs

/-- The units of a string token after its opening quote, the closing one included, and what
follows it. -/
def scanString : Bool → Str → Except IJsonError (Str × Str)
  | _, [] => invalid "$: unterminated JSON string"
  | escaped, c :: rest =>
    if !escaped && c = 0x22 then return ([c], rest)
    else if !escaped && c < 0x20 then invalid "$: unescaped control character"
    else do
      let (token, rest) ← scanString (!escaped && c = 0x5C) rest
      return (c :: token, rest)

/-- `parseString`, from behind the opening quote. -/
def parseString (rest : Str) : Except IJsonError (Str × Str) := do
  let (token, rest) ← scanString false rest
  match jsonParseString (0x22 :: token) with
  | none => invalid "$: invalid JSON string"
  | some decoded => do
    assertIJson (lit "$") (.str decoded)
    return (decoded, rest)

/-- `raw.startsWith(literal, offset)`, with what follows. -/
def startsWith (literal rest : Str) : Option Str :=
  if rest.take literal.length = literal then some (rest.drop literal.length) else none

/-! The stages of the number's regular expression, each taking as much as it can. -/

def matchMinus : Str → Str × Str
  | [] => ([], [])
  | c :: rest => if c = 0x2D then ([c], rest) else ([], c :: rest)

def matchInt : Str → Option (Str × Str)
  | [] => none
  | c :: rest =>
    if c = 0x30 then some ([c], rest)
    else if isDigit c then some (c :: rest.takeWhile isDigit, rest.dropWhile isDigit)
    else none

def matchFrac : Str → Str × Str
  | [] => ([], [])
  | c :: rest =>
    if c = 0x2E ∧ rest.takeWhile isDigit ≠ [] then (c :: rest.takeWhile isDigit, rest.dropWhile isDigit)
    else ([], c :: rest)

def matchSign : Str → Str × Str
  | [] => ([], [])
  | c :: rest => if c = 0x2B ∨ c = 0x2D then ([c], rest) else ([], c :: rest)

def matchExp : Str → Str × Str
  | [] => ([], [])
  | c :: rest =>
    let (sign, digits) := matchSign rest
    if (c = 0x65 ∨ c = 0x45) ∧ digits.takeWhile isDigit ≠ [] then
      (c :: (sign ++ digits.takeWhile isDigit), digits.dropWhile isDigit)
    else ([], c :: rest)

def matchNumber (s : Str) : Option (Str × Str) := do
  let (minus, s) := matchMinus s
  let (int, s) ← matchInt s
  let (frac, s) := matchFrac s
  let (exp, s) := matchExp s
  return (minus ++ (int ++ (frac ++ exp)), s)

section
variable (numberValue : Str → JsNumber) (maxDepth stackLimit : Nat)

def parseScalar (rest : Str) : Except IJsonError (JsValue × Str) :=
  match startsWith (lit "true") rest with
  | some rest => return (.bool true, rest)
  | none =>
    match startsWith (lit "false") rest with
    | some rest => return (.bool false, rest)
    | none =>
      match startsWith (lit "null") rest with
      | some rest => return (.null, rest)
      | none =>
        match matchNumber rest with
        | none => invalid "$: JSON value required"
        | some (token, rest) => do
          assertIJson (lit "$") (.num (numberValue token))
          return (.num (numberValue token), rest)

mutual
/-- `parseValue`. `stackLimit` is the number of nested calls the runtime's stack holds. -/
def parseValue : Nat → Nat → Str → Except IJsonError (JsValue × Str)
  | 0, _, _ => throw .outOfFuel
  | fuel+1, depth, rest =>
    if maxDepth < depth then throw (.resourceLimit (lit "$: JSON nesting limit exceeded"))
    else if stackLimit < depth then throw .rangeError
    else match skipWhitespace rest with
      | [] => parseScalar numberValue []
      | token :: rest =>
        if token = 0x22 then do
          let (s, rest) ← parseString rest
          return (.str s, rest)
        else if token = 0x7B then
          match skipWhitespace rest with
          | [] => parseMembers fuel depth [] [] []
          | c :: rest => if c = 0x7D then return (.obj [], rest) else parseMembers fuel depth [] [] (c :: rest)
        else if token = 0x5B then
          match skipWhitespace rest with
          | [] => parseItems fuel depth [] []
          | c :: rest => if c = 0x5D then return (.arr [], rest) else parseItems fuel depth [] (c :: rest)
        else parseScalar numberValue (token :: rest)

def parseItems : Nat → Nat → List JsValue → Str → Except IJsonError (JsValue × Str)
  | 0, _, _, _ => throw .outOfFuel
  | fuel+1, depth, value, rest => do
    let (v, rest) ← parseValue fuel (depth + 1) rest
    match skipWhitespace rest with
    | [] => invalid "$: comma or array end required"
    | separator :: rest =>
      if separator = 0x5D then return (.arr (value ++ [v]), rest)
      else if separator = 0x2C then parseItems fuel depth (value ++ [v]) rest
      else invalid "$: comma or array end required"

def parseMembers : Nat → Nat → List (Str × JsValue) → List Str → Str → Except IJsonError (JsValue × Str)
  | 0, _, _, _, _ => throw .outOfFuel
  | fuel+1, depth, value, names, rest =>
    match skipWhitespace rest with
    | [] => invalid "$: object member name required"
    | quote :: rest =>
      if quote ≠ 0x22 then invalid "$: object member name required"
      else do
        let (name, rest) ← parseString rest
        if name ∈ names then invalid "$: duplicate object member"
        else match skipWhitespace rest with
          | [] => invalid "$: colon required"
          | colon :: rest =>
            if colon ≠ 0x3A then invalid "$: colon required"
            else do
              let (v, rest) ← parseValue fuel (depth + 1) rest
              match skipWhitespace rest with
              | [] => invalid "$: comma or object end required"
              | separator :: rest =>
                if separator = 0x7D then return (.obj (setMember name v value), rest)
                else if separator = 0x2C then
                  parseMembers fuel depth (setMember name v value) (name :: names) rest
                else invalid "$: comma or object end required"
end

end

/-- The `catch` around the first call. -/
def catchRangeError {α : Type} : Except IJsonError α → Except IJsonError α
  | .error .rangeError => throw (.resourceLimit (lit "$: JSON parser recursion limit exceeded"))
  | r => r

/-- A limit as the code accepts it: a safe integer that is at least one. -/
def limitOf : JsNumber → Option Nat
  | .finite d => if d.isSafeInteger && decide (1 ≤ d.toInt) then some d.toInt.toNat else none
  | _ => none

/-- `parseStrictIJson` on a string. -/
def parseStrictIJson (numberValue : Str → JsNumber) (stackLimit : Nat) (raw : Str)
    (maxUtf8Bytes maxDepth : JsNumber) : Except IJsonError JsValue :=
  match limitOf maxUtf8Bytes with
  | none => invalid "$: invalid size limit"
  | some bytes =>
    if bytes < byteLength raw then throw (.resourceLimit (lit "$: raw JSON size limit exceeded"))
    else match limitOf maxDepth with
      | none => invalid "$: invalid depth limit"
      | some depth => do
        let (value, rest) ← catchRangeError
          (parseValue numberValue depth stackLimit (2 * raw.length + 1) 1 raw)
        if skipWhitespace rest ≠ [] then invalid "$: trailing JSON data"
        else do
          assertIJson (lit "$") value
          return value

end AgentPassport.StrictParser
