import AgentPassport.PlainData
import AgentPassport.StepLoop
import Mathlib.Data.Fintype.BigOperators
import Mathlib.Algebra.Order.BigOperators.Group.Finset

/-! The walk that snapshots a caller's object graph (`snapshotPlainData` of
`v2/authority-delegation/plain-data.ts`), with object identity: the caller's containers are addresses
of a heap, and so are the copies, which are numbered in the order they are made. -/
namespace AgentPassport.ObjectGraph
open JsText Js PlainData StepLoop
variable {A : Type}

/-- A caller's value; a `ref` is an object that is no Proxy. -/
inductive Value (A : Type) where
  | undefined
  | null
  | bool (b : Bool)
  | num (n : JsNumber)
  | str (s : Str)
  | other (type : OtherType)
  | proxy
  | ref (a : A)

/-- An own property as `Object.getOwnPropertyDescriptor` returns it. -/
inductive Descriptor (A : Type) where
  | data (value : Value A) (enumerable : Bool)
  | accessor (enumerable : Bool)

/-- The order in which own names are listed: each once, indices first and ascending. -/
def Listed (names : List Str) : Prop := names.Pairwise (fun a b => a ≠ b ∧ listedBefore b a = false)

/-- A container. An array has an index for each number below its length, or a hole. -/
inductive Node (A : Type) where
  | arr (header : ArrayHeader) (slots : List (Option (Descriptor A)))
  | obj (header : ObjectHeader) (members : List (Str × Descriptor A)) (listed : Listed (members.map Prod.fst))

/-- A value of the snapshot. -/
inductive Out where
  | null
  | bool (b : Bool)
  | num (d : Double)
  | str (s : Str)
  | marker
  | copy (address : Nat)
  deriving DecidableEq

/-- A fresh container of the snapshot. -/
inductive Copy where
  | arr (items : List Out)
  | obj (members : List (Str × Out))
  deriving DecidableEq

/-- `isPlainScalar`, with the scalar. -/
def plainScalar : Value A → Option Out
  | .null => some .null
  | .bool b => some (.bool b)
  | .num (.finite d) => some (.num d)
  | .str s => some (.str s)
  | _ => none

/-- `plainArrayLength`. -/
def arrayLength (header : ArrayHeader) (slots : List (Option (Descriptor A))) : Option Nat :=
  if !header.intrinsicPrototype then none
  else if header.ownSymbols then none
  else if header.toJSONHook then none
  else some slots.length

/-- `plainObjectKeys`; the runtime throws a `RangeError` beyond `2 ^ 23` names. -/
def objectKeys (header : ObjectHeader) (members : List (Str × Descriptor A)) : Except Unit (Option (List Str)) :=
  if header.boxedPrimitive || header.rawJSON then return none
  else if !header.plainPrototype then return none
  else if header.ownSymbols then return none
  else if 2 ^ 23 < members.length then throw ()
  else return some (members.map Prod.fst)

/-- What a frame knows of its container's members. -/
inductive Cursor where
  | array (length : Nat)
  | object (keys : List Str)

def Cursor.length : Cursor → Nat
  | .array length => length
  | .object keys => keys.length

/-- A container that was entered and not left; `next` is the source's `index + 1`. -/
structure Frame (A : Type) where
  source : A
  copy : Nat
  cursor : Cursor
  next : Nat

structure Walk (A : Type) where
  output : Option Out
  onPath : List A
  done : A → Option Out
  copies : List Copy

/-- `copy[index] = result`, where `index` is at most the length. -/
def setItem (index : Nat) (result : Out) (items : List Out) : List Out :=
  if index < items.length then items.set index result else items ++ [result]

/-- `Object.defineProperty` of an enumerable member. -/
def defineMember (name : Str) (result : Out) (members : List (Str × Out)) : List (Str × Out) :=
  if members.any (fun m => m.1 = name) then
    members.map (fun m => if m.1 = name then (name, result) else m)
  else
    members.takeWhile (fun m => !listedBefore name m.1) ++
      (name, result) :: members.dropWhile (fun m => !listedBefore name m.1)

def Copy.put (cursor : Cursor) (index : Nat) (result : Out) : Copy → Copy
  | .arr items => .arr (setItem index result items)
  | .obj members =>
    match cursor with
    | .array _ => .obj members
    | .object keys => .obj (defineMember (keys[index]?.getD []) result members)

def place (result : Out) (frames : List (Frame A)) (w : Walk A) : Walk A :=
  match frames with
  | [] => { w with output := some result }
  | frame :: _ => { w with copies := w.copies.modify frame.copy (Copy.put frame.cursor (frame.next - 1) result) }

section
variable [DecidableEq A] (heap : A → Node A)

def Walk.remember (w : Walk A) (a : A) (result : Out) : Walk A :=
  { w with done := fun b => if b = a then some result else w.done b }

def Walk.leave (w : Walk A) (a : A) : Walk A := { w with onPath := w.onPath.filter (fun b => b ≠ a) }

/-- A fresh copy for the container, in the memo and in its place, and the frame for its members. -/
def enter (a : A) (empty : Copy) (cursor : Cursor) (frames : List (Frame A)) (w : Walk A) : Walk A × List (Frame A) :=
  let copy := w.copies.length
  let w := place (.copy copy) frames ({ w with copies := w.copies ++ [empty] }.remember a (.copy copy))
  ({ w with onPath := a :: w.onPath }, ⟨a, copy, cursor, 0⟩ :: frames)

/-- One value: placed as it is, refused, or entered. -/
def inspect (member : Value A) (frames : List (Frame A)) (w : Walk A) : Walk A × List (Frame A) :=
  match plainScalar member with
  | some scalar => (place scalar frames w, frames)
  | none =>
    match member with
    | .ref a =>
      if a ∈ w.onPath then (place .marker frames w, frames)
      else match w.done a with
        | some result => (place result frames w, frames)
        | none =>
          match heap a with
          | .arr header slots =>
            match arrayLength header slots with
            | none => (place .marker frames (w.remember a .marker), frames)
            | some length => enter a (.arr []) (.array length) frames w
          | .obj header members _ =>
            match objectKeys header members with
            | .error _ => (place .marker frames w, frames)
            | .ok none => (place .marker frames (w.remember a .marker), frames)
            | .ok (some keys) => enter a (.obj []) (.object keys) frames w
    | _ => (place .marker frames w, frames)

def descriptorAt (node : Node A) (cursor : Cursor) (index : Nat) : Option (Descriptor A) :=
  match node, cursor with
  | .arr _ slots, .array _ => slots[index]?.join
  | .obj _ members _, .object keys =>
    keys[index]?.bind (fun key => (members.find? (fun m => m.1 = key)).map (·.2))
  | _, _ => none

def enumerableValue : Option (Descriptor A) → Option (Value A)
  | some (.data value true) => some value
  | _ => none

/-- On to the next member of the innermost open container, out of those that are copied or refused;
none when no container is open. -/
def advance : List (Frame A) → Walk A → Walk A × Option (Value A × List (Frame A))
  | [], w => (w, none)
  | frame :: below, w =>
    if frame.cursor.length ≤ frame.next then advance below (w.leave frame.source)
    else
      match enumerableValue (descriptorAt (heap frame.source) frame.cursor frame.next) with
      | some value => (w, some (value, { frame with next := frame.next + 1 } :: below))
      | none => advance below (place .marker below ((w.leave frame.source).remember frame.source .marker))

/-- One turn of the loop, for the member it has. -/
def turn (s : Walk A × List (Frame A) × Value A) :
    Except Empty ((Walk A × List (Frame A) × Value A) ⊕ (Option Out × List Copy)) :=
  let (w, frames) := inspect heap s.2.2 s.2.1 s.1
  match advance heap frames w with
  | (w, some (member, frames)) => return .inl (w, frames, member)
  | (w, none) => return .inr (w.output, w.copies)

/-- The snapshot and the containers it is made of. -/
def snapshotPlainData (fuel : Nat) (root : Value A) : Option (Except Empty (Option Out × List Copy)) :=
  loop (turn heap) fuel (⟨none, [], fun _ => none, []⟩, [], root)

end

/-- A member by its name, or an item, with its value if it is an enumerable data property. -/
def Node.fields : Node A → List (Option Str × Option (Value A))
  | .arr _ slots => slots.map (fun d => (none, enumerableValue d))
  | .obj _ members _ => members.map (fun m => (some m.1, enumerableValue (some m.2)))

def Copy.fields : Copy → List (Option Str × Out)
  | .arr items => items.map (fun v => (none, v))
  | .obj members => members.map (fun m => (some m.1, m.2))

def Node.isArray : Node A → Bool
  | .arr _ _ => true
  | .obj _ _ _ => false

def Copy.isArray : Copy → Bool
  | .arr _ => true
  | .obj _ => false

/-- The container is an exact plain array or object as far as it can be told without its members. -/
def Node.opens : Node A → Bool
  | .arr header slots => (arrayLength header slots).isSome
  | .obj header members _ =>
    match objectKeys header members with
    | .ok (some _) => true
    | _ => false

section
variable (heap : A → Node A)

/-- Plain data itself, whatever its members are. -/
def PlainHere : Value A → Prop
  | .ref a => (heap a).opens = true ∧ ∀ field ∈ (heap a).fields, field.2 ≠ none
  | v => plainScalar v ≠ none

def Member (a : A) (v : Value A) : Prop := ∃ field ∈ (heap a).fields, field.2 = some v

/-- Reached through members. -/
inductive Reaches : Value A → Value A → Prop
  | refl (v : Value A) : Reaches v v
  | step {a : A} {v w : Value A} (mem : Member heap a v) (rest : Reaches v w) : Reaches (.ref a) w

/-- The container is reached from one of its own members. -/
def OnCycle : Value A → Prop
  | .ref a => ∃ v, Member heap a v ∧ Reaches heap v (.ref a)
  | _ => False

/-- Something reached is not plain data or lies on a cycle. -/
def Tainted (v : Value A) : Prop := ∃ w, Reaches heap v w ∧ (¬ PlainHere heap w ∨ OnCycle heap w)

end

/-- The marker is in the value or in a copy that it leads to. -/
inductive HasMarker (copies : List Copy) : Out → Prop
  | here : HasMarker copies .marker
  | inside {i : Nat} {c : Copy} {field : Option Str × Out} (copy : copies[i]? = some c) (mem : field ∈ c.fields)
      (h : HasMarker copies field.2) : HasMarker copies (.copy i)

end AgentPassport.ObjectGraph
