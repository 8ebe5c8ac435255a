import AgentPassport.CanonicalJcs
import AgentPassport.JsArithmetic
import AgentPassport.MapLoops
import AgentPassport.Outcome

/-! Effect identity and lineage (`core/reversibility-fold.ts`): the states an effect has gone
through are linked by hash, and a block is valid when the states of each effect are one rooted
chain. SHA-256 in hexadecimal and the text of a number are parameters. -/
namespace AgentPassport.EffectLineage
open JsText Js CanonicalJcs

inductive EffectScope where
  | internal | external
  deriving DecidableEq

inductive FinalityState where
  | settled | pending | expired | contradicted
  deriving DecidableEq

inductive EvidenceStatus where
  | resolved | pending | unavailable | conflicted
  deriving DecidableEq

inductive RealizedClass where
  | tentative | compensable | irreversible | unresolved
  deriving DecidableEq

structure EffectInstantiationElement where
  effect_scope : EffectScope
  effect_target_ref : Str
  finality_state : FinalityState
  recovery_mechanism_ref : Option Str
  recovery_controller : Option Str
  recovery_deadline : Option Str
  evidence_status : EvidenceStatus
  classification_profile_id : Str
  classification_profile_digest : Str
  action_ref : Str
  action_instance_id : Str
  effect_id : Str
  predecessor_effect_state_hash : Option Str
  sequence : JsNumber
  asserted_realized_class : Option RealizedClass
  deriving DecidableEq

structure EffectInstantiationBlock where
  instantiated_effects : List EffectInstantiationElement

def EffectScope.text : EffectScope → Str
  | .internal => lit "internal"
  | .external => lit "external"

def FinalityState.text : FinalityState → Str
  | .settled => lit "settled"
  | .pending => lit "pending"
  | .expired => lit "expired"
  | .contradicted => lit "contradicted"

def EvidenceStatus.text : EvidenceStatus → Str
  | .resolved => lit "resolved"
  | .pending => lit "pending"
  | .unavailable => lit "unavailable"
  | .conflicted => lit "conflicted"

def RealizedClass.text : RealizedClass → Str
  | .tentative => lit "tentative"
  | .compensable => lit "compensable"
  | .irreversible => lit "irreversible"
  | .unresolved => lit "unresolved"

def textMember (name : String) : Option Str → List (Str × JsValue)
  | some s => [(lit name, .str s)]
  | none => []

def effectStatePreimage (el : EffectInstantiationElement) : JsValue :=
  .obj ([(lit "effect_scope", JsValue.str el.effect_scope.text), (lit "effect_target_ref", .str el.effect_target_ref),
      (lit "finality_state", .str el.finality_state.text), (lit "evidence_status", .str el.evidence_status.text),
      (lit "classification_profile_id", .str el.classification_profile_id),
      (lit "classification_profile_digest", .str el.classification_profile_digest),
      (lit "action_ref", .str el.action_ref), (lit "action_instance_id", .str el.action_instance_id),
      (lit "effect_id", .str el.effect_id), (lit "sequence", .num el.sequence)]
    ++ textMember "recovery_mechanism_ref" el.recovery_mechanism_ref
    ++ textMember "recovery_controller" el.recovery_controller
    ++ textMember "recovery_deadline" el.recovery_deadline
    ++ textMember "predecessor_effect_state_hash" el.predecessor_effect_state_hash
    ++ textMember "asserted_realized_class" (el.asserted_realized_class.map RealizedClass.text))

def EFFECT_STATE_DOMAIN : Str := lit "APS-REVERSIBILITY-EFFECT-STATE-V0\x00"

def hashEffectState (numText : Double → Str) (sha256Hex : Str → Str) (element : EffectInstantiationElement) :
    Except JcsError Str := do
  let text ← canonicalizeJCS numText (effectStatePreimage element)
  return lit "sha256:" ++ sha256Hex (EFFECT_STATE_DOMAIN ++ text)

inductive LineageStatus where
  | ok | lineageIncomplete | lineageConflicted | equivocation | invalidState
  deriving DecidableEq

structure LineageResult where
  status : LineageStatus
  duplicate_count : Nat
  deriving DecidableEq

def mapKey : JsNumber → JsNumber
  | .finite d => if d.scaled = 0 then zeroOf false else .finite d
  | n => n

/-- `n === i` for an index. -/
def isIndex (i : Nat) : JsNumber → Bool
  | .finite d => d.scaled = i * scaleOne
  | _ => false

/-- `states.sort((a, b) => a.sequence - b.sequence)`: stable, and one goes behind another when the
difference is positive. -/
def sortAscending (states : List EffectInstantiationElement) : List EffectInstantiationElement :=
  states.insertionSort (fun a b => (zeroOf false).lt (a.sequence.sub b.sequence) = false)

/-- `states.sort((a, b) => b.sequence - a.sequence)`. -/
def sortDescending (states : List EffectInstantiationElement) : List EffectInstantiationElement :=
  states.insertionSort (fun a b => (zeroOf false).lt (b.sequence.sub a.sequence) = false)

/-- The sequences are the indices from `i` on. -/
def consecutive (i : Nat) : List EffectInstantiationElement → Bool
  | [] => true
  | s :: rest => isIndex i s.sequence && consecutive (i + 1) rest

section
variable (hash : EffectInstantiationElement → Except JcsError Str)

def noteState (seen : OrderedMap Str EffectInstantiationElement × Nat) (s : EffectInstantiationElement) :
    Except JcsError (OrderedMap Str EffectInstantiationElement × Nat) := do
  let h ← hash s
  if (seen.1.get h).isSome then return (seen.1, seen.2 + 1)
  else return (seen.1.set h s, seen.2)

def linkStatus : List EffectInstantiationElement → Except JcsError LineageStatus
  | a :: b :: rest => do
    let h ← hash a
    if b.predecessor_effect_state_hash ≠ some h then return .invalidState
    else linkStatus (b :: rest)
  | _ => return .ok

/-- The checks on the distinct states, of which the first that fails decides. -/
def graphStatus (unique : List EffectInstantiationElement) : Except JcsError LineageStatus :=
  match unique.filter (fun s => s.predecessor_effect_state_hash = none) with
  | [] => return .lineageIncomplete
  | _ :: _ :: _ => return .equivocation
  | [root] =>
    if !isIndex 0 root.sequence then return .lineageIncomplete
    else if OrderedMap.repeats (unique.filterMap (·.predecessor_effect_state_hash)) then return .lineageConflicted
    else if OrderedMap.repeats (unique.map (fun s => mapKey s.sequence)) then return .equivocation
    else if !consecutive 0 (sortAscending unique) then return .lineageIncomplete
    else linkStatus hash (sortAscending unique)

def validateOneLineage (states : List EffectInstantiationElement) : Except JcsError LineageResult := do
  let (byHash, duplicate_count) ← states.foldlM (noteState hash) (.empty, 0)
  let status ← graphStatus hash byHash.values
  return ⟨status, duplicate_count⟩

/-- The count so far, and the status of the first effect that is not valid. -/
def noteLineage (seen : Nat × Option LineageStatus) (r : LineageResult) : Nat × Option LineageStatus :=
  (seen.1 + r.duplicate_count,
    if r.status ≠ .ok ∧ seen.2 = none then some r.status else seen.2)

def byEffect (block : EffectInstantiationBlock) : OrderedMap Str (List EffectInstantiationElement) :=
  OrderedMap.groupBy (·.effect_id) block.instantiated_effects

def effectIds (block : EffectInstantiationBlock) : List Str := (byEffect block).keys.insertionSort (· ≤ ·)

def validateEffectLineage (block : EffectInstantiationBlock) : Except JcsError LineageResult := do
  let (duplicate_count, firstNonOk) ← (effectIds block).foldlM
    (fun seen effectId => do
      let r ← validateOneLineage hash (((byEffect block).get effectId).getD [])
      return noteLineage seen r)
    (0, none)
  return ⟨firstNonOk.getD .ok, duplicate_count⟩

/-- The states with the highest sequences, by effect; nothing when the block is not valid. -/
def latestValidEffectStates (block : EffectInstantiationBlock) :
    Except JcsError (Option (OrderedMap Str (Option EffectInstantiationElement))) := do
  let r ← validateEffectLineage hash block
  if r.status ≠ .ok then return none
  else return some ((byEffect block).mapEach (fun states => (sortDescending states).head?))

end

end AgentPassport.EffectLineage
