import AgentPassport.CycleSearch
import AgentPassport.JsNumber
import AgentPassport.OrderedMap

/-! Policy rules and cycles among their dependencies (`core/policy-conflict.ts`). -/
namespace AgentPassport.PolicyCycles
open JsText Js CycleSearch

structure PolicyRule where
  ruleId : Str
  actionScope : Str
  priority : JsNumber
  dependsOn : List Str
  conditions : OrderedMap Str Str

/-- `new Map(rules.map(r => [r.ruleId, r])).get(nodeId)`: the last rule with an id counts. -/
def ruleMapGet (rules : List PolicyRule) (nodeId : Str) : Option PolicyRule :=
  rules.reverse.find? (·.ruleId = nodeId)

/-- What the search goes on to from a node; an id without a rule has no dependencies. -/
def dependencies (rules : List PolicyRule) (nodeId : Str) : List Str :=
  match ruleMapGet rules nodeId with
  | none => []
  | some rule => rule.dependsOn

/-- `dfs` and the loop over the rules are the search over `dependencies`; `none` is out of fuel. -/
def detectCycles (fuel : Nat) (rules : List PolicyRule) : Option (List (List Str)) :=
  searchAll (dependencies rules) fuel (rules.map (·.ruleId))

def DependsOn (rules : List PolicyRule) (a b : Str) : Prop :=
  ∃ rule, ruleMapGet rules a = some rule ∧ b ∈ rule.dependsOn

def ids (rules : List PolicyRule) : List Str := rules.map (·.ruleId) ++ rules.flatMap (·.dependsOn)

theorem mem_dependencies {rules : List PolicyRule} {a b : Str} : b ∈ dependencies rules a ↔ DependsOn rules a b := by
  rw [dependencies, DependsOn]
  cases ruleMapGet rules a with
  | none => exact ⟨fun h => absurd h List.not_mem_nil, fun ⟨_, h, _⟩ => absurd h (Option.some_ne_none _).symm⟩
  | some rule => exact ⟨fun h => ⟨rule, rfl, h⟩, fun ⟨_, heq, h⟩ => Option.some.inj heq ▸ h⟩

theorem edge_eq (rules : List PolicyRule) : Edge (dependencies rules) = DependsOn rules := by
  funext a b
  exact propext mem_dependencies

theorem DependsOn.mem {rules : List PolicyRule} {a b : Str} (h : DependsOn rules a b) :
    a ∈ rules.map (·.ruleId) ∧ b ∈ ids rules := by
  obtain ⟨rule, hrule, hb⟩ := h
  have hmem : rule ∈ rules := List.mem_reverse.mp (List.mem_of_find?_eq_some hrule)
  have hid : rule.ruleId = a := by simpa using List.find?_some hrule
  exact ⟨List.mem_map.mpr ⟨rule, hmem, hid⟩, List.mem_append_right _ (List.mem_flatMap.mpr ⟨rule, hmem, hb⟩)⟩

/-- Cycle detection returns, whatever the rules; it finds something exactly when the dependencies have a directed cycle,
and each walk it returns is one. -/
theorem detectCycles_exact (rules : List PolicyRule) : ∃ cycles,
    (∀ fuel, (ids rules).length < fuel → detectCycles fuel rules = some cycles) ∧
      (cycles ≠ [] ↔ ∃ a, Relation.TransGen (DependsOn rules) a a) ∧
      ∀ walk ∈ cycles, walk.head? = walk.getLast? ∧ 2 ≤ walk.length ∧ walk.IsChain (DependsOn rules) := by
  have hnodes : ∀ a ∈ ids rules, ∀ b ∈ dependencies rules a, b ∈ ids rules :=
    fun _ _ _ h => (mem_dependencies.mp h).mem.2
  have hstarts : ∀ a ∈ rules.map (·.ruleId), a ∈ ids rules := fun _ h => List.mem_append_left _ h
  obtain ⟨cycles, hfuel, hcycle, hgenuine⟩ :=
    searchAll_spec hnodes hstarts (fun _ _ h => (mem_dependencies.mp h).mem.1)
  rw [Reaches, edge_eq] at hcycle
  refine ⟨cycles, hfuel, hcycle, fun walk hwalk => ?_⟩
  obtain ⟨hclosed, hlong, hedges⟩ := hgenuine walk hwalk
  rw [edge_eq] at hedges
  exact ⟨hclosed, hlong, hedges⟩

/-- A rule under an id depends on itself, but the last one under that id does not; the two rules wait for each other. -/
def sampleRule (ruleId : Str) (dependsOn : List Str) : PolicyRule :=
  ⟨ruleId, lit "data:read", .finite Double.one, dependsOn, ⟨[], List.nodup_nil⟩⟩

example : detectCycles 9 [sampleRule (lit "a") [lit "b", lit "z"], sampleRule (lit "b") [lit "b"],
    sampleRule (lit "b") [lit "a"]] = some [[lit "a", lit "b", lit "a"]] := by
  decide

end AgentPassport.PolicyCycles
