import AgentPassport.DecisionRecord

/-! The hashed-component trie that decides whether a resource path is in scope. -/
namespace AgentPassport.ResourceTrie
open ByteBlocks DecisionRecord

def utf8 (s : List Char) : List UInt8 := s.flatMap String.utf8EncodeChar

/-- The first eight bytes of the component's hash, little-endian. -/
def hashPathComponent (B : Blake3) (component : List Char) : UInt64 :=
  UInt64.ofNat (ofLe ((B.hash (utf8 component)).bytes.take 8))

structure ParsedScope where
  literalComponents : List UInt64
  hasWildcardTail : Bool
  deriving DecidableEq

def trimSlashes (s : List Char) : List Char :=
  ((s.dropWhile (· = '/')).reverse.dropWhile (· = '/')).reverse

def parseScope (B : Blake3) (scope : String) : ParsedScope :=
  let trimmed := trimSlashes scope.toList
  if trimmed.isEmpty then ⟨[], false⟩
  else
    let parts := (trimmed.splitOn '/').filter (fun p => !p.isEmpty)
    if parts.getLast? = some ['*'] then ⟨parts.dropLast.map (hashPathComponent B), true⟩
    else ⟨parts.map (hashPathComponent B), false⟩

inductive TrieNode where
  | node (children : List (UInt64 × TrieNode)) (isTerminal hasWildcardTail : Bool)

def TrieNode.new : TrieNode := .node [] false false
def TrieNode.children : TrieNode → List (UInt64 × TrieNode)
  | .node c _ _ => c
def TrieNode.isTerminal : TrieNode → Bool
  | .node _ t _ => t
def TrieNode.hasWildcardTail : TrieNode → Bool
  | .node _ _ w => w

/-- Descend to the child for `h`, creating it at its sorted place when it is missing. -/
def updateChild (h : UInt64) (f : TrieNode → TrieNode) :
    List (UInt64 × TrieNode) → List (UInt64 × TrieNode)
  | [] => [(h, f .new)]
  | (k, c) :: rest =>
    if k = h then (k, f c) :: rest
    else if h < k then (h, f .new) :: (k, c) :: rest
    else (k, c) :: updateChild h f rest

def TrieNode.insertPath (wildcard : Bool) : List UInt64 → TrieNode → TrieNode
  | [], .node c t w => if wildcard then .node c t true else .node c true w
  | h :: path, .node c t w => .node (updateChild h (insertPath wildcard path) c) t w

def TrieNode.insert (scope : ParsedScope) (root : TrieNode) : TrieNode :=
  root.insertPath scope.hasWildcardTail scope.literalComponents

def TrieNode.build (B : Blake3) (scopes : List String) : TrieNode :=
  scopes.foldl (fun root s => root.insert (parseScope B s)) .new

def findChild (h : UInt64) (children : List (UInt64 × TrieNode)) : Option TrieNode :=
  (children.find? (fun e => e.1 = h)).map (·.2)

/-- A wildcard met on the way down covers the rest of the path. -/
def TrieNode.matches (node : TrieNode) : List UInt64 → Bool
  | [] => node.isTerminal || node.hasWildcardTail
  | h :: path =>
    if node.hasWildcardTail then true
    else match findChild h node.children with
      | some child => child.matches path
      | none => false

/-- A scope covers its own path, and every path below it when it ends in a wildcard. -/
def ParsedScope.Covers (s : ParsedScope) (path : List UInt64) : Prop :=
  if s.hasWildcardTail then s.literalComponents <+: path else s.literalComponents = path

def TrieNode.HoldsPath (wildcard : Bool) (node : TrieNode) : List UInt64 → Prop
  | [] => (if wildcard then node.hasWildcardTail else node.isTerminal) = true
  | h :: path => ∃ child, findChild h node.children = some child ∧ child.HoldsPath wildcard path

/-- The components of `s` lead to a node that carries the mark of `s`. -/
def TrieNode.Holds (node : TrieNode) (s : ParsedScope) : Prop :=
  node.HoldsPath s.hasWildcardTail s.literalComponents

theorem matches_of_holds (path : List UInt64) (node : TrieNode) (s : ParsedScope)
    (hs : node.Holds s) (hc : s.Covers path) : node.matches path = true := by
  induction path generalizing node s with
  | nil =>
    obtain ⟨lits, w⟩ := s
    have hl : lits = [] := by
      cases w <;> simpa [ParsedScope.Covers] using hc
    subst hl
    cases w <;> simp_all [TrieNode.Holds, TrieNode.HoldsPath, TrieNode.matches]
  | cons h path ih =>
    rw [TrieNode.matches]
    split
    · rfl
    · rename_i hw
      obtain ⟨lits, w⟩ := s
      cases lits with
      | nil =>
        cases w with
        | true => exact absurd hs hw
        | false => simp [ParsedScope.Covers] at hc
      | cons l lits =>
        obtain ⟨child, hf, hp⟩ := hs
        have hlh : l = h ∧ (⟨lits, w⟩ : ParsedScope).Covers path := by
          cases w <;> simpa [ParsedScope.Covers] using hc
        rw [← hlh.1, hf]
        exact ih child ⟨lits, w⟩ hp hlh.2

theorem holds_of_matches (path : List UInt64) (node : TrieNode)
    (hm : node.matches path = true) : ∃ s, node.Holds s ∧ s.Covers path := by
  induction path generalizing node with
  | nil =>
    rw [TrieNode.matches, Bool.or_eq_true] at hm
    rcases hm with ht | hw
    · exact ⟨⟨[], false⟩, ht, rfl⟩
    · exact ⟨⟨[], true⟩, hw, List.nil_prefix⟩
  | cons h path ih =>
    rw [TrieNode.matches] at hm
    split at hm
    · rename_i hw
      exact ⟨⟨[], true⟩, hw, List.nil_prefix⟩
    · cases hf : findChild h node.children with
      | none => simp [hf] at hm
      | some child =>
        rw [hf] at hm
        obtain ⟨⟨lits, w⟩, hs, hc⟩ := ih child hm
        refine ⟨⟨h :: lits, w⟩, ⟨child, hf, hs⟩, ?_⟩
        cases w <;> simpa [ParsedScope.Covers] using hc

theorem matches_iff (node : TrieNode) (path : List UInt64) :
    node.matches path = true ↔ ∃ s, node.Holds s ∧ s.Covers path :=
  ⟨holds_of_matches path node, fun ⟨s, hs, hc⟩ => matches_of_holds path node s hs hc⟩

/-- Children stay sorted by hash at every level, as the binary searches need. -/
inductive TrieNode.Ordered : TrieNode → Prop
  | node {c : List (UInt64 × TrieNode)} {t w : Bool}
      (sorted : c.Pairwise (fun a b => a.1 < b.1)) (below : ∀ e ∈ c, e.2.Ordered) :
      Ordered (.node c t w)

theorem ordered_new : TrieNode.new.Ordered := .node List.Pairwise.nil (by simp)

theorem findChild_updateChild_ne {h k : UInt64} (hk : k ≠ h) (f : TrieNode → TrieNode)
    (c : List (UInt64 × TrieNode)) : findChild k (updateChild h f c) = findChild k c := by
  induction c with
  | nil => simp [updateChild, findChild, hk.symm]
  | cons e rest ih =>
    obtain ⟨j, child⟩ := e
    rw [updateChild]
    split
    · rename_i hj
      subst hj
      simp [findChild, hk.symm]
    · split
      · simp [findChild, hk.symm]
      · unfold findChild at ih ⊢
        by_cases hjk : j = k
        · simp [hjk]
        · simpa [hjk] using ih

variable {c : List (UInt64 × TrieNode)}

variable {h : UInt64}

theorem findChild_none_of_lt (hc : ∀ e ∈ c, h < e.1) : findChild h c = none := by
  unfold findChild
  rw [List.find?_eq_none.mpr ?_, Option.map_none]
  intro e he
  have := hc e he
  simp only [decide_eq_true_eq]
  rintro rfl
  exact UInt64.lt_irrefl _ this

theorem findChild_updateChild_self (f : TrieNode → TrieNode) (hc : c.Pairwise (fun a b => a.1 < b.1)) :
    findChild h (updateChild h f c) = some (f ((findChild h c).getD .new)) := by
  induction c with
  | nil => simp [updateChild, findChild]
  | cons e rest ih =>
    obtain ⟨j, child⟩ := e
    obtain ⟨hj, hrest⟩ := List.pairwise_cons.mp hc
    rw [updateChild]
    split
    · rename_i hjh
      simp [findChild, hjh]
    · rename_i hjh
      split
      · rename_i hlt
        have hnone : findChild h ((j, child) :: rest) = none := by
          refine findChild_none_of_lt ?_
          intro e he
          rcases List.mem_cons.mp he with rfl | he
          · exact hlt
          · exact UInt64.lt_trans hlt (hj e he)
        rw [hnone]
        simp [findChild]
      · have := ih hrest
        unfold findChild at this ⊢
        simpa [hjh] using this

theorem mem_updateChild {f : TrieNode → TrieNode} {e : UInt64 × TrieNode} (he : e ∈ updateChild h f c) :
    e ∈ c ∨ e.1 = h ∧ (e.2 = f .new ∨ ∃ e' ∈ c, e.2 = f e'.2) := by
  induction c with
  | nil => simp_all [updateChild]
  | cons x rest ih =>
    obtain ⟨j, child⟩ := x
    rw [updateChild] at he
    split at he
    · rename_i hj
      rcases List.mem_cons.mp he with rfl | he
      · exact .inr ⟨hj, .inr ⟨_, List.mem_cons_self, rfl⟩⟩
      · exact .inl (List.mem_cons_of_mem _ he)
    · split at he
      · rcases List.mem_cons.mp he with rfl | he
        · exact .inr ⟨rfl, .inl rfl⟩
        · exact .inl he
      · rcases List.mem_cons.mp he with rfl | he
        · exact .inl List.mem_cons_self
        · rcases ih he with hmem | ⟨hk, hnew | ⟨e', he', hf⟩⟩
          · exact .inl (List.mem_cons_of_mem _ hmem)
          · exact .inr ⟨hk, .inl hnew⟩
          · exact .inr ⟨hk, .inr ⟨e', List.mem_cons_of_mem _ he', hf⟩⟩

theorem updateChild_sorted (f : TrieNode → TrieNode) (hc : c.Pairwise (fun a b => a.1 < b.1)) :
    (updateChild h f c).Pairwise (fun a b => a.1 < b.1) := by
  induction c with
  | nil => simp [updateChild]
  | cons x rest ih =>
    obtain ⟨j, child⟩ := x
    obtain ⟨hj, hrest⟩ := List.pairwise_cons.mp hc
    rw [updateChild]
    split
    · exact List.pairwise_cons.mpr ⟨hj, hrest⟩
    · rename_i hjh
      split
      · rename_i hlt
        refine List.pairwise_cons.mpr ⟨?_, hc⟩
        intro e he
        rcases List.mem_cons.mp he with rfl | he
        · exact hlt
        · exact UInt64.lt_trans hlt (hj e he)
      · rename_i hnlt
        refine List.pairwise_cons.mpr ⟨?_, ih hrest⟩
        intro e he
        rcases mem_updateChild he with hmem | ⟨hk, _⟩
        · exact hj e hmem
        · rw [hk]
          grind

theorem insertPath_ordered (wildcard : Bool) (path : List UInt64) {node : TrieNode}
    (hn : node.Ordered) : (node.insertPath wildcard path).Ordered := by
  induction path generalizing node with
  | nil =>
    obtain ⟨hs, hb⟩ := hn
    cases wildcard <;> exact .node hs hb
  | cons h path ih =>
    obtain ⟨hs, hb⟩ := hn
    refine .node (updateChild_sorted _ hs) ?_
    intro e he
    rcases mem_updateChild he with hmem | ⟨_, hnew | ⟨e', he', hf⟩⟩
    · exact hb e hmem
    · rw [hnew]
      exact ih ordered_new
    · rw [hf]
      exact ih (hb e' he')

theorem not_holdsPath_new (wildcard : Bool) (path : List UInt64) :
    ¬ TrieNode.new.HoldsPath wildcard path := by
  cases path with
  | nil => cases wildcard <;> simp [TrieNode.HoldsPath, TrieNode.new, TrieNode.isTerminal,
      TrieNode.hasWildcardTail]
  | cons h path => simp [TrieNode.HoldsPath, TrieNode.new, TrieNode.children, findChild]

theorem holdsPath_insertPath (wildcard w : Bool) (path q : List UInt64) {node : TrieNode}
    (hn : node.Ordered) :
    (node.insertPath wildcard path).HoldsPath w q ↔
      node.HoldsPath w q ∨ (w = wildcard ∧ q = path) := by
  induction path generalizing node q with
  | nil =>
    obtain ⟨c, t, x⟩ := node
    cases q with
    | nil =>
      cases wildcard <;> cases w <;> simp [TrieNode.insertPath, TrieNode.HoldsPath,
        TrieNode.isTerminal, TrieNode.hasWildcardTail]
    | cons k q =>
      cases wildcard <;> simp [TrieNode.insertPath, TrieNode.HoldsPath, TrieNode.children]
  | cons h path ih =>
    obtain ⟨hs, hb⟩ := hn
    rename_i c t x
    cases q with
    | nil => simp [TrieNode.insertPath, TrieNode.HoldsPath, TrieNode.isTerminal,
        TrieNode.hasWildcardTail]
    | cons k q =>
      simp only [TrieNode.insertPath, TrieNode.HoldsPath, TrieNode.children]
      by_cases hk : k = h
      · subst hk
        rw [findChild_updateChild_self _ hs]
        cases hf : findChild k c with
        | none =>
          have hnew := ih q ordered_new
          simp only [Option.getD_none, Option.some.injEq, exists_eq_left', hnew,
            not_holdsPath_new, reduceCtorEq, false_and, exists_false, false_or, List.cons.injEq,
            true_and]
        | some child =>
          have hchild : child.Ordered := by
            obtain ⟨e, he, rfl⟩ := Option.map_eq_some_iff.mp hf
            exact hb e (List.mem_of_find?_eq_some he)
          simp only [Option.getD_some, Option.some.injEq, exists_eq_left', ih q hchild,
            List.cons.injEq, true_and]
      · rw [findChild_updateChild_ne hk]
        simp [hk]

theorem build_holds (B : Blake3) (scopes : List String) (s : ParsedScope) :
    (TrieNode.build B scopes).Holds s ↔ ∃ scope ∈ scopes, parseScope B scope = s := by
  have step : ∀ (scopes : List String) (root : TrieNode), root.Ordered →
      ((scopes.foldl (fun root s => root.insert (parseScope B s)) root).Holds s ↔
        root.Holds s ∨ ∃ scope ∈ scopes, parseScope B scope = s) := by
    intro scopes
    induction scopes with
    | nil => simp
    | cons scope rest ih =>
      intro root hroot
      have hins : (root.insert (parseScope B scope)).Holds s ↔
          root.Holds s ∨ parseScope B scope = s := by
        obtain ⟨lits, w⟩ := s
        refine (holdsPath_insertPath _ _ _ _ hroot).trans (or_congr Iff.rfl ?_)
        constructor
        · rintro ⟨hw, hl⟩
          rw [ParsedScope.mk.injEq]
          exact ⟨hl.symm, hw.symm⟩
        · intro h
          rw [h]
          exact ⟨rfl, rfl⟩
      have hord : (root.insert (parseScope B scope)).Ordered := insertPath_ordered _ _ hroot
      rw [List.foldl_cons, ih _ hord, hins]
      simp only [List.mem_cons, exists_eq_or_imp, or_assoc]
  rw [TrieNode.build, step scopes .new ordered_new]
  simp [TrieNode.Holds, not_holdsPath_new]

end AgentPassport.ResourceTrie
