import AgentPassport.BinarySearch
import AgentPassport.ResourceTrie
import Mathlib.Data.List.TakeWhile

/-! The trie as its code searches it: children are found and placed by binary search. A node's
children stay sorted, and a built trie is determined by the set of its scopes. -/
namespace AgentPassport.TrieSearch
open BinarySearch DecisionRecord ResourceTrie

/-- `children.binary_search_by_key(h, |(k, _)| *k)`. -/
def searchChild (h : UInt64) (children : List (UInt64 × TrieNode)) : Except Nat Nat :=
  binarySearch (children.map (·.1.toNat)) h.toNat

/-- `node = &mut children[idx].1`, with what is done to the node from there. -/
def descend (f : TrieNode → TrieNode) (idx : Nat) (children : List (UInt64 × TrieNode)) : List (UInt64 × TrieNode) :=
  children.modify idx (fun e => (e.1, f e.2))

def atChild (h : UInt64) (f : TrieNode → TrieNode) (children : List (UInt64 × TrieNode)) :
    List (UInt64 × TrieNode) :=
  match searchChild h children with
  | .ok i => descend f i children
  | .error i => descend f i (children.insertIdx i (h, .new))

def insertFrom (wildcard : Bool) : List UInt64 → TrieNode → TrieNode
  | [], .node cs t w => if wildcard then .node cs t true else .node cs true w
  | h :: path, .node cs t w => .node (atChild h (insertFrom wildcard path) cs) t w

def insert (scope : ParsedScope) (root : TrieNode) : TrieNode :=
  insertFrom scope.hasWildcardTail scope.literalComponents root

def build (B : Blake3) (scopes : List String) : TrieNode :=
  scopes.foldl (fun root s => insert (parseScope B s) root) .new

def childAt (h : UInt64) (children : List (UInt64 × TrieNode)) : Option TrieNode :=
  match searchChild h children with
  | .ok idx => children[idx]?.map (·.2)
  | .error _ => none

def matchesPath (node : TrieNode) : List UInt64 → Bool
  | [] => node.isTerminal || node.hasWildcardTail
  | h :: path =>
    if node.hasWildcardTail then true
    else
      match childAt h node.children with
      | some child => matchesPath child path
      | none => false

abbrev Sorted (cs : List (UInt64 × TrieNode)) : Prop := cs.Pairwise (fun a b => a.1 < b.1)

variable {cs : List (UInt64 × TrieNode)}

theorem keys_sorted (hc : Sorted cs) : (cs.map (·.1.toNat)).Pairwise (· < ·) :=
  List.pairwise_map.mpr (hc.imp UInt64.lt_iff_toNat_lt.mp)

theorem updateChild_append {h : UInt64} (f : TrieNode → TrieNode) {before : List (UInt64 × TrieNode)}
    (hbefore : ∀ e ∈ before, e.1 < h) (after : List (UInt64 × TrieNode)) :
    updateChild h f (before ++ after) = before ++ updateChild h f after := by
  induction before with
  | nil => rfl
  | cons e rest ih =>
    obtain ⟨hlt, hrest⟩ := List.forall_mem_cons.mp hbefore
    have hne : e.1 ≠ h := fun heq => UInt64.lt_irrefl _ (heq ▸ hlt)
    have hnlt : ¬ h < e.1 := fun hgt => UInt64.lt_irrefl _ (UInt64.lt_trans hlt hgt)
    rw [List.cons_append, updateChild, if_neg hne, if_neg hnlt, ih hrest, List.cons_append]

theorem updateChild_after {h : UInt64} (f : TrieNode → TrieNode) {after : List (UInt64 × TrieNode)}
    (hafter : ∀ e ∈ after, h < e.1) : updateChild h f after = (h, f .new) :: after := by
  cases after with
  | nil => rfl
  | cons e rest =>
    have hlt := hafter e List.mem_cons_self
    have hne : e.1 ≠ h := fun heq => UInt64.lt_irrefl _ (heq ▸ hlt)
    rw [updateChild, if_neg hne, if_pos hlt]

theorem search_split (h : UInt64) (hc : Sorted cs) :
    (∃ i child, searchChild h cs = .ok i ∧ cs[i]? = some (h, child) ∧ (∀ e ∈ cs.take i, e.1 < h)) ∨
    ∃ i, searchChild h cs = .error i ∧ i ≤ cs.length ∧ (∀ e ∈ cs.take i, e.1 < h) ∧ ∀ e ∈ cs.drop i, h < e.1 := by
  have hfound := binarySearch_found (keys_sorted hc) h.toNat
  cases hsearch : searchChild h cs with
  | ok i =>
    rw [show binarySearch (cs.map (·.1.toNat)) h.toNat = .ok i from hsearch, Found, List.getElem?_map] at hfound
    obtain ⟨e, he, hkey⟩ := Option.map_eq_some_iff.mp hfound
    obtain ⟨hlt, hget⟩ := List.getElem?_eq_some_iff.mp he
    have hkey : e.1 = h := UInt64.toNat_inj.mp hkey
    refine .inl ⟨i, e.2, rfl, he.trans (congrArg some (Prod.ext hkey rfl)), ?_⟩
    intro x hx
    obtain ⟨j, hj, rfl⟩ := List.getElem_of_mem hx
    rw [List.length_take] at hj
    rw [List.getElem_take, ← hkey, ← hget]
    exact List.pairwise_iff_getElem.mp hc j i (by omega) hlt (by omega)
  | error i =>
    rw [show binarySearch (cs.map (·.1.toNat)) h.toNat = .error i from hsearch, Found, List.length_map] at hfound
    refine .inr ⟨i, rfl, hfound.1, ?_, ?_⟩
    · intro e he
      rw [UInt64.lt_iff_toNat_lt]
      exact hfound.2.1 _ (by rw [← List.map_take]; exact List.mem_map_of_mem he)
    · intro e he
      rw [UInt64.lt_iff_toNat_lt]
      exact hfound.2.2 _ (by rw [← List.map_drop]; exact List.mem_map_of_mem he)

theorem descend_append {f : TrieNode → TrieNode} (before : List (UInt64 × TrieNode)) (e : UInt64 × TrieNode)
    (after : List (UInt64 × TrieNode)) :
    descend f before.length (before ++ e :: after) = before ++ (e.1, f e.2) :: after := by
  rw [descend, List.modify_eq_take_cons_drop (by simp)]
  simp

theorem split_at {i : Nat} {e : UInt64 × TrieNode} (h : cs[i]? = some e) :
    cs = cs.take i ++ e :: cs.drop (i + 1) ∧ (cs.take i).length = i := by
  obtain ⟨hlt, hget⟩ := List.getElem?_eq_some_iff.mp h
  refine ⟨?_, by rw [List.length_take]; omega⟩
  rw [← hget, ← List.drop_eq_getElem_cons hlt, List.take_append_drop]

theorem insertIdx_append (before : List (UInt64 × TrieNode)) (e : UInt64 × TrieNode)
    (after : List (UInt64 × TrieNode)) : (before ++ after).insertIdx before.length e = before ++ e :: after := by
  induction before with
  | nil => rfl
  | cons x rest ih => rw [List.cons_append, List.length_cons, List.insertIdx_succ_cons, ih, List.cons_append]

theorem atChild_eq (h : UInt64) (f : TrieNode → TrieNode) (hc : Sorted cs) : atChild h f cs = updateChild h f cs := by
  rw [atChild]
  obtain ⟨i, child, hsearch, hget, hbefore⟩ | ⟨i, hsearch, hle, hbefore, hafter⟩ := search_split h hc
  · rw [hsearch]
    obtain ⟨hsplit, hlen⟩ := split_at hget
    generalize cs.take i = before at hsplit hlen hbefore
    rw [hsplit, ← hlen]
    dsimp only
    rw [descend_append, updateChild_append f hbefore, updateChild, if_pos rfl]
  · rw [hsearch]
    have hsplit := (List.take_append_drop i cs).symm
    have hlen : (cs.take i).length = i := by
      rw [List.length_take]
      omega
    generalize cs.take i = before at hsplit hlen hbefore
    generalize cs.drop i = after at hsplit hafter
    rw [hsplit, ← hlen]
    dsimp only
    rw [insertIdx_append, descend_append, updateChild_append f hbefore, updateChild_after f hafter]

theorem childAt_eq (h : UInt64) (hc : Sorted cs) : childAt h cs = findChild h cs := by
  have hskip : ∀ {before after : List (UInt64 × TrieNode)}, (∀ e ∈ before, e.1 < h) →
      findChild h (before ++ after) = findChild h after := by
    intro before after hbefore
    have hnone : before.find? (fun e => e.1 = h) = none := by
      refine List.find?_eq_none.mpr ?_
      intro e he
      rw [decide_eq_true_eq]
      exact fun heq => UInt64.lt_irrefl _ (heq ▸ hbefore e he)
    rw [findChild, List.find?_append, hnone, Option.none_or, findChild]
  rw [childAt]
  obtain ⟨i, child, hsearch, hget, hbefore⟩ | ⟨i, hsearch, -, hbefore, hafter⟩ := search_split h hc
  · rw [hsearch]
    dsimp only
    rw [hget]
    obtain ⟨hsplit, -⟩ := split_at hget
    rw [hsplit, hskip hbefore, findChild, List.find?_cons_of_pos (by simp), Option.map_some]
  · rw [hsearch]
    dsimp only
    rw [← List.take_append_drop i cs, hskip hbefore, findChild_none_of_lt hafter]

variable {node : TrieNode}

theorem insertFrom_eq (wildcard : Bool) (path : List UInt64) (hn : node.Ordered) :
    insertFrom wildcard path node = node.insertPath wildcard path := by
  induction path generalizing node with
  | nil =>
    obtain ⟨-, -⟩ := hn
    rw [insertFrom, TrieNode.insertPath]
  | cons h path ih =>
    obtain ⟨hsorted, hbelow⟩ := hn
    rename_i cs t w
    rw [insertFrom, TrieNode.insertPath, atChild_eq h _ hsorted]
    congr 1
    -- the two continuations agree on every node they can be applied to
    have hcongr : ∀ cs : List (UInt64 × TrieNode), (∀ e ∈ cs, e.2.Ordered) →
        updateChild h (insertFrom wildcard path) cs = updateChild h (TrieNode.insertPath wildcard path) cs := by
      intro cs hc
      induction cs with
      | nil => rw [updateChild, updateChild, ih ordered_new]
      | cons e rest ihc =>
        obtain ⟨he, hrest⟩ := List.forall_mem_cons.mp hc
        rw [updateChild, updateChild, ih he, ih ordered_new, ihc hrest]
    exact hcongr cs hbelow

theorem matchesPath_eq (path : List UInt64) (hn : node.Ordered) : matchesPath node path = node.matches path := by
  induction path generalizing node with
  | nil => rfl
  | cons h path ih =>
    obtain ⟨hsorted, hbelow⟩ := hn
    rename_i cs t w
    rw [matchesPath, TrieNode.matches, TrieNode.children, childAt_eq h hsorted]
    cases hfind : findChild h cs with
    | none => rfl
    | some child =>
      obtain ⟨e, he, rfl⟩ := Option.map_eq_some_iff.mp hfind
      dsimp only
      rw [ih (hbelow e (List.mem_of_find?_eq_some he))]

/-- Sorted children everywhere, each of them with a scope below it. -/
inductive Canonical : TrieNode → Prop
  | node {cs : List (UInt64 × TrieNode)} {t w : Bool} (sorted : Sorted cs) (below : ∀ e ∈ cs, Canonical e.2)
      (inhabited : ∀ e ∈ cs, ∃ wildcard path, e.2.HoldsPath wildcard path) : Canonical (.node cs t w)

theorem Canonical.ordered (h : Canonical node) : node.Ordered := by
  induction h with
  | node sorted _ _ ih => exact .node sorted ih

theorem canonical_new : Canonical .new := .node .nil (List.forall_mem_nil _) (List.forall_mem_nil _)

theorem insertPath_canonical (wildcard : Bool) (path : List UInt64) (hn : Canonical node) :
    Canonical (node.insertPath wildcard path) := by
  induction path generalizing node with
  | nil =>
    obtain ⟨hsorted, hbelow, hinhabited⟩ := hn
    cases wildcard with
    | false => exact .node hsorted hbelow hinhabited
    | true => exact .node hsorted hbelow hinhabited
  | cons h path ih =>
    obtain ⟨hsorted, hbelow, hinhabited⟩ := hn
    have hown : ∀ {node : TrieNode}, Canonical node →
        ∃ wildcard' path', (node.insertPath wildcard path).HoldsPath wildcard' path' :=
      fun hnode => ⟨wildcard, path, (holdsPath_insertPath _ _ _ _ hnode.ordered).mpr (.inr ⟨rfl, rfl⟩)⟩
    refine .node (updateChild_sorted _ hsorted) ?_ ?_
    · intro e he
      obtain hmem | ⟨-, hnew | ⟨e', he', hold⟩⟩ := mem_updateChild he
      · exact hbelow e hmem
      · exact hnew ▸ ih canonical_new
      · exact hold ▸ ih (hbelow e' he')
    · intro e he
      obtain hmem | ⟨-, hnew | ⟨e', he', hold⟩⟩ := mem_updateChild he
      · exact hinhabited e hmem
      · exact hnew ▸ hown canonical_new
      · exact hold ▸ hown (hbelow e' he')

theorem mem_iff_findChild (hc : Sorted cs) (k : UInt64) (child : TrieNode) :
    (k, child) ∈ cs ↔ findChild k cs = some child := by
  induction cs with
  | nil => exact iff_of_false List.not_mem_nil (fun h => by cases h)
  | cons e rest ih =>
    obtain ⟨hfirst, hrest⟩ := List.pairwise_cons.mp hc
    rw [List.mem_cons, ih hrest]
    by_cases hk : e.1 = k
    · have hnone : findChild k rest = none := findChild_none_of_lt (hk ▸ hfirst)
      have hfind : findChild k (e :: rest) = some e.2 := by
        rw [findChild, List.find?_cons_of_pos (by simpa using hk), Option.map_some]
      rw [hnone, hfind, Option.some.injEq]
      constructor
      · exact fun h => h.elim (fun heq => (congrArg Prod.snd heq).symm) (fun h => by cases h)
      · exact fun h => .inl (Prod.ext hk.symm h.symm)
    · have hfind : findChild k (e :: rest) = findChild k rest := by
        rw [findChild, List.find?_cons_of_neg (by rw [decide_eq_true_eq]; exact hk), findChild]
      rw [hfind]
      exact or_iff_right (fun heq => hk (congrArg Prod.fst heq).symm)

theorem sorted_ext {cs d : List (UInt64 × TrieNode)} (hc : Sorted cs) (hd : Sorted d)
    (h : ∀ k, findChild k cs = findChild k d) : cs = d := by
  have hnodup : ∀ {cs : List (UInt64 × TrieNode)}, Sorted cs → cs.Nodup :=
    fun hc => List.Pairwise.imp (fun {a b} (hlt : a.1 < b.1) (heq : a = b) => UInt64.lt_irrefl _ (heq ▸ hlt)) hc
  have hperm : cs.Perm d := by
    refine (List.perm_ext_iff_of_nodup (hnodup hc) (hnodup hd)).mpr ?_
    intro e
    rw [mem_iff_findChild hc, mem_iff_findChild hd, h]
  refine hperm.eq_of_pairwise ?_ hc hd
  intro a b _ _ hab hba
  exact absurd (UInt64.lt_trans hab hba) (UInt64.lt_irrefl _)

theorem Canonical.eq_of_holds {node other : TrieNode} (hn : Canonical node) (ho : Canonical other)
    (h : ∀ wildcard path, node.HoldsPath wildcard path ↔ other.HoldsPath wildcard path) : node = other := by
  induction hn generalizing other with
  | @node cs t w hsorted hbelow hinhabited ih =>
    obtain ⟨hsorted', hbelow', hinhabited'⟩ := ho
    rename_i c' t' w'
    have ht : t = t' := Bool.eq_iff_iff.mpr (h false [])
    have hw : w = w' := Bool.eq_iff_iff.mpr (h true [])
    have hc : cs = c' := by
      refine sorted_ext hsorted hsorted' ?_
      intro k
      -- a child is inhabited, so the other trie has one there too, and they hold the same
      have hchild : ∀ wildcard path, (∃ x, findChild k cs = some x ∧ x.HoldsPath wildcard path) ↔
          ∃ x, findChild k c' = some x ∧ x.HoldsPath wildcard path := fun wildcard path => h wildcard (k :: path)
      cases hfind : findChild k cs with
      | none =>
        cases hfind' : findChild k c' with
        | none => rfl
        | some y =>
          obtain ⟨wildcard, path, hy⟩ := hinhabited' _ ((mem_iff_findChild hsorted' k y).mpr hfind')
          obtain ⟨x, hx, -⟩ := (hchild wildcard path).mpr ⟨y, hfind', hy⟩
          rw [hfind] at hx
          cases hx
      | some x =>
        have hmem := (mem_iff_findChild hsorted k x).mpr hfind
        obtain ⟨wildcard, path, hx⟩ := hinhabited _ hmem
        obtain ⟨y, hy, -⟩ := (hchild wildcard path).mp ⟨x, hfind, hx⟩
        have hxy : x = y := by
          refine ih _ hmem (hbelow' _ ((mem_iff_findChild hsorted' k y).mpr hy)) ?_
          intro wildcard path
          have hsame := hchild wildcard path
          rw [hfind, hy] at hsame
          simpa using hsame
        rw [hy, hxy]
    rw [ht, hw, hc]

theorem build_canonical (B : Blake3) (scopes : List String) :
    build B scopes = TrieNode.build B scopes ∧ Canonical (TrieNode.build B scopes) := by
  rw [build, TrieNode.build]
  have hstep : ∀ (scopes : List String) (root : TrieNode), Canonical root →
      scopes.foldl (fun root s => insert (parseScope B s) root) root =
          scopes.foldl (fun root s => root.insert (parseScope B s)) root ∧
        Canonical (scopes.foldl (fun root s => root.insert (parseScope B s)) root) := by
    intro scopes
    induction scopes with
    | nil => exact fun root hroot => ⟨rfl, hroot⟩
    | cons s rest ih =>
      intro root hroot
      rw [List.foldl_cons, List.foldl_cons, insert, insertFrom_eq _ _ hroot.ordered]
      exact ih _ (insertPath_canonical _ _ hroot)
  exact hstep scopes .new canonical_new

theorem build_covers (B : Blake3) (scopes : List String) (path : List UInt64) :
    matchesPath (build B scopes) path = true ↔ ∃ s ∈ scopes, (parseScope B s).Covers path := by
  obtain ⟨heq, hcanonical⟩ := build_canonical B scopes
  rw [heq, matchesPath_eq path hcanonical.ordered, matches_iff]
  constructor
  · intro h
    obtain ⟨s, hs, hcovers⟩ := h
    obtain ⟨scope, hscope, rfl⟩ := (build_holds B scopes s).mp hs
    exact ⟨scope, hscope, hcovers⟩
  · intro h
    obtain ⟨scope, hscope, hcovers⟩ := h
    exact ⟨_, (build_holds B scopes _).mpr ⟨scope, hscope, rfl⟩, hcovers⟩

/-- The trie built from a list of scopes accepts what one of them covers, its children are strictly
sorted at every node, and it is the same for every list with these scopes. -/
theorem trie_of_scopes (B : Blake3) (scopes : List String) :
    (∀ path, matchesPath (build B scopes) path = true ↔ ∃ s ∈ scopes, (parseScope B s).Covers path) ∧
    (build B scopes).Ordered ∧
    ∀ scopes', (∀ s, s ∈ scopes' ↔ s ∈ scopes) → build B scopes' = build B scopes := by
  obtain ⟨heq, hcanonical⟩ := build_canonical B scopes
  refine ⟨build_covers B scopes, heq ▸ hcanonical.ordered, ?_⟩
  intro scopes' hsame
  obtain ⟨heq', hcanonical'⟩ := build_canonical B scopes'
  rw [heq, heq']
  refine hcanonical'.eq_of_holds hcanonical ?_
  intro wildcard path
  refine (build_holds B scopes' ⟨path, wildcard⟩).trans (Iff.trans ?_ (build_holds B scopes ⟨path, wildcard⟩).symm)
  simp only [hsame]

theorem parseScope_slashes (B : Blake3) {marker : String} (h : ∀ c ∈ marker.toList, c = '/') :
    parseScope B marker = ⟨[], false⟩ := by
  have hnil : marker.toList.dropWhile (· = '/') = [] :=
    List.dropWhile_eq_nil_iff.mpr (fun c hc => decide_eq_true (h c hc))
  rw [parseScope, trimSlashes, hnil]
  rfl

theorem covers_marker (path : List UInt64) : (⟨[], false⟩ : ParsedScope).Covers path ↔ path = [] := by
  rw [ParsedScope.Covers, if_neg Bool.false_ne_true]
  exact eq_comm

theorem covers_root (s : ParsedScope) : s.Covers [] ↔ s.literalComponents = [] := by
  rw [ParsedScope.Covers]
  cases s.hasWildcardTail with
  | false => rw [if_neg Bool.false_ne_true]
  | true => rw [if_pos rfl, List.prefix_nil]

/-- Adding one leaves every path but the empty one as it was. The empty path is accepted from then on. -/
theorem slashes_change_nothing_iff (B : Blake3) {marker : String} (h : ∀ c ∈ marker.toList, c = '/')
    (before after : List String) (path : List UInt64) :
    matchesPath (build B (before ++ marker :: after)) path = matchesPath (build B (before ++ after)) path ↔
      path ≠ [] ∨ ∃ s ∈ before ++ after, (parseScope B s).literalComponents = [] := by
  have hwith : matchesPath (build B (before ++ marker :: after)) path = true ↔
      path = [] ∨ matchesPath (build B (before ++ after)) path = true := by
    rw [build_covers, build_covers]
    simp only [List.mem_append, List.mem_cons, or_left_comm, exists_eq_or_imp, parseScope_slashes B h, covers_marker]
  rw [Bool.eq_iff_iff, hwith]
  by_cases hpath : path = []
  · subst hpath
    have hroot : matchesPath (build B (before ++ after)) [] = true ↔
        ∃ s ∈ before ++ after, (parseScope B s).literalComponents = [] := by
      rw [build_covers]
      simp only [covers_root]
    rw [← hroot]
    simp
  · simp [hpath]

theorem slash_only : ∀ c ∈ "/".toList, c = '/' := List.forall_mem_singleton.mpr rfl

/-- The scope `/` by itself grants the empty path, the one of an action without path components. -/
theorem slash_grants_root :
    (∀ c ∈ "/".toList, c = '/') ∧
    matchesPath (build (.ofTable [] [] []) []) [] = false ∧
    matchesPath (build (.ofTable [] [] []) ["/"]) [] = true := by
  refine ⟨slash_only, rfl, ?_⟩
  refine (build_covers _ ["/"] []).mpr ⟨"/", List.mem_singleton_self _, ?_⟩
  rw [parseScope_slashes _ slash_only, covers_marker]

theorem slashes_change_nothing_deeper :
    matchesPath (build (.ofTable [] [] []) (["*"] ++ "/" :: [])) [7] =
      matchesPath (build (.ofTable [] [] []) (["*"] ++ [])) [7] :=
  (slashes_change_nothing_iff _ slash_only ["*"] [] [7]).mpr (.inl (by decide))

end AgentPassport.TrieSearch
