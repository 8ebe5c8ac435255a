import Mathlib.Data.Finset.Card
import Mathlib.Data.List.Chain

/-! Depth-first search for directed cycles, over any graph given by its successor lists: the nodes seen, the nodes on
the stack, and the cycles closed so far. -/
namespace AgentPassport.CycleSearch
variable {α : Type} (next : α → List α)

def Edge (a b : α) : Prop := b ∈ next a

def Reaches : α → α → Prop := Relation.TransGen (Edge next)

/-- A walk along edges that ends where it starts. -/
structure IsCycle (walk : List α) : Prop where
  closed : walk.head? = walk.getLast?
  long : 2 ≤ walk.length
  edges : walk.IsChain (Edge next)

structure Search (α : Type) where
  visited : List α
  inStack : List α
  cycles : List (List α)

section
variable [DecidableEq α]

/-- The part of the path from a node on, closed at the node. -/
def cycleFrom (path : List α) (node : α) : List α := path.dropWhile (· ≠ node) ++ [node]

/-- The path is the one from the start to the node that the search comes from; `none` is out of fuel. -/
def dfs : Nat → List α → Search α → α → Option (Search α)
  | 0, _, _, _ => none
  | fuel + 1, path, s, node =>
    if node ∈ s.inStack then
      some (if node ∈ path then { s with cycles := s.cycles ++ [cycleFrom path node] } else s)
    else if node ∈ s.visited then some s
    else do
      let left ← (next node).foldlM (dfs fuel (path ++ [node])) ⟨node :: s.visited, node :: s.inStack, s.cycles⟩
      return { left with inStack := left.inStack.filter (· ≠ node) }

/-- One search after the other, from the starts not yet seen. -/
def searchAll (fuel : Nat) (starts : List α) : Option (List (List α)) := do
  let s ← starts.foldlM (fun s start => if start ∈ s.visited then some s else dfs next fuel [] s start) ⟨[], [], []⟩
  return s.cycles

end

/-- Seen and no longer on the stack. -/
def Finished (s : Search α) (x : α) : Prop := x ∈ s.visited ∧ x ∉ s.inStack

/-- The stack is the path, the cycles are cycles, and as long as there are none the finished nodes lead to finished
nodes only and to no cycle. -/
structure Inv (path : List α) (s : Search α) : Prop where
  stack : ∀ x, x ∈ s.inStack ↔ x ∈ path
  seen : ∀ x ∈ path, x ∈ s.visited
  genuine : ∀ c ∈ s.cycles, IsCycle next c
  closed : s.cycles = [] → ∀ x, Finished s x → ∀ y ∈ next x, Finished s y
  acyclic : s.cycles = [] → ∀ x, Finished s x → ¬ Reaches next x x

/-- What a search from `node` leaves behind. -/
structure Searched (path : List α) (s : Search α) (nodes : List α) (s' : Search α) : Prop where
  inv : Inv next path s'
  visited : ∀ x ∈ s.visited, x ∈ s'.visited
  cycles : s'.cycles = [] → s.cycles = []
  finished : s'.cycles = [] → ∀ x ∈ nodes, Finished s' x

variable {next}

theorem cycleFrom_isCycle [DecidableEq α] {path : List α} {node : α} (hmem : node ∈ path)
    (hchain : (path ++ [node]).IsChain (Edge next)) : IsCycle next (cycleFrom path node) := by
  obtain ⟨before, after, rfl, hbefore⟩ := List.eq_append_cons_of_mem hmem
  have hdrop : (before ++ node :: after).dropWhile (· ≠ node) = node :: after := by
    have hskip : ∀ x ∈ before, decide (x ≠ node) = true := fun x hx => decide_eq_true (fun h => hbefore (h ▸ hx))
    rw [List.dropWhile_append_of_pos hskip, List.dropWhile_cons_of_neg (by simp)]
  rw [cycleFrom, hdrop]
  refine ⟨?_, ?_, hchain.suffix ⟨before, (List.append_assoc before (node :: after) [node]).symm⟩⟩
  · rw [List.getLast?_concat]
    rfl
  · rw [List.length_append, List.length_cons, List.length_singleton]
    omega

theorem IsCycle.reaches {walk : List α} (h : IsCycle next walk) : ∃ x, Reaches next x x := by
  obtain ⟨hclosed, hlong, hedges⟩ := h
  match walk with
  | x :: y :: rest =>
    have hlast : (x :: y :: rest).getLast (List.cons_ne_nil _ _) = x := by
      rw [List.head?_cons, List.getLast?_eq_some_getLast (List.cons_ne_nil _ _)] at hclosed
      exact (Option.some.inj hclosed).symm
    rw [List.isChain_cons_cons] at hedges
    rw [List.getLast_cons (List.cons_ne_nil _ _)] at hlast
    exact ⟨x, .head' hedges.1 (List.relationReflTransGen_of_exists_isChain_cons rest hedges.2 hlast)⟩

theorem finished_of_reaches {path : List α} {s : Search α} (h : Inv next path s) (hnone : s.cycles = []) {x y : α}
    (hx : Finished s x) (hreach : Reaches next x y) : Finished s y := by
  induction hreach with
  | single hedge => exact h.closed hnone x hx _ hedge
  | tail _ hedge ih => exact h.closed hnone _ ih _ hedge

theorem Searched.refl {path : List α} {s : Search α} (h : Inv next path s) : Searched next path s [] s :=
  ⟨h, fun _ hx => hx, id, nofun⟩

theorem Searched.keeps {path nodes : List α} {s s' : Search α} (h : Searched next path s nodes s')
    (hs : Inv next path s) {x : α} (hx : Finished s x) : Finished s' x :=
  ⟨h.visited x hx.1, fun hin => hx.2 ((hs.stack x).mpr ((h.inv.stack x).mp hin))⟩

theorem Searched.trans {path nodes nodes' : List α} {s s' s'' : Search α} (h : Searched next path s nodes s')
    (h' : Searched next path s' nodes' s'') : Searched next path s (nodes ++ nodes') s'' := by
  refine ⟨h'.inv, fun x hx => h'.visited x (h.visited x hx), fun hnone => h.cycles (h'.cycles hnone),
    fun hnone x hx => ?_⟩
  obtain hx | hx := List.mem_append.mp hx
  · exact h'.keeps h.inv (h.finished (h'.cycles hnone) x hx)
  · exact h'.finished hnone x hx

section
variable {path : List α} {s : Search α} {node : α}

theorem Inv.enter (h : Inv next path s) (hseen : node ∉ s.visited) :
    Inv next (path ++ [node]) ⟨node :: s.visited, node :: s.inStack, s.cycles⟩ := by
  have hfinished : ∀ x, Finished ⟨node :: s.visited, node :: s.inStack, s.cycles⟩ x ↔ Finished s x := by
    intro x
    constructor
    · rintro ⟨hvisited, hstack⟩
      have hne : x ≠ node := fun heq => hstack (heq ▸ List.mem_cons_self)
      exact ⟨(List.mem_cons.mp hvisited).resolve_left hne, fun hin => hstack (List.mem_cons_of_mem node hin)⟩
    · rintro ⟨hvisited, hstack⟩
      have hne : x ≠ node := fun heq => hseen (heq ▸ hvisited)
      exact ⟨List.mem_cons_of_mem node hvisited, fun hin => (List.mem_cons.mp hin).elim hne hstack⟩
  constructor
  · intro x
    rw [List.mem_cons, h.stack, List.mem_append, List.mem_singleton, or_comm]
  · intro x hx
    obtain hx | hx := List.mem_append.mp hx
    · exact List.mem_cons_of_mem node (h.seen x hx)
    · exact List.mem_singleton.mp hx ▸ List.mem_cons_self
  · exact h.genuine
  · exact fun hnone x hx y hy => (hfinished y).mpr (h.closed hnone x ((hfinished x).mp hx) y hy)
  · exact fun hnone x hx => h.acyclic hnone x ((hfinished x).mp hx)

theorem not_reaches_of_next {left : Search α} (h : Inv next (path ++ [node]) left) (hnone : left.cycles = [])
    (hnext : ∀ y ∈ next node, Finished left y) : ¬ Reaches next node node := by
  intro hreach
  have hstack : node ∈ left.inStack := (h.stack node).mpr (List.mem_append_right path List.mem_cons_self)
  obtain ⟨y, hedge, hback⟩ := Relation.TransGen.head'_iff.mp hreach
  obtain rfl | hback := Relation.reflTransGen_iff_eq_or_transGen.mp hback
  · exact (hnext node hedge).2 hstack
  · exact (finished_of_reaches h hnone (hnext y hedge) hback).2 hstack

theorem Searched.leave [DecidableEq α] {left : Search α} (hnew : node ∉ path)
    (h : Searched next (path ++ [node]) ⟨node :: s.visited, node :: s.inStack, s.cycles⟩ (next node) left) :
    Searched next path s [node] { left with inStack := left.inStack.filter (· ≠ node) } := by
  have hvisited : node ∈ left.visited := h.visited node List.mem_cons_self
  have hfinished : ∀ x, Finished { left with inStack := left.inStack.filter (· ≠ node) } x ↔
      Finished left x ∨ x = node := by
    intro x
    rw [Finished, List.mem_filter, decide_eq_true_iff, not_and, ne_eq, not_not]
    constructor
    · rintro ⟨hx, hstack⟩
      by_cases hin : x ∈ left.inStack
      · exact .inr (hstack hin)
      · exact .inl ⟨hx, hin⟩
    · rintro (⟨hx, hin⟩ | rfl)
      · exact ⟨hx, fun h => absurd h hin⟩
      · exact ⟨hvisited, fun _ => rfl⟩
  refine ⟨⟨fun x => ?_, fun x hx => ?_, h.inv.genuine, fun hnone x hx y hy => ?_, fun hnone x hx => ?_⟩,
    fun x hx => h.visited x (List.mem_cons_of_mem node hx), h.cycles, fun _ x hx => ?_⟩
  · rw [List.mem_filter, h.inv.stack, decide_eq_true_iff, List.mem_append, List.mem_singleton, or_and_right,
      and_not_self_iff, or_false, and_iff_left_iff_imp]
    exact fun hx heq => hnew (heq ▸ hx)
  · exact h.inv.seen x (List.mem_append_left [node] hx)
  · obtain hx | rfl := (hfinished x).mp hx
    · exact (hfinished y).mpr (.inl (h.inv.closed hnone x hx y hy))
    · exact (hfinished y).mpr (.inl (h.finished hnone y hy))
  · obtain hx | rfl := (hfinished x).mp hx
    · exact h.inv.acyclic hnone x hx
    · exact not_reaches_of_next h.inv hnone (h.finished hnone)
  · exact (hfinished x).mpr (.inr (List.mem_singleton.mp hx))

theorem Searched.close [DecidableEq α] (h : Inv next path s) (hin : node ∈ s.inStack)
    (hchain : (path ++ [node]).IsChain (Edge next)) :
    Searched next path s [node] (if node ∈ path then { s with cycles := s.cycles ++ [cycleFrom path node] } else s) := by
  have hpath : node ∈ path := (h.stack node).mp hin
  have hsome : s.cycles ++ [cycleFrom path node] ≠ [] := List.append_ne_nil_of_right_ne_nil _ (List.cons_ne_nil _ _)
  rw [if_pos hpath]
  refine ⟨⟨h.stack, h.seen, fun c hc => ?_, fun hnone => absurd hnone hsome, fun hnone => absurd hnone hsome⟩,
    fun x hx => hx, fun hnone => absurd hnone hsome, fun hnone => absurd hnone hsome⟩
  obtain hc | hc := List.mem_append.mp hc
  · exact h.genuine c hc
  · exact List.mem_singleton.mp hc ▸ cycleFrom_isCycle hpath hchain

theorem foldlM_searched {f : Search α → α → Option (Search α)} {nodes : List α} {s' : Search α} (h : Inv next path s)
    (hf : ∀ s s' node, node ∈ nodes → Inv next path s → f s node = some s' → Searched next path s [node] s')
    (hfold : nodes.foldlM f s = some s') : Searched next path s nodes s' := by
  induction nodes generalizing s with
  | nil =>
    cases Option.some.inj hfold
    exact .refl h
  | cons node rest ih =>
    rw [List.foldlM_cons, Option.bind_eq_bind, Option.bind_eq_some_iff] at hfold
    obtain ⟨mid, hmid, hrest⟩ := hfold
    have hfirst := hf s mid node List.mem_cons_self h hmid
    exact hfirst.trans (ih hfirst.inv (fun s s' x hx => hf s s' x (List.mem_cons_of_mem node hx)) hrest)

theorem dfs_searched [DecidableEq α] {fuel : Nat} {s' : Search α} (h : Inv next path s)
    (hchain : (path ++ [node]).IsChain (Edge next)) (hdfs : dfs next fuel path s node = some s') :
    Searched next path s [node] s' := by
  induction fuel generalizing path s node s' with
  | zero => cases hdfs
  | succ fuel ih =>
    rw [dfs] at hdfs
    by_cases hin : node ∈ s.inStack
    · rw [if_pos hin] at hdfs
      cases Option.some.inj hdfs
      exact .close h hin hchain
    · have hpath : node ∉ path := fun hmem => hin ((h.stack node).mpr hmem)
      rw [if_neg hin] at hdfs
      by_cases hseen : node ∈ s.visited
      · rw [if_pos hseen] at hdfs
        cases Option.some.inj hdfs
        exact ⟨h, fun _ hx => hx, id, fun _ x hx => List.mem_singleton.mp hx ▸ ⟨hseen, hin⟩⟩
      · rw [if_neg hseen, Option.bind_eq_bind, Option.bind_eq_some_iff] at hdfs
        obtain ⟨left, hleft, hs'⟩ := hdfs
        cases Option.some.inj hs'
        refine (foldlM_searched (h.enter hseen) (fun t t' dep hdep ht hstep => ih ht ?_ hstep) hleft).leave hpath
        refine List.isChain_append.mpr ⟨hchain, List.isChain_singleton dep, fun x hx y hy => ?_⟩
        rw [List.getLast?_concat, Option.mem_some_iff] at hx
        rw [List.head?_cons, Option.mem_some_iff] at hy
        exact hx ▸ hy ▸ hdep

end

section
variable [DecidableEq α]

def unseen (nodes : List α) (s : Search α) : Nat := (nodes.toFinset \ s.visited.toFinset).card

theorem unseen_le {nodes : List α} {s s' : Search α} (h : ∀ x ∈ s.visited, x ∈ s'.visited) :
    unseen nodes s' ≤ unseen nodes s := by
  refine Finset.card_le_card (Finset.sdiff_subset_sdiff (le_refl _) (fun x hx => ?_))
  exact List.mem_toFinset.mpr (h x (List.mem_toFinset.mp hx))

theorem unseen_enter {nodes : List α} {s : Search α} {node : α} (hnode : node ∈ nodes) (hseen : node ∉ s.visited)
    (inStack : List α) : unseen nodes ⟨node :: s.visited, inStack, s.cycles⟩ < unseen nodes s := by
  refine Finset.card_lt_card (Finset.ssubset_iff_subset_ne.mpr ⟨?_, fun heq => ?_⟩)
  · refine Finset.sdiff_subset_sdiff (le_refl _) (fun x hx => ?_)
    exact List.mem_toFinset.mpr (List.mem_cons_of_mem node (List.mem_toFinset.mp hx))
  · have hmem : node ∈ nodes.toFinset \ s.visited.toFinset :=
      Finset.mem_sdiff.mpr ⟨List.mem_toFinset.mpr hnode, fun hx => hseen (List.mem_toFinset.mp hx)⟩
    rw [← heq] at hmem
    exact (Finset.mem_sdiff.mp hmem).2 (List.mem_toFinset.mpr List.mem_cons_self)

/-- With this much fuel or more a step returns one and the same state, and forgets no node it has seen. -/
def Returns (fuel : Nat) (step : Nat → Option (Search α)) (s : Search α) : Prop :=
  ∃ s', (∀ fuel', fuel ≤ fuel' → step fuel' = some s') ∧ ∀ x ∈ s.visited, x ∈ s'.visited

theorem foldlM_returns {f : Nat → Search α → α → Option (Search α)} {nodes starts : List α} {fuel : Nat}
    (hf : ∀ s, ∀ node ∈ starts, unseen nodes s < fuel → Returns fuel (f · s node) s) {s : Search α}
    (hfuel : unseen nodes s < fuel) : Returns fuel (fun fuel' => starts.foldlM (f fuel') s) s := by
  induction starts generalizing s with
  | nil => exact ⟨s, fun _ _ => rfl, fun _ hx => hx⟩
  | cons node rest ih =>
    obtain ⟨mid, hmid, hseen⟩ := hf s node List.mem_cons_self hfuel
    obtain ⟨s', hs', hseen'⟩ := ih (fun s x hx => hf s x (List.mem_cons_of_mem node hx))
      (lt_of_le_of_lt (unseen_le hseen) hfuel)
    refine ⟨s', fun fuel' hle => ?_, fun x hx => hseen' x (hseen x hx)⟩
    exact (congrArg (Option.bind · (fun t => rest.foldlM (f fuel') t)) (hmid fuel' hle)).trans (hs' fuel' hle)

theorem dfs_returns {nodes : List α} (hnodes : ∀ x ∈ nodes, ∀ y ∈ next x, y ∈ nodes) {fuel : Nat} {path : List α}
    {s : Search α} {node : α} (hnode : node ∈ nodes) (hfuel : unseen nodes s < fuel) :
    Returns fuel (fun fuel' => dfs next fuel' path s node) s := by
  induction fuel generalizing path s node with
  | zero => exact absurd hfuel (Nat.not_lt_zero _)
  | succ fuel ih =>
    have hsucc : ∀ s' : Search α, (∀ fuel', fuel ≤ fuel' → dfs next (fuel' + 1) path s node = some s') →
        (∀ x ∈ s.visited, x ∈ s'.visited) → Returns (fuel + 1) (fun fuel' => dfs next fuel' path s node) s := by
      refine fun s' hdfs hseen => ⟨s', fun fuel' hle => ?_, hseen⟩
      obtain ⟨m, rfl⟩ := Nat.exists_eq_add_of_le' (Nat.one_le_of_lt hle)
      exact hdfs m (Nat.le_of_succ_le_succ hle)
    by_cases hin : node ∈ s.inStack
    · refine hsucc (if node ∈ path then { s with cycles := s.cycles ++ [cycleFrom path node] } else s)
        (fun fuel' _ => ?_) (fun x hx => ?_)
      · rw [dfs, if_pos hin]
      · split
        · exact hx
        · exact hx
    by_cases hseen : node ∈ s.visited
    · refine hsucc s (fun fuel' _ => ?_) (fun x hx => hx)
      rw [dfs, if_neg hin, if_pos hseen]
    have hless : unseen nodes ⟨node :: s.visited, node :: s.inStack, s.cycles⟩ < fuel :=
      lt_of_lt_of_le (unseen_enter hnode hseen _) (Nat.lt_succ_iff.mp hfuel)
    obtain ⟨left, hleft, hvisited⟩ := foldlM_returns (f := fun fuel' => dfs next fuel' (path ++ [node]))
      (fun t dep (hdep : dep ∈ next node) ht => ih (hnodes node hnode dep hdep) ht) hless
    refine hsucc { left with inStack := left.inStack.filter (· ≠ node) } (fun fuel' hle => ?_)
      (fun x hx => hvisited x (List.mem_cons_of_mem node hx))
    rw [dfs, if_neg hin, if_neg hseen, Option.bind_eq_bind]
    exact Option.bind_eq_some_iff.mpr ⟨left, hleft fuel' hle, rfl⟩

end

/-- When the starts are all the nodes with successors, the search returns, finds a cycle exactly when there is one, and
finds cycles only. -/
theorem searchAll_spec [DecidableEq α] {nodes starts : List α} (hnodes : ∀ x ∈ nodes, ∀ y ∈ next x, y ∈ nodes)
    (hstarts : ∀ x ∈ starts, x ∈ nodes) (hall : ∀ x y, y ∈ next x → x ∈ starts) :
    ∃ cycles, (∀ fuel, nodes.length < fuel → searchAll next fuel starts = some cycles) ∧
      (cycles ≠ [] ↔ ∃ x, Reaches next x x) ∧ ∀ c ∈ cycles, IsCycle next c := by
  have hempty : Inv next [] (⟨[], [], []⟩ : Search α) :=
    ⟨fun x => Iff.rfl, nofun, nofun, fun _ x hx => (List.not_mem_nil hx.1).elim,
      fun _ x hx => (List.not_mem_nil hx.1).elim⟩
  have hfuel : unseen nodes (⟨[], [], []⟩ : Search α) < nodes.length + 1 := by
    rw [unseen, List.toFinset_nil, Finset.sdiff_empty]
    exact Nat.lt_succ_of_le (List.toFinset_card_le nodes)
  have hstep : ∀ s : Search α, ∀ start ∈ starts, unseen nodes s < nodes.length + 1 → Returns (nodes.length + 1)
      (fun fuel => if start ∈ s.visited then some s else dfs next fuel [] s start) s := by
    intro s start hstart hless
    by_cases hseen : start ∈ s.visited
    · exact ⟨s, fun _ _ => if_pos hseen, fun _ hx => hx⟩
    · obtain ⟨s', hs', hvisited⟩ : Returns (nodes.length + 1) (fun fuel => dfs next fuel [] s start) s :=
        dfs_returns hnodes (hstarts start hstart) hless
      exact ⟨s', fun fuel hle => (if_neg hseen).trans (hs' fuel hle), hvisited⟩
  obtain ⟨last, hlast, _⟩ := foldlM_returns
    (f := fun fuel s start => if start ∈ s.visited then some s else dfs next fuel [] s start) hstep hfuel
  have hsearched : Searched next [] ⟨[], [], []⟩ starts last := by
    refine foldlM_searched hempty (fun s s' start _ hs hstep => ?_) (hlast _ (le_refl _))
    by_cases hseen : start ∈ s.visited
    · cases Option.some.inj ((if_pos hseen).symm.trans hstep)
      have hout : start ∉ s.inStack := fun hin => List.not_mem_nil ((hs.stack start).mp hin)
      exact ⟨hs, fun _ hx => hx, id, fun _ x hx => List.mem_singleton.mp hx ▸ ⟨hseen, hout⟩⟩
    · exact dfs_searched hs (List.isChain_singleton start) ((if_neg hseen).symm.trans hstep)
  refine ⟨last.cycles, fun fuel hless => ?_, ⟨fun hsome => ?_, ?_⟩, hsearched.inv.genuine⟩
  · exact Option.bind_eq_some_iff.mpr ⟨last, hlast fuel hless, rfl⟩
  · obtain ⟨c, hc⟩ := List.exists_mem_of_ne_nil _ hsome
    exact (hsearched.inv.genuine c hc).reaches
  · rintro ⟨x, hreach⟩ hnone
    obtain ⟨y, hedge, _⟩ := Relation.TransGen.head'_iff.mp hreach
    exact hsearched.inv.acyclic hnone x (hsearched.finished hnone x (hall x y hedge)) hreach

end AgentPassport.CycleSearch
