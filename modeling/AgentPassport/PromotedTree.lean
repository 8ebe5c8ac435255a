import Mathlib.Data.List.Basic
import Mathlib.Data.List.Induction

/-! Trees built level by level, where at an odd level the last node goes up unchanged. The root of
a list of leaves is the digest of a tree with these leaves on its frontier; if what is hashed can be
told apart by its digest, a root determines the tree, and a path into it ends at a leaf of it. -/
namespace AgentPassport.PromotedTree
variable {A N M : Type*}

section
variable (join : N → N → N)

/-- One level up: neighbours are joined, an odd last node is left as it is. -/
def up : List N → List N
  | a :: b :: rest => join a b :: up rest
  | level => level

/-- `while (level.length > 1) level = up(level)`, at most so many times. -/
def reduce : Nat → List N → List N
  | 0, level => level
  | n + 1, level => if 1 < level.length then reduce n (up join level) else level

theorem up_length (level : List N) : (up join level).length = (level.length + 1) / 2 := by
  fun_induction up join level with
  | case1 a b rest ih =>
    rw [List.length_cons, ih, List.length_cons, List.length_cons]
    omega
  | case2 level hlevel =>
    match level with
    | [] => simp
    | [_] => simp
    | a :: b :: rest => exact absurd rfl (hlevel a b rest)

theorem reduce_single {n : Nat} {level : List N} (hne : level ≠ []) (hn : level.length ≤ n + 1) :
    ∃ r, reduce join n level = [r] := by
  induction n generalizing level with
  | zero =>
    match level with
    | [] => exact absurd rfl hne
    | [a] => exact ⟨a, rfl⟩
    | _ :: _ :: _ => simp at hn
  | succ n ih =>
    match level with
    | [] => exact absurd rfl hne
    | [a] => exact ⟨a, rfl⟩
    | a :: b :: rest =>
      have hlength := up_length join (a :: b :: rest)
      simp only [List.length_cons] at hn hlength
      rw [reduce, if_pos (by simp)]
      apply ih
      · exact List.cons_ne_nil _ _
      · omega

/-- The pairs joined at a level. -/
def pairs : List N → List (N × N)
  | a :: b :: rest => (a, b) :: pairs rest
  | _ => []

/-- The pairs joined on the way up. -/
def formed : Nat → List N → List (N × N)
  | 0, _ => []
  | n + 1, level => pairs level ++ formed n (up join level)

variable {join} {join' : M → M → M} {f : N → M}

theorem up_map (hf : ∀ a b, f (join a b) = join' (f a) (f b)) (level : List N) :
    (up join level).map f = up join' (level.map f) := by
  fun_induction up join level with
  | case1 a b rest ih => rw [List.map_cons, hf, ih, List.map_cons, List.map_cons, up]
  | case2 level hlevel =>
    match level with
    | [] => rfl
    | [_] => rfl
    | a :: b :: rest => exact absurd rfl (hlevel a b rest)

theorem reduce_map (hf : ∀ a b, f (join a b) = join' (f a) (f b)) (n : Nat) (level : List N) :
    (reduce join n level).map f = reduce join' n (level.map f) := by
  induction n generalizing level with
  | zero => rfl
  | succ n ih =>
    rw [reduce, reduce, List.length_map]
    split
    · rw [ih, up_map hf]
    · rfl

end

inductive Side where
  | left | right
  deriving DecidableEq

section
variable (join : N → N → N)

def sibling (level : List N) (i : Nat) : Option (Side × N) :=
  if i % 2 = 1 then (level[i - 1]?).map (Prod.mk .left) else (level[i + 1]?).map (Prod.mk .right)

def siblings : Nat → List N → Nat → List (Option (Side × N))
  | 0, _, _ => []
  | n + 1, level, i =>
    if 1 < level.length then sibling level i :: siblings n (up join level) (i / 2) else []

def combine (x : N) : Side × N → N
  | (.left, s) => join s x
  | (.right, s) => join x s

/-- The node reached from `x` by joining it with the siblings in turn. -/
def walk (x : N) (steps : List (Side × N)) : N := steps.foldl (combine join) x

variable {level : List N}

theorem up_getElem {i : Nat} {x : N} (h : level[i]? = some x) :
    (up join level)[i / 2]? = some (((sibling level i).map (combine join x)).getD x) := by
  fun_induction up join level generalizing i with
  | case1 a b rest ih =>
    match i with
    | 0 =>
      cases h
      rfl
    | 1 =>
      cases h
      rfl
    | i + 2 =>
      have hhalf : (i + 2) / 2 = i / 2 + 1 := by omega
      have hsibling : sibling (a :: b :: rest) (i + 2) = sibling rest i := by
        have hmod : (i + 2) % 2 = i % 2 := by omega
        rw [sibling, sibling, hmod]
        split
        · obtain ⟨j, rfl⟩ : ∃ j, i = j + 1 := ⟨i - 1, by omega⟩
          rfl
        · rfl
      rw [hhalf, hsibling, List.getElem?_cons_succ]
      exact ih h
  | case2 level hlevel =>
    match level, i with
    | [], _ => cases h
    | [a], 0 => exact h
    | [a], _ + 1 => cases h
    | a :: b :: rest, _ => exact absurd rfl (hlevel a b rest)

theorem walk_siblings {n i : Nat} {x r : N} (h : level[i]? = some x) (hr : reduce join n level = [r]) :
    walk join x ((siblings join n level i).filterMap id) = r := by
  induction n generalizing level i x with
  | zero =>
    rw [reduce] at hr
    subst hr
    match i with
    | 0 =>
      cases h
      rfl
    | _ + 1 => cases h
  | succ n ih =>
    rw [reduce] at hr
    rw [siblings]
    split at hr
    · rename_i hlength
      have hup := ih (up_getElem join h) hr
      rw [if_pos hlength]
      cases hsibling : sibling level i with
      | none =>
        rw [hsibling] at hup
        exact hup
      | some s =>
        rw [hsibling] at hup
        exact hup
    · rename_i hlength
      subst hr
      rw [if_neg hlength]
      match i with
      | 0 =>
        cases h
        rfl
      | _ + 1 => cases h

theorem up_getElem_cases {k : Nat} {x : N} (h : (up join level)[k]? = some x) :
    (level[2 * k]? = some x ∧ level[2 * k + 1]? = none) ∨
      ∃ a b, (a, b) ∈ pairs level ∧ x = join a b ∧ level[2 * k]? = some a ∧ level[2 * k + 1]? = some b := by
  fun_induction up join level generalizing k with
  | case1 a b rest ih =>
    match k with
    | 0 =>
      cases h
      exact .inr ⟨a, b, List.mem_cons_self, rfl, rfl, rfl⟩
    | k + 1 =>
      obtain hlast | ⟨c, d, hpair, hx, hc, hd⟩ := ih h
      · exact .inl hlast
      · exact .inr ⟨c, d, List.mem_cons_of_mem _ hpair, hx, hc, hd⟩
  | case2 level hlevel =>
    match level, k with
    | [], _ => cases h
    | [_], 0 => exact .inl ⟨h, rfl⟩
    | [_], _ + 1 => cases h
    | a :: b :: rest, _ => exact absurd rfl (hlevel a b rest)

theorem sibling_left (k : Nat) : sibling level (2 * k) = (level[2 * k + 1]?).map (Prod.mk .right) := by
  rw [sibling, if_neg (by omega)]

theorem sibling_right (k : Nat) : sibling level (2 * k + 1) = (level[2 * k]?).map (Prod.mk .left) := by
  rw [sibling, if_pos (by omega), Nat.add_sub_cancel]

/-- The pairs joined along a path. -/
def walked (x : N) : List (Side × N) → List (N × N)
  | [] => []
  | (.left, s) :: steps => (s, x) :: walked (join s x) steps
  | (.right, s) :: steps => (x, s) :: walked (join x s) steps

end

inductive HashTree (A : Type*) where
  | leaf (a : A)
  | node (l r : HashTree A)

def HashTree.frontier : HashTree A → List A
  | .leaf a => [a]
  | .node l r => l.frontier ++ r.frontier

section
variable (leafNode : A → N) (join : N → N → N)

def HashTree.digest : HashTree A → N
  | .leaf a => leafNode a
  | .node l r => join l.digest r.digest

def HashTree.inputs : HashTree A → List (A ⊕ N × N)
  | .leaf a => [.inl a]
  | .node l r => .inr (l.digest leafNode join, r.digest leafNode join) :: (l.inputs ++ r.inputs)

def value : A ⊕ N × N → N
  | .inl a => leafNode a
  | .inr p => join p.1 p.2

theorem HashTree.exists_input (t : HashTree A) : ∃ x ∈ t.inputs leafNode join, t.digest leafNode join = value leafNode join x := by
  cases t with
  | leaf a => exact ⟨_, List.mem_cons_self, rfl⟩
  | node l r => exact ⟨_, List.mem_cons_self, rfl⟩

/-- Inputs are told apart by their digests. -/
def Separates (S : A ⊕ N × N → Prop) : Prop :=
  ∀ x y, S x → S y → value leafNode join x = value leafNode join y → x = y

theorem frontier_up (ts : List (HashTree A)) :
    (up HashTree.node ts).flatMap HashTree.frontier = ts.flatMap HashTree.frontier := by
  fun_induction up HashTree.node ts with
  | case1 a b rest ih =>
    rw [List.flatMap_cons, ih, List.flatMap_cons, List.flatMap_cons, HashTree.frontier, List.append_assoc]
  | case2 => rfl

theorem frontier_reduce (n : Nat) (ts : List (HashTree A)) :
    (reduce HashTree.node n ts).flatMap HashTree.frontier = ts.flatMap HashTree.frontier := by
  induction n generalizing ts with
  | zero => rfl
  | succ n ih =>
    rw [reduce]
    split
    · rw [ih, frontier_up]
    · rfl

theorem inputs_up {S : A ⊕ N × N → Prop} {ts : List (HashTree A)}
    (hts : ∀ t ∈ ts, ∀ x ∈ t.inputs leafNode join, S x)
    (hpairs : ∀ p ∈ pairs (ts.map (HashTree.digest leafNode join)), S (.inr p)) :
    ∀ t ∈ up HashTree.node ts, ∀ x ∈ t.inputs leafNode join, S x := by
  fun_induction up HashTree.node ts with
  | case1 a b rest ih =>
    intro t ht x hx
    cases ht with
    | head =>
      rw [HashTree.inputs, List.mem_cons, List.mem_append] at hx
      obtain rfl | hx | hx := hx
      · exact hpairs _ List.mem_cons_self
      · exact hts a List.mem_cons_self x hx
      · exact hts b (List.mem_cons_of_mem _ List.mem_cons_self) x hx
    | tail _ ht =>
      refine ih ?_ ?_ t ht x hx
      · intro t ht
        exact hts t (List.mem_cons_of_mem _ (List.mem_cons_of_mem _ ht))
      · intro p hp
        exact hpairs p (List.mem_cons_of_mem _ hp)
  | case2 => exact hts

variable {n : Nat}

theorem inputs_reduce {S : A ⊕ N × N → Prop} {ts : List (HashTree A)}
    (hts : ∀ t ∈ ts, ∀ x ∈ t.inputs leafNode join, S x)
    (hformed : ∀ p ∈ formed join n (ts.map (HashTree.digest leafNode join)), S (.inr p)) :
    ∀ t ∈ reduce HashTree.node n ts, ∀ x ∈ t.inputs leafNode join, S x := by
  induction n generalizing ts with
  | zero => exact hts
  | succ n ih =>
    rw [reduce]
    split
    · apply ih
      · apply inputs_up leafNode join hts
        intro p hp
        exact hformed p (List.mem_append_left _ hp)
      · intro p hp
        have hmap : up join (ts.map (HashTree.digest leafNode join)) =
            (up HashTree.node ts).map (HashTree.digest leafNode join) := (up_map (fun _ _ => rfl) ts).symm
        rw [← hmap] at hp
        exact hformed p (List.mem_append_right _ hp)
    · exact hts

/-- A tree with the given leaves and digest, all of whose inputs are among the given ones. -/
structure Commits (S : A ⊕ N × N → Prop) (leaves : List A) (r : N) (t : HashTree A) : Prop where
  frontier_eq : t.frontier = leaves
  digest_eq : t.digest leafNode join = r
  inputs_mem : ∀ x ∈ t.inputs leafNode join, S x

theorem exists_commits {S : A ⊕ N × N → Prop} {n : Nat} {ts : List (HashTree A)} {r : N}
    (hts : ∀ t ∈ ts, ∀ x ∈ t.inputs leafNode join, S x)
    (hformed : ∀ p ∈ formed join n (ts.map (HashTree.digest leafNode join)), S (.inr p))
    (hr : reduce join n (ts.map (HashTree.digest leafNode join)) = [r]) :
    ∃ t, Commits leafNode join S (ts.flatMap HashTree.frontier) r t := by
  have hmap : (reduce HashTree.node n ts).map (HashTree.digest leafNode join) =
      reduce join n (ts.map (HashTree.digest leafNode join)) := reduce_map (fun _ _ => rfl) n ts
  rw [← hmap] at hr
  obtain ⟨t, htree, hdigest⟩ := List.map_eq_singleton_iff.mp hr
  refine ⟨t, ⟨?_, hdigest, ?_⟩⟩
  · rw [← frontier_reduce n ts, htree, List.flatMap_cons, List.flatMap_nil, List.append_nil]
  · intro x hx
    refine inputs_reduce leafNode join hts hformed t ?_ x hx
    rw [htree]
    exact List.mem_singleton_self t

theorem exists_trees {B : Type*} {S : A ⊕ N × N → Prop} {parts : List B} {leavesOf : B → List A} {rootOf : B → N}
    (h : ∀ part ∈ parts, ∃ t, Commits leafNode join S (leavesOf part) (rootOf part) t) :
    ∃ ts : List (HashTree A), ts.map (HashTree.digest leafNode join) = parts.map rootOf ∧
      ts.flatMap HashTree.frontier = parts.flatMap leavesOf ∧ ∀ t ∈ ts, ∀ x ∈ t.inputs leafNode join, S x := by
  induction parts with
  | nil => exact ⟨[], rfl, rfl, fun t ht => absurd ht List.not_mem_nil⟩
  | cons part rest ih =>
    obtain ⟨⟨t, ht⟩, hrest⟩ := List.forall_mem_cons.mp h
    obtain ⟨ts, hdigests, hfrontiers, hinputs⟩ := ih hrest
    refine ⟨t :: ts, ?_, ?_, List.forall_mem_cons.mpr ⟨ht.inputs_mem, hinputs⟩⟩
    · rw [List.map_cons, List.map_cons, ht.digest_eq, hdigests]
    · rw [List.flatMap_cons, List.flatMap_cons, ht.frontier_eq, hfrontiers]

theorem exists_commits_leaves {S : A ⊕ N × N → Prop} {n : Nat} {leaves : List A} {r : N}
    (hleaves : ∀ a ∈ leaves, S (.inl a)) (hformed : ∀ p ∈ formed join n (leaves.map leafNode), S (.inr p))
    (hr : reduce join n (leaves.map leafNode) = [r]) : ∃ t, Commits leafNode join S leaves r t := by
  have hdigests : (leaves.map HashTree.leaf).map (HashTree.digest leafNode join) = leaves.map leafNode := by
    rw [List.map_map]
    rfl
  have hfrontier : (leaves.map HashTree.leaf).flatMap HashTree.frontier = leaves := by
    rw [List.flatMap_map]
    exact List.flatMap_singleton' leaves
  have h := @exists_commits A N leafNode join S n (leaves.map HashTree.leaf) r
  rw [hdigests, hfrontier] at h
  refine h ?_ hformed hr
  intro t ht x hx
  obtain ⟨a, ha, rfl⟩ := List.mem_map.mp ht
  rw [List.mem_singleton.mp hx]
  exact hleaves a ha

variable {leafNode join} {S : A ⊕ N × N → Prop}

theorem Separates.digest_inj (hS : Separates leafNode join S) {t t' : HashTree A}
    (ht : ∀ x ∈ t.inputs leafNode join, S x) (ht' : ∀ x ∈ t'.inputs leafNode join, S x)
    (h : t.digest leafNode join = t'.digest leafNode join) : t = t' := by
  induction t generalizing t' with
  | leaf a =>
    cases t' with
    | leaf b => cases hS (.inl a) (.inl b) (ht _ List.mem_cons_self) (ht' _ List.mem_cons_self) h; rfl
    | node l' r' =>
      cases hS (.inl a) (.inr (l'.digest leafNode join, r'.digest leafNode join)) (ht _ List.mem_cons_self)
        (ht' _ List.mem_cons_self) h
  | node l r ihl ihr =>
    cases t' with
    | leaf b =>
      cases hS (.inr (l.digest leafNode join, r.digest leafNode join)) (.inl b) (ht _ List.mem_cons_self)
        (ht' _ List.mem_cons_self) h
    | node l' r' =>
      have hpair := hS (.inr (l.digest leafNode join, r.digest leafNode join))
        (.inr (l'.digest leafNode join, r'.digest leafNode join)) (ht _ List.mem_cons_self)
        (ht' _ List.mem_cons_self) h
      obtain ⟨hl, hr⟩ := Prod.mk.inj (Sum.inr.inj hpair)
      rw [ihl (fun x hx => ht x (List.mem_cons_of_mem _ (List.mem_append_left _ hx)))
          (fun x hx => ht' x (List.mem_cons_of_mem _ (List.mem_append_left _ hx))) hl,
        ihr (fun x hx => ht x (List.mem_cons_of_mem _ (List.mem_append_right _ hx)))
          (fun x hx => ht' x (List.mem_cons_of_mem _ (List.mem_append_right _ hx))) hr]

theorem Separates.leaves_inj (hS : Separates leafNode join S) {leaves leaves' : List A} {r : N} {t t' : HashTree A}
    (h : Commits leafNode join S leaves r t) (h' : Commits leafNode join S leaves' r t') : leaves = leaves' := by
  have htree := hS.digest_inj h.inputs_mem h'.inputs_mem (h.digest_eq.trans h'.digest_eq.symm)
  rw [← h.frontier_eq, ← h'.frontier_eq, htree]

theorem walk_concat (x : N) (steps : List (Side × N)) (s : Side × N) :
    walk join x (steps ++ [s]) = combine join (walk join x steps) s := by
  rw [walk, walk, List.foldl_append]
  rfl

def joined (x : N) : Side × N → N × N
  | (.left, s) => (s, x)
  | (.right, s) => (x, s)

theorem walked_concat (x : N) (steps : List (Side × N)) (s : Side × N) :
    walked join x (steps ++ [s]) = walked join x steps ++ [joined (walk join x steps) s] := by
  fun_induction walked join x steps with
  | case1 x =>
    obtain ⟨side, s⟩ := s
    cases side <;> rfl
  | case2 x s' steps ih =>
    rw [List.cons_append, walked, ih]
    rfl
  | case3 x s' steps ih =>
    rw [List.cons_append, walked, ih]
    rfl

theorem walked_mem (x : N) (low : List (Side × N)) (s : Side × N) (rest : List (Side × N)) :
    joined (walk join x low) s ∈ walked join x (low ++ ([s] ++ rest)) := by
  induction low generalizing x with
  | nil =>
    obtain ⟨side, s⟩ := s
    cases side with
    | left => exact List.mem_cons_self
    | right => exact List.mem_cons_self
  | cons first low ih =>
    obtain ⟨side, t⟩ := first
    cases side with
    | left => exact List.mem_cons_of_mem _ (ih (join t x))
    | right => exact List.mem_cons_of_mem _ (ih (join x t))

theorem combine_eq (x : N) (s : Side × N) :
    combine join x s = value leafNode join (.inr (joined x s)) := by
  obtain ⟨side, s⟩ := s
  cases side <;> rfl

theorem formed_forall {P : N → Prop} (hjoin : ∀ a b, P (join a b)) {level : List N} (hlevel : ∀ x ∈ level, P x) :
    ∀ p ∈ formed join n level, P p.1 ∧ P p.2 := by
  have hup : ∀ {level : List N}, (∀ x ∈ level, P x) →
      (∀ x ∈ up join level, P x) ∧ ∀ p ∈ pairs level, P p.1 ∧ P p.2 := by
    intro level
    fun_induction up join level with
    | case1 a b rest ih =>
      intro h
      obtain ⟨ha, hb, hrest⟩ := (List.forall_mem_cons.trans (and_congr_right' List.forall_mem_cons)).mp h
      obtain ⟨hnodes, hpairs⟩ := ih hrest
      exact ⟨List.forall_mem_cons.mpr ⟨hjoin a b, hnodes⟩, List.forall_mem_cons.mpr ⟨⟨ha, hb⟩, hpairs⟩⟩
    | case2 level hlevel =>
      intro h
      refine ⟨h, ?_⟩
      match level with
      | [] => exact fun p hp => absurd hp List.not_mem_nil
      | [_] => exact fun p hp => absurd hp List.not_mem_nil
      | a :: b :: rest => exact absurd rfl (hlevel a b rest)
  induction n generalizing level with
  | zero => exact fun p hp => absurd hp List.not_mem_nil
  | succ n ih =>
    obtain ⟨hnodes, hpairs⟩ := hup hlevel
    exact List.forall_mem_append.mpr ⟨hpairs, ih hnodes⟩

theorem walked_forall {P : N → Prop} (hjoin : ∀ a b, P (join a b)) {x : N} (hx : P x) (steps : List (Side × N)) :
    ∀ p ∈ walked join x steps, P p.1 ∨ P p.2 := by
  fun_induction walked join x steps with
  | case1 => exact fun p hp => absurd hp List.not_mem_nil
  | case2 x s steps ih => exact List.forall_mem_cons.mpr ⟨.inr hx, ih (hjoin s x)⟩
  | case3 x s steps ih => exact List.forall_mem_cons.mpr ⟨.inl hx, ih (hjoin x s)⟩

variable {steps : List (Side × N)}

variable {a : A}

theorem walk_input {W : A ⊕ N × N → Prop} (ha : W (.inl a)) (hwalked : ∀ p ∈ walked join (leafNode a) steps, W (.inr p)) :
    ∃ x, W x ∧ walk join (leafNode a) steps = value leafNode join x := by
  induction steps using List.reverseRecOn with
  | nil => exact ⟨_, ha, rfl⟩
  | append_singleton steps s _ =>
    rw [walked_concat] at hwalked
    exact ⟨_, hwalked _ (List.mem_append_right _ (List.mem_singleton_self _)), by rw [walk_concat, combine_eq]⟩

/-- Read from the root down, a path follows the branches of the tree: both children of a node are
fixed by its digest, and the path is one of them. What is hashed along the path may be of another
kind than what is hashed in the tree. -/
theorem mem_of_walk {W S : A ⊕ N × N → Prop}
    (hsep : ∀ x y, W x → S y → value leafNode join x = value leafNode join y → x = y) {t : HashTree A}
    (ht : ∀ x ∈ t.inputs leafNode join, S x) (ha : W (.inl a))
    (hwalked : ∀ p ∈ walked join (leafNode a) steps, W (.inr p))
    (h : walk join (leafNode a) steps = t.digest leafNode join) : a ∈ t.frontier := by
  induction steps using List.reverseRecOn generalizing t with
  | nil =>
    cases t with
    | leaf b =>
      cases hsep (.inl a) (.inl b) ha (ht _ List.mem_cons_self) h
      exact List.mem_singleton_self a
    | node l r =>
      cases hsep (.inl a) (.inr (l.digest leafNode join, r.digest leafNode join)) ha (ht _ List.mem_cons_self) h
  | append_singleton steps s ih =>
    rw [walked_concat] at hwalked
    have hlast := hwalked _ (List.mem_append_right _ (List.mem_singleton_self _))
    have hsteps := fun p hp => hwalked p (List.mem_append_left _ hp)
    rw [walk_concat, @combine_eq A N leafNode join] at h
    cases t with
    | leaf b => cases hsep _ (.inl b) hlast (ht _ List.mem_cons_self) h
    | node l r =>
      have hpair := hsep _ (.inr (l.digest leafNode join, r.digest leafNode join)) hlast (ht _ List.mem_cons_self) h
      obtain ⟨side, s⟩ := s
      rw [HashTree.frontier, List.mem_append]
      cases side with
      | left =>
        obtain ⟨-, hr⟩ := Prod.mk.inj (Sum.inr.inj hpair)
        exact .inr (ih (fun x hx => ht x (List.mem_cons_of_mem _ (List.mem_append_right _ hx))) hsteps hr)
      | right =>
        obtain ⟨hl, -⟩ := Prod.mk.inj (Sum.inr.inj hpair)
        exact .inl (ih (fun x hx => ht x (List.mem_cons_of_mem _ (List.mem_append_left _ hx))) hsteps hl)

theorem Separates.mem_of_walk (hS : Separates leafNode join S) {t : HashTree A} (ht : ∀ x ∈ t.inputs leafNode join, S x)
    (ha : S (.inl a)) (hwalked : ∀ p ∈ walked join (leafNode a) steps, S (.inr p))
    (h : walk join (leafNode a) steps = t.digest leafNode join) : a ∈ t.frontier :=
  PromotedTree.mem_of_walk hS ht ha hwalked h

/-- Read from the root down, a path that ends at the root passes through one node of every level, and from there
on its steps are the siblings of that node. -/
theorem Separates.exists_position (hS : Separates leafNode join S) {level : List N} {r : N}
    (hformed : ∀ p ∈ formed join n level, S (.inr p)) (ha : S (.inl a))
    (hwalked : ∀ p ∈ walked join (leafNode a) steps, S (.inr p)) (hr : reduce join n level = [r])
    (h : walk join (leafNode a) steps = r) : ∃ k low, steps = low ++ (siblings join n level k).filterMap id ∧
      level[k]? = some (walk join (leafNode a) low) := by
  induction n generalizing level with
  | zero =>
    rw [reduce] at hr
    exact ⟨0, steps, (List.append_nil _).symm, by rw [hr, h]; rfl⟩
  | succ n ih =>
    rw [reduce] at hr
    by_cases hlength : 1 < level.length
    · rw [if_pos hlength] at hr
      obtain ⟨k, low, hsteps, hnode⟩ := ih (fun p hp => hformed p (List.mem_append_right _ hp)) hr
      have hup : ∀ i, i / 2 = k → siblings join (n + 1) level i = sibling level i :: siblings join n (up join level) k := by
        intro i hi
        rw [siblings, if_pos hlength, hi]
      obtain ⟨hlast, hnone⟩ | ⟨b, c, hpair, hjoin, hb, hc⟩ := up_getElem_cases join hnode
      · -- the node went up unchanged: the level adds no step
        refine ⟨2 * k, low, ?_, hlast⟩
        rw [hup _ (by omega), sibling_left, hnone]
        exact hsteps
      · -- the node is a pair that was formed: the path reached it by joining one half to the other
        have hpairIn : S (.inr (b, c)) := hformed _ (List.mem_append_left _ hpair)
        obtain rfl | ⟨low, s, rfl⟩ := low.eq_nil_or_concat'
        · cases hS (.inl a) (.inr (b, c)) ha hpairIn hjoin
        · have hlow : joined (walk join (leafNode a) low) s ∈ walked join (leafNode a) steps := by
            rw [hsteps, List.append_assoc]
            exact walked_mem _ _ _ _
          rw [walk_concat, @combine_eq A N leafNode join] at hjoin
          have hsame := Sum.inr.inj (hS _ (.inr (b, c)) (hwalked _ hlow) hpairIn hjoin)
          obtain ⟨side, s⟩ := s
          cases side with
          | left =>
            obtain ⟨rfl, rfl⟩ := Prod.mk.inj hsame
            refine ⟨2 * k + 1, low, ?_, hc⟩
            rw [hup _ (by omega), sibling_right, hb, hsteps, List.append_assoc]
            rfl
          | right =>
            obtain ⟨rfl, rfl⟩ := Prod.mk.inj hsame
            refine ⟨2 * k, low, ?_, hb⟩
            rw [hup _ (by omega), sibling_left, hc, hsteps, List.append_assoc]
            rfl
    · rw [if_neg hlength] at hr
      refine ⟨0, steps, ?_, by rw [hr, h]; rfl⟩
      rw [siblings, if_neg hlength]
      exact (List.append_nil _).symm

theorem Separates.exists_leaf_position (hS : Separates leafNode join S) {leaves : List A} {r : N}
    (hleaves : ∀ b ∈ leaves, S (.inl b)) (hformed : ∀ p ∈ formed join n (leaves.map leafNode), S (.inr p))
    (ha : S (.inl a)) (hwalked : ∀ p ∈ walked join (leafNode a) steps, S (.inr p))
    (hr : reduce join n (leaves.map leafNode) = [r]) (h : walk join (leafNode a) steps = r) :
    ∃ k, leaves[k]? = some a ∧ steps = (siblings join n (leaves.map leafNode) k).filterMap id := by
  obtain ⟨k, low, hsteps, hnode⟩ := hS.exists_position hformed ha hwalked hr h
  rw [List.getElem?_map, Option.map_eq_some_iff] at hnode
  obtain ⟨b, hb, hvalue⟩ := hnode
  have hbIn := hleaves b (List.mem_of_getElem? hb)
  obtain rfl | ⟨low, s, rfl⟩ := low.eq_nil_or_concat'
  · cases hS (.inl b) (.inl a) hbIn ha hvalue
    exact ⟨k, hb, hsteps⟩
  · have hlow : joined (walk join (leafNode a) low) s ∈ walked join (leafNode a) steps := by
      rw [hsteps, List.append_assoc]
      exact walked_mem _ _ _ _
    rw [walk_concat, @combine_eq A N leafNode join] at hvalue
    cases hS (.inl b) _ hbIn (hwalked _ hlow) hvalue

end

end AgentPassport.PromotedTree
