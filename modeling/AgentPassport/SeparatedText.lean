import Mathlib.Data.List.Forall2

/-! Lists written with a separator between the parts and a closing mark after the last, over
any alphabet, and when such a text can be read back in one way only. -/
namespace AgentPassport.SeparatedText
variable {α β : Type*}

/-- `parts.join(sep)` for a separator of one symbol. -/
def join (sep : β) : List (List β) → List β
  | [] => []
  | [x] => x
  | x :: y :: rest => x ++ sep :: join sep (y :: rest)

def tail (sep : β) (parts : List (List β)) : List β := parts.flatMap (sep :: ·)

theorem tail_cons (sep : β) (x : List β) (xs : List (List β)) :
    tail sep (x :: xs) = sep :: (x ++ tail sep xs) := by
  simp [tail]

theorem join_cons (sep : β) (x : List β) (xs : List (List β)) :
    join sep (x :: xs) = x ++ tail sep xs := by
  induction xs generalizing x with
  | nil => simp [join, tail]
  | cons y ys ih =>
    rw [join, ih y, tail_cons]

theorem join_concat (sep : β) (xs : List (List β)) (x : List β) :
    join sep (xs ++ [x]) = xs.flatMap (· ++ [sep]) ++ x := by
  induction xs with
  | nil => rfl
  | cons y ys ih =>
    rw [List.flatMap_cons, List.append_assoc, ← ih, List.append_assoc]
    cases ys with
    | nil => rfl
    | cons z zs => rfl

/-- A text that is empty or goes on with a symbol that stops the one before it. -/
def Ends (Stop : β → Prop) (t : List β) : Prop := ∀ c rest, t = c :: rest → Stop c

theorem ends_nil (Stop : β → Prop) : Ends Stop [] := by
  intro c rest h
  cases h

theorem ends_cons {Stop : β → Prop} {c : β} (h : Stop c) (t : List β) : Ends Stop (c :: t) := by
  intro d rest hd
  cases hd
  exact h

/-- `x` can be read off the front of a text: no other rendering of a value in `Q` begins
the same way, unless the two values are related. -/
def Readable (f : α → List β) (R : α → α → Prop) (Q : α → Prop) (Stop : β → Prop) (x : α) : Prop :=
  ∀ y, Q y → ∀ t u, Ends Stop t → Ends Stop u → f x ++ t = f y ++ u → R x y ∧ t = u

section
variable {f : α → List β} {R : α → α → Prop} {Q : α → Prop} {Stop : β → Prop} {sep close : β}

theorem ends_tail (hsep : Stop sep) (hclose : Stop close) (xs : List α) (t : List β) :
    Ends Stop (tail sep (xs.map f) ++ close :: t) := by
  cases xs with
  | nil => exact ends_cons hclose t
  | cons x xs => exact ends_cons hsep _

theorem tail_unique (hsep : Stop sep) (hclose : Stop close) (hne : sep ≠ close) {xs ys : List α}
    (hx : ∀ x ∈ xs, Readable f R Q Stop x) (hy : ∀ y ∈ ys, Q y) {t u : List β}
    (h : tail sep (xs.map f) ++ close :: t = tail sep (ys.map f) ++ close :: u) :
    List.Forall₂ R xs ys ∧ t = u := by
  induction xs generalizing ys with
  | nil =>
    cases ys with
    | nil => exact ⟨.nil, (List.cons.inj h).2⟩
    | cons y ys => exact absurd (List.cons.inj h).1.symm hne
  | cons x xs ih =>
    cases ys with
    | nil => exact absurd (List.cons.inj h).1 hne
    | cons y ys =>
      rw [List.map_cons, List.map_cons, tail_cons, tail_cons, List.cons_append, List.cons_append,
        List.cons.injEq, List.append_assoc, List.append_assoc] at h
      obtain ⟨-, h⟩ := h
      obtain ⟨hxy, hrest⟩ := hx x List.mem_cons_self y (hy y List.mem_cons_self) _ _
        (ends_tail hsep hclose xs t) (ends_tail hsep hclose ys u) h
      obtain ⟨hall, htu⟩ := ih (fun z hz => hx z (List.mem_cons_of_mem x hz))
        (fun z hz => hy z (List.mem_cons_of_mem y hz)) hrest
      exact ⟨.cons hxy hall, htu⟩

theorem join_unique (hsep : Stop sep) (hclose : Stop close) (hne : sep ≠ close)
    (hhead : ∀ x, Q x → ∀ t u, f x ++ t ≠ close :: u) {xs ys : List α}
    (hx : ∀ x ∈ xs, Readable f R Q Stop x) (hqx : ∀ x ∈ xs, Q x) (hqy : ∀ y ∈ ys, Q y)
    {t u : List β}
    (h : join sep (xs.map f) ++ close :: t = join sep (ys.map f) ++ close :: u) :
    List.Forall₂ R xs ys ∧ t = u := by
  cases xs with
  | nil =>
    cases ys with
    | nil => exact ⟨.nil, (List.cons.inj h).2⟩
    | cons y ys =>
      rw [List.map_cons, join_cons, List.append_assoc] at h
      exact absurd h.symm (hhead y (hqy y List.mem_cons_self) _ _)
  | cons x xs =>
    cases ys with
    | nil =>
      rw [List.map_cons, join_cons, List.append_assoc] at h
      exact absurd h (hhead x (hqx x List.mem_cons_self) _ _)
    | cons y ys =>
      rw [List.map_cons, List.map_cons, join_cons, join_cons, List.append_assoc,
        List.append_assoc] at h
      obtain ⟨hxy, hrest⟩ := hx x List.mem_cons_self y (hqy y List.mem_cons_self) _ _
        (ends_tail hsep hclose xs t) (ends_tail hsep hclose ys u) h
      obtain ⟨hall, htu⟩ := tail_unique hsep hclose hne
        (fun z hz => hx z (List.mem_cons_of_mem x hz))
        (fun z hz => hqy z (List.mem_cons_of_mem y hz)) hrest
      exact ⟨.cons hxy hall, htu⟩

end

theorem token_unique {Tok : β → Prop} {x y t u : List β} (hx : ∀ c ∈ x, Tok c)
    (hy : ∀ c ∈ y, Tok c) (ht : Ends (fun c => ¬ Tok c) t) (hu : Ends (fun c => ¬ Tok c) u)
    (h : x ++ t = y ++ u) : x = y ∧ t = u := by
  induction x generalizing y with
  | nil =>
    cases y with
    | nil => exact ⟨rfl, h⟩
    | cons c y => exact absurd (hy c List.mem_cons_self) (ht c _ h)
  | cons c x ih =>
    cases y with
    | nil => exact absurd (hx c List.mem_cons_self) (hu c _ h.symm)
    | cons d y =>
      rw [List.cons_append, List.cons_append, List.cons.injEq] at h
      obtain ⟨rfl, h⟩ := h
      obtain ⟨rfl, htu⟩ := ih (fun e he => hx e (List.mem_cons_of_mem c he))
        (fun e he => hy e (List.mem_cons_of_mem c he)) h
      exact ⟨rfl, htu⟩

theorem mark_unique {mark : β} {x y t u : List β} (hx : mark ∉ x) (hy : mark ∉ y)
    (h : x ++ mark :: t = y ++ mark :: u) : x = y ∧ t = u := by
  have hfree : ∀ {z : List β}, mark ∉ z → ∀ c ∈ z, c ≠ mark := fun hz c hc heq => hz (heq ▸ hc)
  have hstop : ∀ v, Ends (fun c => ¬ c ≠ mark) (mark :: v) := fun v => ends_cons (fun hne => hne rfl) v
  obtain ⟨hxy, htu⟩ := token_unique (hfree hx) (hfree hy) (hstop t) (hstop u) h
  exact ⟨hxy, (List.cons.inj htu).2⟩

theorem mark_split_iff (mark : β) (x y t u : List β) :
    x ++ mark :: t = y ++ mark :: u ↔
      (x = y ∧ t = u) ∨ (∃ part, x = y ++ mark :: part ∧ part ++ mark :: t = u) ∨
        ∃ part, y = x ++ mark :: part ∧ t = part ++ mark :: u := by
  constructor
  · intro h
    obtain ⟨part, rfl, hpart⟩ | ⟨part, rfl, hpart⟩ := List.append_eq_append_iff.mp h
    · cases part with
      | nil => exact .inl ⟨(List.append_nil x).symm, (List.cons.inj hpart).2⟩
      | cons c part =>
        obtain ⟨rfl, rfl⟩ := List.cons.inj hpart
        exact .inr (.inr ⟨part, rfl, rfl⟩)
    · cases part with
      | nil => exact .inl ⟨List.append_nil y, (List.cons.inj hpart).2.symm⟩
      | cons c part =>
        obtain ⟨rfl, rfl⟩ := List.cons.inj hpart
        exact .inr (.inl ⟨part, rfl, rfl⟩)
  · rintro (⟨rfl, rfl⟩ | ⟨part, rfl, rfl⟩ | ⟨part, rfl, rfl⟩)
    · rfl
    · rw [List.append_assoc, List.cons_append]
    · rw [List.append_assoc, List.cons_append]

end AgentPassport.SeparatedText
