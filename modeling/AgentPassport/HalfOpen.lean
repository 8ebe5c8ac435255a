import Mathlib.Data.List.Basic

/-! Half-open spans of a linear order, and what is left of them when spans are cut out one after another.
Independent of what the points are. A span that ends no later than it starts holds no point, but it is not
dropped for that: it stays on the list until a cut reaches over both its ends. -/
namespace AgentPassport.HalfOpen
variable {α : Type}

/-- From `start` on, and before `stop` where there is one. -/
structure Span (α : Type) where
  start : α
  stop : Option α
  deriving DecidableEq

section Points
variable [LE α] [LT α]

def Span.Holds (s : Span α) (t : α) : Prop := s.start ≤ t ∧ ∀ stop, s.stop = some stop → t < stop

def Span.Proper (s : Span α) : Prop := ∀ stop, s.stop = some stop → s.start < stop

def Held (spans : List (Span α)) (t : α) : Prop := ∃ s ∈ spans, s.Holds t

theorem Span.holds_some {start stop t : α} : (Span.mk start (some stop)).Holds t ↔ start ≤ t ∧ t < stop := by
  simp [Span.Holds]

theorem Span.holds_none {start t : α} : (Span.mk start none).Holds t ↔ start ≤ t := by
  simp [Span.Holds]

theorem held_singleton {s : Span α} {t : α} : Held [s] t ↔ s.Holds t := by
  simp [Held]

theorem held_append {a b : List (Span α)} {t : α} : Held (a ++ b) t ↔ Held a t ∨ Held b t := by
  simp only [Held, List.mem_append, or_and_right, exists_or]

theorem held_flatMap {spans : List (Span α)} {f : Span α → List (Span α)} {t : α} :
    Held (spans.flatMap f) t ↔ ∃ s ∈ spans, Held (f s) t := by
  simp only [Held, List.mem_flatMap]
  constructor
  · rintro ⟨piece, ⟨s, hs, hpiece⟩, ht⟩
    exact ⟨s, hs, piece, hpiece, ht⟩
  · rintro ⟨s, hs, piece, hpiece, ht⟩
    exact ⟨piece, ⟨s, hs, hpiece⟩, ht⟩

end Points

section Piece
variable [LT α] [DecidableLT α]

/-- The points between two ends, if there are any. -/
def piece (start stop : α) : List (Span α) := if start < stop then [⟨start, some stop⟩] else []

theorem proper_piece {start stop : α} : ∀ s ∈ piece start stop, s.Proper := by
  intro s hs
  rw [piece] at hs
  split at hs
  · rename_i hlt
    obtain rfl := List.mem_singleton.mp hs
    rintro _ ⟨⟩
    exact hlt
  · cases hs

theorem held_piece [LE α] [Std.IsLinearOrder α] [Std.LawfulOrderLT α] {start stop t : α} :
    Held (piece start stop) t ↔ start ≤ t ∧ t < stop := by
  rw [piece]
  split
  · rw [held_singleton, Span.holds_some]
  · have hnone : ¬ Held ([] : List (Span α)) t := by simp [Held]
    grind

end Piece

section Cut
variable [LE α] [LT α] [DecidableLE α] [DecidableLT α]

/-- What is left of a span when `[start, stop)` is cut out. -/
def Span.cut (s : Span α) (start stop : α) : List (Span α) :=
  match s.stop with
  | some limit =>
    if limit ≤ start then [s] else if stop ≤ s.start then [s] else piece s.start start ++ piece stop limit
  | none => if stop ≤ s.start then [s] else piece s.start start ++ [⟨stop, none⟩]

def cutAll (spans : List (Span α)) (bounds : α × α) : List (Span α) := spans.flatMap (·.cut bounds.1 bounds.2)

theorem proper_cut {s : Span α} (h : s.Proper) (start stop : α) : ∀ p ∈ s.cut start stop, p.Proper := by
  intro p hp
  rw [Span.cut] at hp
  split at hp
  · split at hp
    · exact List.mem_singleton.mp hp ▸ h
    split at hp
    · exact List.mem_singleton.mp hp ▸ h
    · obtain hp | hp := List.mem_append.mp hp
      · exact proper_piece p hp
      · exact proper_piece p hp
  · split at hp
    · exact List.mem_singleton.mp hp ▸ h
    · obtain hp | hp := List.mem_append.mp hp
      · exact proper_piece p hp
      · obtain rfl := List.mem_singleton.mp hp
        rintro _ ⟨⟩

theorem proper_cuts (cuts : List (α × α)) {spans : List (Span α)} (h : ∀ s ∈ spans, s.Proper) :
    ∀ s ∈ cuts.foldl cutAll spans, s.Proper := by
  induction cuts generalizing spans with
  | nil => exact h
  | cons c rest ih =>
    apply ih
    intro p hp
    obtain ⟨s, hs, hp⟩ := List.mem_flatMap.mp hp
    exact proper_cut (h s hs) c.1 c.2 p hp

theorem cuts_nil (cuts : List (α × α)) : cuts.foldl cutAll ([] : List (Span α)) = [] := by
  induction cuts with
  | nil => rfl
  | cons c rest ih => exact ih

variable [Std.IsLinearOrder α] [Std.LawfulOrderLT α]

theorem held_cut (s : Span α) (start stop t : α) :
    Held (s.cut start stop) t ↔ s.Holds t ∧ ¬(start ≤ t ∧ t < stop) := by
  obtain ⟨first, limit⟩ := s
  cases limit with
  | none =>
    rw [Span.cut, Span.holds_none]
    dsimp only
    split
    · rw [held_singleton, Span.holds_none]
      grind
    · rw [held_append, held_piece, held_singleton, Span.holds_none]
      grind
  | some limit =>
    rw [Span.cut, Span.holds_some]
    dsimp only
    split
    · rw [held_singleton, Span.holds_some]
      grind
    split
    · rw [held_singleton, Span.holds_some]
      grind
    · rw [held_append, held_piece, held_piece]
      grind

theorem held_cuts (cuts : List (α × α)) (spans : List (Span α)) (t : α) :
    Held (cuts.foldl cutAll spans) t ↔ Held spans t ∧ ∀ c ∈ cuts, ¬(c.1 ≤ t ∧ t < c.2) := by
  induction cuts generalizing spans with
  | nil => simp
  | cons c rest ih =>
    have hstep : Held (cutAll spans c) t ↔ Held spans t ∧ ¬(c.1 ≤ t ∧ t < c.2) := by
      rw [cutAll, held_flatMap]
      constructor
      · rintro ⟨s, hs, hcut⟩
        obtain ⟨ht, hout⟩ := (held_cut s c.1 c.2 t).mp hcut
        exact ⟨⟨s, hs, ht⟩, hout⟩
      · rintro ⟨⟨s, hs, ht⟩, hout⟩
        exact ⟨s, hs, (held_cut s c.1 c.2 t).mpr ⟨ht, hout⟩⟩
    rw [List.foldl_cons, ih, hstep, List.forall_mem_cons, and_assoc]

theorem cuts_eq_nil_iff {s : Span α} (h : s.Proper) (cuts : List (α × α)) :
    cuts.foldl cutAll [s] = [] ↔ ∀ t, s.Holds t → ∃ c ∈ cuts, c.1 ≤ t ∧ t < c.2 := by
  have hheld := held_cuts cuts [s]
  simp only [held_singleton] at hheld
  have hproper := proper_cuts cuts (List.forall_mem_singleton.mpr h)
  constructor
  · intro hnil t ht
    rw [hnil] at hheld
    by_contra hnone
    push Not at hnone
    obtain ⟨p, hp, -⟩ := (hheld t).mpr ⟨ht, fun c hc hin => absurd (hnone c hc hin.1) (by grind)⟩
    cases hp
  · intro hcovered
    by_contra hne
    obtain ⟨p, hp⟩ := List.exists_mem_of_ne_nil _ hne
    obtain ⟨hs, hout⟩ := (hheld p.start).mp ⟨p, hp, Std.le_refl _, hproper p hp⟩
    obtain ⟨c, hc, hin⟩ := hcovered p.start hs
    exact hout c hc hin

theorem cuts_of_empty {start limit : α} (h : limit ≤ start) (cuts : List (α × α)) :
    cuts.foldl cutAll [⟨start, some limit⟩] = [] ↔ ∃ c ∈ cuts, c.1 < limit ∧ start < c.2 := by
  induction cuts with
  | nil => simp
  | cons c rest ih =>
    have hstep : cutAll [⟨start, some limit⟩] c =
        if c.1 < limit ∧ start < c.2 then [] else [(⟨start, some limit⟩ : Span α)] := by
      rw [cutAll, List.flatMap_singleton, Span.cut]
      dsimp only
      simp only [piece]
      grind
    rw [List.foldl_cons, hstep, List.exists_mem_cons_iff]
    split
    · rename_i hover
      exact ⟨fun _ => .inl hover, fun _ => cuts_nil rest⟩
    · rename_i hover
      exact ih.trans ⟨.inr, fun h => h.resolve_left hover⟩

theorem cuts_eq_nil_congr {s : Span α} {cuts cuts' : List (α × α)}
    (h : ∀ c : α × α, c.1 < c.2 → (c ∈ cuts ↔ c ∈ cuts')) :
    cuts.foldl cutAll [s] = [] ↔ cuts'.foldl cutAll [s] = [] := by
  by_cases hproper : s.Proper
  · rw [cuts_eq_nil_iff hproper, cuts_eq_nil_iff hproper]
    refine forall_congr' fun t => imp_congr_right fun _ => exists_congr fun c => and_congr_left fun hin => ?_
    exact h c (by grind)
  · obtain ⟨start, limit⟩ := s
    rw [Span.Proper] at hproper
    push Not at hproper
    obtain ⟨stop, rfl, hle⟩ := hproper
    rw [cuts_of_empty (by grind), cuts_of_empty (by grind)]
    refine exists_congr fun c => and_congr_left fun hover => ?_
    exact h c (by grind)

end Cut

end AgentPassport.HalfOpen
