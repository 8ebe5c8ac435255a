import Mathlib.Data.List.Infix
import Mathlib.Data.List.TakeWhile

/-! Texts over any alphabet, read word by word: a gap, then the longest word that the rest of the
text begins with. -/
namespace AgentPassport.LongestMatch
variable {α : Type*} {Blank : α → Prop} {IsWord : List α → Prop}

/-- A word with `rest` behind it, where no longer word begins. -/
structure Longest (IsWord : List α → Prop) (w rest : List α) : Prop where
  word : IsWord w
  longest : ∀ v, IsWord v → v <+: w ++ rest → v.length ≤ w.length

/-- The words a text begins with, a gap before each of them, and what they leave. -/
inductive Reads (Blank : α → Prop) (IsWord : List α → Prop) : List α → List (List α) → List α → Prop
  | nil (left : List α) : Reads Blank IsWord left [] left
  | cons {gap w rest left : List α} {words : List (List α)} (blank : ∀ c ∈ gap, Blank c)
      (longest : Longest IsWord w rest) (reads : Reads Blank IsWord rest words left) :
      Reads Blank IsWord (gap ++ (w ++ rest)) (w :: words) left

theorem Reads.single {gap w rest : List α} (blank : ∀ c ∈ gap, Blank c) (longest : Longest IsWord w rest) :
    Reads Blank IsWord (gap ++ (w ++ rest)) [w] rest :=
  .cons blank longest (.nil rest)

theorem Reads.append {text mid left : List α} {words more : List (List α)}
    (h : Reads Blank IsWord text words mid) (hmore : Reads Blank IsWord mid more left) :
    Reads Blank IsWord text (words ++ more) left := by
  induction h with
  | nil mid => exact hmore
  | cons blank longest _ ih => exact .cons blank longest (ih hmore)

theorem Reads.of_append {text left : List α} {words more : List (List α)}
    (h : Reads Blank IsWord text (words ++ more) left) :
    ∃ mid, Reads Blank IsWord text words mid ∧ Reads Blank IsWord mid more left := by
  induction words generalizing text with
  | nil => exact ⟨text, .nil text, h⟩
  | cons w words ih =>
    cases h with
    | cons blank longest reads =>
      obtain ⟨mid, hwords, hmore⟩ := ih reads
      exact ⟨mid, .cons blank longest hwords, hmore⟩

theorem Reads.suffix {text left : List α} {words : List (List α)} (h : Reads Blank IsWord text words left) :
    left <:+ text := by
  induction h with
  | nil left => exact List.suffix_refl left
  | @cons gap w rest left words _ _ _ ih =>
    exact ih.trans ((List.suffix_append w rest).trans (List.suffix_append gap (w ++ rest)))

theorem Longest.not_extended {w rest u : List α} (h : Longest IsWord w rest) (hu : u <+: rest)
    (hword : IsWord (w ++ u)) : u = [] := by
  have hle := h.longest (w ++ u) hword ((List.prefix_append_right_inj w).mpr hu)
  rw [List.length_append] at hle
  exact List.length_eq_zero_iff.mp (by omega)

/-- A word is longest when the words that begin like it have only characters of a kind, and the text
behind it does not go on with that kind. -/
theorem Longest.of_kind {P : α → Prop} {x : α} {w rest : List α} (hword : IsWord (x :: w))
    (hkind : ∀ v, IsWord (x :: v) → ∀ y ∈ v, P y) (hstop : ∀ y ∈ rest.head?, ¬ P y) :
    Longest IsWord (x :: w) rest := by
  refine ⟨hword, ?_⟩
  intro v hv hpre
  by_contra hlong
  obtain ⟨u, hvu⟩ : x :: w <+: v :=
    List.prefix_of_prefix_length_le (List.prefix_append _ rest) hpre (by omega)
  subst hvu
  have hu : u <+: rest := (List.prefix_append_right_inj (x :: w)).mp hpre
  cases u with
  | nil => exact hlong (by simp)
  | cons y u =>
    obtain ⟨tail, htail⟩ := hu
    have hy : y ∈ rest.head? := by
      rw [← htail]
      rfl
    exact hstop y hy (hkind (w ++ y :: u) hv y (List.mem_append_right w List.mem_cons_self))

theorem Longest.of_length {x : α} {w rest : List α} (hword : IsWord (x :: w))
    (hlen : ∀ v, IsWord (x :: v) → v.length ≤ w.length) : Longest IsWord (x :: w) rest := by
  refine ⟨hword, ?_⟩
  intro v hv hpre
  cases v with
  | nil => exact Nat.zero_le _
  | cons y v =>
    obtain ⟨tail, htail⟩ := hpre
    cases (List.cons.inj htail).1
    exact Nat.succ_le_succ (hlen v hv)

theorem stops_dropWhile (p : α → Bool) (l : List α) : ∀ y ∈ (l.dropWhile p).head?, p y = false := by
  intro y hy
  have hstop := List.head?_dropWhile_not p l
  rw [Option.mem_def.mp hy] at hstop
  exact hstop

theorem takeWhile_append_of_stop {p : α → Bool} {w rest : List α} (hw : ∀ y ∈ w, p y = true)
    (hstop : ∀ y ∈ rest.head?, p y = false) : (w ++ rest).takeWhile p = w := by
  rw [List.takeWhile_append_of_pos hw]
  cases rest with
  | nil => rw [List.takeWhile_nil, List.append_nil]
  | cons y rest => rw [List.takeWhile_cons_of_neg (by simp [hstop y rfl]), List.append_nil]

end AgentPassport.LongestMatch
