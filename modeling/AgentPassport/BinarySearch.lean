import Mathlib.Data.List.Pairwise
import Mathlib.Order.Lattice

/-! Binary search in a sorted list, as Rust's `binary_search_by_key` does it: half of the window
is dropped in each round, and the last key left decides. -/
namespace AgentPassport.BinarySearch
variable {κ : Type*} [LinearOrder κ]

/-- The rounds; a window of `size` keys is down to one after fewer than `size` of them. -/
def narrow (keys : List κ) (key : κ) : Nat → Nat → Nat → Nat
  | fuel + 1, base, size =>
    if 1 < size then
      let half := size / 2
      let mid := base + half
      match keys[mid]? with
      | some k => narrow keys key fuel (if key < k then base else mid) (size - half)
      | none => base
    else base
  | 0, base, _ => base

/-- The index of a key, or the index at which it can be inserted. -/
def binarySearch (keys : List κ) (key : κ) : Except Nat Nat :=
  let base := narrow keys key keys.length 0 keys.length
  match keys[base]? with
  | none => .error 0
  | some k => if k = key then .ok base else .error (base + if k < key then 1 else 0)

/-- The key, if it is there, lies in the window. -/
structure Window (keys : List κ) (key : κ) (base size : Nat) : Prop where
  nonempty : 1 ≤ size
  fits : base + size ≤ keys.length
  low : base = 0 ∨ ∃ k, keys[base]? = some k ∧ k ≤ key
  high : ∀ j k, base + size ≤ j → keys[j]? = some k → key < k

theorem Window.step {keys : List κ} {key : κ} {base size : Nat} (hsorted : keys.Pairwise (· < ·))
    (h : Window keys key base size) (hsize : 1 < size) :
    ∃ k, keys[base + size / 2]? = some k ∧
      Window keys key (if key < k then base else base + size / 2) (size - size / 2) := by
  have hfits := h.fits
  have hmid : base + size / 2 < keys.length := by omega
  refine ⟨keys[base + size / 2], List.getElem?_eq_getElem hmid, ?_⟩
  split
  · rename_i hlt
    refine ⟨by omega, by omega, h.low, ?_⟩
    intro j k hj hk
    obtain ⟨hlen, rfl⟩ := List.getElem?_eq_some_iff.mp hk
    by_cases heq : base + size / 2 = j
    · subst heq
      exact hlt
    · exact hlt.trans (List.pairwise_iff_getElem.mp hsorted _ _ hmid hlen (by omega))
  · rename_i hle
    refine ⟨by omega, by omega, .inr ⟨_, List.getElem?_eq_getElem hmid, not_lt.mp hle⟩, ?_⟩
    intro j k hj hk
    exact h.high j k (by omega) hk

theorem narrow_window {keys : List κ} {key : κ} (hsorted : keys.Pairwise (· < ·)) {fuel base size : Nat}
    (h : Window keys key base size) (hfuel : size ≤ fuel + 1) :
    Window keys key (narrow keys key fuel base size) 1 := by
  induction fuel generalizing base size with
  | zero =>
    have hone : size = 1 := by
      have := h.nonempty
      omega
    rw [hone] at h
    exact h
  | succ fuel ih =>
    rw [narrow]
    split
    · rename_i hsize
      obtain ⟨k, hk, hstep⟩ := h.step hsorted hsize
      simp only [hk]
      exact ih hstep (by omega)
    · have hone : size = 1 := by
        have := h.nonempty
        omega
      rw [hone] at h
      exact h

/-- What a search in a strictly sorted list returns. -/
def Found (keys : List κ) (key : κ) : Except Nat Nat → Prop
  | .ok i => keys[i]? = some key
  | .error i => i ≤ keys.length ∧ (∀ k ∈ keys.take i, k < key) ∧ ∀ k ∈ keys.drop i, key < k

theorem binarySearch_found {keys : List κ} (hsorted : keys.Pairwise (· < ·)) (key : κ) :
    Found keys key (binarySearch keys key) := by
  rw [binarySearch]
  cases keys with
  | nil => simp [narrow, Found]
  | cons first rest =>
    have hstart : Window (first :: rest) key 0 (first :: rest).length :=
      ⟨by simp, by simp, .inl rfl, fun j k hj hk => by
        rw [List.getElem?_eq_none (by omega)] at hk
        cases hk⟩
    have hwindow := narrow_window hsorted hstart (Nat.le_succ _)
    generalize narrow (first :: rest) key (first :: rest).length 0 (first :: rest).length = base at hwindow
    generalize first :: rest = keys at hsorted hwindow
    have hbase : base < keys.length := hwindow.fits
    rw [List.getElem?_eq_getElem hbase]
    simp only
    have hafter : ∀ k ∈ keys.drop (base + 1), key < k := by
      intro k hk
      obtain ⟨j, hj, rfl⟩ := List.getElem_of_mem hk
      rw [List.getElem_drop]
      rw [List.length_drop] at hj
      exact hwindow.high (base + 1 + j) _ (Nat.le_add_right _ _) (List.getElem?_eq_getElem (by omega))
    split
    · rename_i heq
      rw [Found, List.getElem?_eq_getElem hbase, heq]
    · rename_i hne
      by_cases hlt : keys[base] < key
      · rw [if_pos hlt]
        refine ⟨hbase, ?_, hafter⟩
        intro k hk
        obtain ⟨j, hj, rfl⟩ := List.getElem_of_mem hk
        rw [List.length_take] at hj
        rw [List.getElem_take]
        obtain hj' | hj' : j < base ∨ j = base := by omega
        · exact (List.pairwise_iff_getElem.mp hsorted j base (by omega) hbase hj').trans hlt
        · subst hj'
          exact hlt
      · rw [if_neg hlt]
        -- The last key left is greater than the key, so the window never moved.
        have hzero : base = 0 := by
          obtain hzero | ⟨k, hk, hle⟩ := hwindow.low
          · exact hzero
          · rw [List.getElem?_eq_getElem hbase] at hk
            cases hk
            exact absurd (lt_of_le_of_ne hle hne) hlt
        subst hzero
        refine ⟨Nat.zero_le _, ?_, ?_⟩
        · intro k hk
          cases hk
        · intro k hk
          obtain ⟨j, hj, rfl⟩ := List.getElem_of_mem hk
          rw [List.getElem_drop]
          rw [List.length_drop] at hj
          have hfirst : key < keys[0] := lt_of_le_of_ne (not_lt.mp hlt) (Ne.symm hne)
          by_cases hj' : j = 0
          · subst hj'
            exact hfirst
          · exact hfirst.trans (List.pairwise_iff_getElem.mp hsorted _ _ hbase _ (by omega))

end AgentPassport.BinarySearch
