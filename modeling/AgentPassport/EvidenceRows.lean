import AgentPassport.MapLoops
import Mathlib.Data.List.Sort

/-! Findings folded into rows, one row a subject: entries kept once a digest, a count of the repeats,
and what was discarded with its position. What a row holds does not depend on the findings about
other subjects, and but for positions not on the order of its own. -/
namespace AgentPassport.EvidenceRows
open OrderedMap

/-- What reading one item comes to. -/
inductive Finding (σ δ ρ ε : Type*) where
  | unplaced (why : ε)
  | discarded (subject : σ) (why : ε)
  | survived (subject : σ) (digest : δ) (entry : ρ)

structure Row (σ δ ρ ε : Type*) where
  subject : σ
  artifacts : OrderedMap δ ρ
  duplicates : Nat
  discards : List (Nat × ε)

structure Rows (κ σ δ ρ ε : Type*) where
  rows : OrderedMap κ (Row σ δ ρ ε)
  unplaced : List (Nat × ε)

variable {κ σ δ ρ ε : Type*}

namespace Finding

def subject? : Finding σ δ ρ ε → Option σ
  | .unplaced _ => none
  | .discarded s _ => some s
  | .survived s _ _ => some s

/-- Why an item without a subject was left out. -/
def unplaced? : Finding σ δ ρ ε → Option ε
  | .unplaced why => some why
  | _ => none

section
variable [DecidableEq σ]

def about (s : σ) (f : Finding σ δ ρ ε) : Bool := f.subject? = some s

/-- The entry a finding gives a subject, with its digest. -/
def entryOf (s : σ) : Finding σ δ ρ ε → Option (δ × ρ)
  | .survived s' digest entry => if s' = s then some (digest, entry) else none
  | _ => none

def discard? (s : σ) : Finding σ δ ρ ε → Option ε
  | .discarded s' why => if s' = s then some why else none
  | _ => none

theorem about_iff {s : σ} {f : Finding σ δ ρ ε} : f.about s = true ↔ f.subject? = some s := by
  simp [about]

theorem of_other {s : σ} {f : Finding σ δ ρ ε} (h : ¬ f.about s = true) :
    f.entryOf s = none ∧ f.discard? s = none := by
  cases f with
  | unplaced why => exact ⟨rfl, rfl⟩
  | discarded s' why =>
    have hs : s' ≠ s := fun he => h (about_iff.mpr (congrArg some he))
    exact ⟨rfl, if_neg hs⟩
  | survived s' digest entry =>
    have hs : s' ≠ s := fun he => h (about_iff.mpr (congrArg some he))
    exact ⟨if_neg hs, rfl⟩

theorem of_entry {s : σ} {f : Finding σ δ ρ ε} {x : δ × ρ} (h : f.entryOf s = some x) : f = .survived s x.1 x.2 := by
  cases f with
  | unplaced why => cases h
  | discarded s' why => cases h
  | survived s' digest entry =>
    rw [entryOf] at h
    by_cases hs : s' = s
    · rw [if_pos hs] at h
      cases h
      rw [hs]
    · rw [if_neg hs] at h
      cases h

end

end Finding

section
variable [DecidableEq δ]

def Row.new (s : σ) : Row σ δ ρ ε := ⟨s, .empty, 0, []⟩

/-- A finding about the row's subject, at its position. -/
def Row.receive (row : Row σ δ ρ ε) (index : Nat) : Finding σ δ ρ ε → Row σ δ ρ ε
  | .unplaced _ => row
  | .discarded _ why => { row with discards := row.discards ++ [(index, why)] }
  | .survived _ digest entry =>
    if (row.artifacts.get digest).isSome then { row with duplicates := row.duplicates + 1 }
    else { row with artifacts := row.artifacts.set digest entry }

def Row.size (row : Row σ δ ρ ε) : Nat := row.artifacts.entries.length + row.duplicates + row.discards.length

section
variable [DecidableEq κ] (key : σ → κ)

/-- The row of a subject, new when it is first looked for. -/
def Rows.row (st : Rows κ σ δ ρ ε) (s : σ) : Row σ δ ρ ε := (st.rows.get (key s)).getD (Row.new s)

def Rows.ensure (st : Rows κ σ δ ρ ε) (s : σ) : Rows κ σ δ ρ ε :=
  { st with rows := st.rows.set (key s) (st.row key s) }

def Rows.place (st : Rows κ σ δ ρ ε) (index : Nat) (f : Finding σ δ ρ ε) : Rows κ σ δ ρ ε :=
  match f.subject? with
  | none => { st with unplaced := st.unplaced ++ (f.unplaced?.map (fun why => (index, why))).toList }
  | some s => { st with rows := st.rows.set (key s) ((st.row key s).receive index f) }

def Rows.run (st : Rows κ σ δ ρ ε) (index : Nat) : List (Finding σ δ ρ ε) → Rows κ σ δ ρ ε
  | [] => st
  | f :: rest => (st.place key index f).run (index + 1) rest

def Rows.seeded (seeds : List σ) : Rows κ σ δ ρ ε := seeds.foldl (Rows.ensure key) ⟨.empty, []⟩

end

variable [DecidableEq σ]

/-- The row of one subject by itself. -/
def Row.collect (row : Row σ δ ρ ε) (index : Nat) : List (Finding σ δ ρ ε) → Row σ δ ρ ε
  | [] => row
  | f :: rest => (if f.about row.subject then row.receive index f else row).collect (index + 1) rest

end

section
variable [DecidableEq δ]

@[simp] theorem receive_subject (row : Row σ δ ρ ε) (index : Nat) (f : Finding σ δ ρ ε) :
    (row.receive index f).subject = row.subject := by
  cases f with
  | unplaced why => rfl
  | discarded s why => rfl
  | survived s digest entry =>
    rw [Row.receive]
    split_ifs
    · rfl
    · rfl

variable [DecidableEq σ]

theorem receive_size {row : Row σ δ ρ ε} {f : Finding σ δ ρ ε} (h : f.about row.subject = true) (index : Nat) :
    (row.receive index f).size = row.size + 1 := by
  cases f with
  | unplaced why => cases Finding.about_iff.mp h
  | discarded s why =>
    simp only [Row.size, Row.receive, List.length_append, List.length_singleton]
    omega
  | survived s digest entry =>
    rw [Row.receive]
    split_ifs with hseen
    · rw [Row.size, Row.size]
      dsimp only
      omega
    · have habsent : row.artifacts.get digest = none := by simpa using hseen
      have hentries : (row.artifacts.set digest entry).entries.length = row.artifacts.entries.length + 1 := by
        have hvalues := congrArg List.length (values_set_absent entry habsent)
        simpa [values] using hvalues
      rw [Row.size, Row.size]
      dsimp only
      omega

theorem receive_get {row : Row σ δ ρ ε} {f : Finding σ δ ρ ε} (h : f.about row.subject = true) (index : Nat) (d : δ) :
    (row.receive index f).artifacts.get d =
      (row.artifacts.get d).or (lookup d (f.entryOf row.subject).toList) := by
  cases f with
  | unplaced why => cases Finding.about_iff.mp h
  | discarded s why => simp [Row.receive, Finding.entryOf, lookup]
  | survived s digest entry =>
    have hs : s = row.subject := Option.some.inj (Finding.about_iff.mp h)
    rw [Row.receive, Finding.entryOf, if_pos hs]
    split_ifs with hseen
    · by_cases hd : digest = d
      · obtain ⟨e, he⟩ := Option.isSome_iff_exists.mp hseen
        subst hd
        simp [he]
      · simp [lookup, hd]
    · have habsent : row.artifacts.get digest = none := by simpa using hseen
      by_cases hd : digest = d
      · subst hd
        simp [habsent, lookup]
      · simp [lookup, hd, get_set_ne row.artifacts entry hd]

theorem receive_discards {row : Row σ δ ρ ε} {f : Finding σ δ ρ ε} (h : f.about row.subject = true) (index : Nat) :
    (row.receive index f).discards.map Prod.snd = row.discards.map Prod.snd ++ (f.discard? row.subject).toList := by
  cases f with
  | unplaced why => cases Finding.about_iff.mp h
  | discarded s why =>
    have hs : s = row.subject := Option.some.inj (Finding.about_iff.mp h)
    simp [Row.receive, Finding.discard?, hs]
  | survived s digest entry =>
    rw [Row.receive]
    split_ifs
    · simp [Finding.discard?]
    · simp [Finding.discard?]

theorem lookup_append (d : δ) (xs ys : List (δ × ρ)) : lookup d (xs ++ ys) = (lookup d xs).or (lookup d ys) := by
  induction xs with
  | nil => rfl
  | cons x rest ih =>
    rw [List.cons_append, lookup, lookup, ih]
    split_ifs
    · rfl
    · rfl

theorem collect_spec (fs : List (Finding σ δ ρ ε)) : ∀ (row : Row σ δ ρ ε) (index : Nat),
    (row.collect index fs).subject = row.subject ∧
    (row.collect index fs).size = row.size + (fs.filter (Finding.about row.subject)).length ∧
    (∀ d, (row.collect index fs).artifacts.get d =
      (row.artifacts.get d).or (lookup d (fs.filterMap (Finding.entryOf row.subject)))) ∧
    (row.collect index fs).discards.map Prod.snd =
      row.discards.map Prod.snd ++ fs.filterMap (Finding.discard? row.subject) := by
  induction fs with
  | nil =>
    intro row index
    simp [Row.collect, lookup]
  | cons f rest ih =>
    intro row index
    rw [Row.collect]
    by_cases habout : f.about row.subject = true
    · obtain ⟨hsubject, hsize, hget, hdiscards⟩ := ih (row.receive index f) (index + 1)
      rw [receive_subject] at hsubject hsize hget hdiscards
      rw [if_pos habout, hsubject, hsize, hdiscards, receive_size habout, receive_discards habout,
        List.filter_cons_of_pos habout, List.length_cons]
      refine ⟨rfl, by omega, ?_, ?_⟩
      · intro d
        rw [hget, receive_get habout, Option.or_assoc, ← lookup_append]
        congr 1
        cases hentry : f.entryOf row.subject with
        | none => rw [List.filterMap_cons_none hentry]; rfl
        | some e => rw [List.filterMap_cons_some hentry]; rfl
      · rw [List.append_assoc]
        congr 1
        cases hdiscard : f.discard? row.subject with
        | none => rw [List.filterMap_cons_none hdiscard]; rfl
        | some e => rw [List.filterMap_cons_some hdiscard]; rfl
    · obtain ⟨hsubject, hsize, hget, hdiscards⟩ := ih row (index + 1)
      obtain ⟨hentry, hdiscard⟩ := Finding.of_other habout
      rw [if_neg habout, List.filter_cons_of_neg habout, List.filterMap_cons_none hentry,
        List.filterMap_cons_none hdiscard]
      exact ⟨hsubject, hsize, hget, hdiscards⟩

end

section
variable [DecidableEq κ] {key : σ → κ}

def Rows.Keyed (key : σ → κ) (st : Rows κ σ δ ρ ε) : Prop := ∀ k row, st.rows.get k = some row → k = key row.subject

theorem row_subject {st : Rows κ σ δ ρ ε} (hkey : Function.Injective key) (h : st.Keyed key) (s : σ) :
    (st.row key s).subject = s := by
  cases hrow : st.rows.get (key s) with
  | none => simp [Rows.row, hrow, Row.new]
  | some row => simpa [Rows.row, hrow] using (hkey (h _ _ hrow)).symm

theorem keyed_set {st : Rows κ σ δ ρ ε} (h : st.Keyed key) (row : Row σ δ ρ ε) (unplaced : List (Nat × ε)) :
    (⟨st.rows.set (key row.subject) row, unplaced⟩ : Rows κ σ δ ρ ε).Keyed key := by
  intro k row' hget
  rw [get_set] at hget
  by_cases hk : key row.subject = k
  · rw [if_pos hk] at hget
    cases hget
    exact hk.symm
  · rw [if_neg hk] at hget
    exact h k row' hget

variable [DecidableEq σ]

theorem seeded_spec (hkey : Function.Injective key) (seeds : List σ) :
    ∀ st : Rows κ σ δ ρ ε, st.Keyed key → (∀ s row, st.rows.get (key s) = some row → row = Row.new s) →
    (seeds.foldl (Rows.ensure key) st).Keyed key ∧ (seeds.foldl (Rows.ensure key) st).unplaced = st.unplaced ∧
    ∀ s row, (seeds.foldl (Rows.ensure key) st).rows.get (key s) = some row ↔
      row = Row.new s ∧ ((st.rows.get (key s)).isSome = true ∨ s ∈ seeds) := by
  induction seeds with
  | nil =>
    intro st hkeyed hnew
    refine ⟨hkeyed, rfl, ?_⟩
    intro s row
    constructor
    · intro h
      exact ⟨hnew s row h, .inl (by simp [show st.rows.get (key s) = some row from h])⟩
    · intro h
      obtain ⟨rfl, hsome⟩ := h
      obtain ⟨row, hrow⟩ := Option.isSome_iff_exists.mp (hsome.resolve_right List.not_mem_nil)
      rw [← hnew s row hrow]
      exact hrow
  | cons seed rest ih =>
    intro st hkeyed hnew
    have hrow : st.row key seed = Row.new seed := by
      cases hget : st.rows.get (key seed) with
      | none => simp [Rows.row, hget]
      | some row => simpa [Rows.row, hget] using hnew seed row hget
    have hensure : st.ensure key seed = ⟨st.rows.set (key seed) (Row.new seed), st.unplaced⟩ := by
      rw [Rows.ensure, hrow]
    have hget : ∀ s, (st.ensure key seed).rows.get (key s) =
        if seed = s then some (Row.new s) else st.rows.get (key s) := by
      intro s
      rw [hensure, get_set]
      by_cases hs : seed = s
      · rw [if_pos hs, if_pos (congrArg key hs), hs]
      · rw [if_neg hs, if_neg (fun h => hs (hkey h))]
    obtain ⟨hkeyed', hunplaced, hspec⟩ := ih (st.ensure key seed) (hensure ▸ keyed_set hkeyed (Row.new seed) _) (by
      intro s row h
      rw [hget] at h
      by_cases hs : seed = s
      · rw [if_pos hs] at h
        exact (Option.some.inj h).symm
      · rw [if_neg hs] at h
        exact hnew s row h)
    refine ⟨hkeyed', hunplaced, ?_⟩
    intro s row
    rw [List.foldl_cons, hspec, hget, List.mem_cons]
    by_cases hs : seed = s
    · simp [hs]
    · have hs' : s ≠ seed := fun h => hs h.symm
      simp [hs, hs']

variable [DecidableEq δ]

theorem run_spec (hkey : Function.Injective key) (fs : List (Finding σ δ ρ ε)) :
    ∀ (st : Rows κ σ δ ρ ε) (index : Nat), st.Keyed key →
    (st.run key index fs).Keyed key ∧
    (st.run key index fs).unplaced.map Prod.snd = st.unplaced.map Prod.snd ++ fs.filterMap Finding.unplaced? ∧
    ∀ s row, (st.run key index fs).rows.get (key s) = some row ↔
      row = (st.row key s).collect index fs ∧
        ((st.rows.get (key s)).isSome = true ∨ ∃ f ∈ fs, f.about s = true) := by
  induction fs with
  | nil =>
    intro st index hkeyed
    refine ⟨hkeyed, by simp [Rows.run], ?_⟩
    intro s row
    cases hget : st.rows.get (key s) with
    | none => simp [Rows.run, hget]
    | some row' =>
      simp only [Rows.run, Row.collect, Rows.row, hget, Option.getD_some, Option.some.injEq, Option.isSome_some,
        true_or, and_true]
      exact eq_comm
  | cons f rest ih =>
    intro st index hkeyed
    cases hsubject : f.subject? with
    | none =>
      obtain ⟨why, rfl⟩ : ∃ why, f = .unplaced why := by
        cases f with
        | unplaced why => exact ⟨why, rfl⟩
        | discarded s why => cases hsubject
        | survived s digest entry => cases hsubject
      have hplace : (st.place key index (.unplaced why)).rows = st.rows := rfl
      obtain ⟨hkeyed', hunplaced, hspec⟩ := ih (st.place key index (.unplaced why)) (index + 1) hkeyed
      rw [Rows.run]
      refine ⟨hkeyed', ?_, ?_⟩
      · rw [hunplaced]
        simp [Rows.place, Finding.subject?, Finding.unplaced?]
      · intro s row
        have habout : (Finding.unplaced why : Finding σ δ ρ ε).about s = false := by
          simp [Finding.about, Finding.subject?]
        have hrow : (st.place key index (.unplaced why)).row key s = st.row key s := rfl
        rw [hspec, hrow, hplace, Row.collect]
        simp [Finding.about, Finding.subject?]
    | some named =>
      have hplace : st.place key index f =
          ⟨st.rows.set (key named) ((st.row key named).receive index f), st.unplaced⟩ := by
        rw [Rows.place, hsubject]
      have hnamed : ((st.row key named).receive index f).subject = named := by
        rw [receive_subject, row_subject hkey hkeyed]
      have hkeyed₁ : (st.place key index f).Keyed key := by
        rw [hplace]
        have hset := keyed_set hkeyed ((st.row key named).receive index f) st.unplaced
        rwa [hnamed] at hset
      obtain ⟨hkeyed', hunplaced, hspec⟩ := ih (st.place key index f) (index + 1) hkeyed₁
      rw [Rows.run]
      refine ⟨hkeyed', ?_, ?_⟩
      · have hnone : f.unplaced? = none := by
          cases f with
          | unplaced why => cases hsubject
          | discarded s why => rfl
          | survived s digest entry => rfl
        rw [hunplaced, List.filterMap_cons_none hnone, hplace]
      · intro s row
        rw [hspec]
        by_cases hs : named = s
        · subst hs
          have habout : f.about named = true := Finding.about_iff.mpr hsubject
          have hget : (st.place key index f).rows.get (key named) =
              some ((st.row key named).receive index f) := by rw [hplace, get_set_self]
          have hrow : (st.place key index f).row key named = (st.row key named).receive index f := by
            rw [Rows.row, hget, Option.getD_some]
          rw [hrow, hget, Row.collect, row_subject hkey hkeyed, if_pos habout]
          simp [habout]
        · have habout : ¬ f.about s = true := by
            intro h
            exact hs (Option.some.inj (hsubject.symm.trans (Finding.about_iff.mp h)))
          have hget : (st.place key index f).rows.get (key s) = st.rows.get (key s) := by
            rw [hplace, get_set_ne _ _ (fun h => hs (hkey h))]
          have hrow : (st.place key index f).row key s = st.row key s := by rw [Rows.row, hget, Rows.row]
          rw [hrow, hget, Row.collect, row_subject hkey hkeyed, if_neg habout]
          simp [habout]

end

section
variable [DecidableEq δ] [DecidableEq σ]

def rowFor (fs : List (Finding σ δ ρ ε)) (s : σ) : Row σ δ ρ ε := (Row.new s).collect 0 fs

@[simp] theorem rowFor_subject (fs : List (Finding σ δ ρ ε)) (s : σ) : (rowFor fs s).subject = s :=
  (collect_spec fs (Row.new s) 0).1

theorem rowFor_size (fs : List (Finding σ δ ρ ε)) (s : σ) :
    (rowFor fs s).size = (fs.filter (Finding.about s)).length := by
  rw [rowFor, (collect_spec fs (Row.new s) 0).2.1, Row.new]
  simp [Row.size, empty]

theorem rowFor_get (fs : List (Finding σ δ ρ ε)) (s : σ) (d : δ) :
    (rowFor fs s).artifacts.get d = lookup d (fs.filterMap (Finding.entryOf s)) := by
  rw [rowFor, (collect_spec fs (Row.new s) 0).2.2.1, Row.new]
  simp

theorem rowFor_discards (fs : List (Finding σ δ ρ ε)) (s : σ) :
    (rowFor fs s).discards.map Prod.snd = fs.filterMap (Finding.discard? s) := by
  rw [rowFor, (collect_spec fs (Row.new s) 0).2.2.2, Row.new]
  simp

theorem lookup_of_mem_fst {d : δ} {xs : List (δ × ρ)} (h : ∃ e, (d, e) ∈ xs) : ∃ e, lookup d xs = some e := by
  cases hlookup : lookup d xs with
  | some e => exact ⟨e, rfl⟩
  | none =>
    obtain ⟨e, he⟩ := h
    induction xs with
    | nil => cases he
    | cons x rest ih =>
      rw [lookup] at hlookup
      by_cases hx : x.1 = d
      · rw [if_pos hx] at hlookup
        cases hlookup
      · rw [if_neg hx] at hlookup
        rcases List.mem_cons.mp he with rfl | he
        · exact absurd rfl hx
        · exact ih hlookup he

theorem lookup_perm {d : δ} {xs ys : List (δ × ρ)} (h : xs.Perm ys)
    (hfun : ∀ e e', (d, e) ∈ xs → (d, e') ∈ xs → e = e') : lookup d xs = lookup d ys := by
  cases hx : lookup d xs with
  | some e =>
    have he := mem_of_lookup hx
    obtain ⟨e', hy⟩ := lookup_of_mem_fst ⟨e, h.mem_iff.mp he⟩
    rw [hy, hfun e e' he (h.mem_iff.mpr (mem_of_lookup hy))]
  | none =>
    cases hy : lookup d ys with
    | none => rfl
    | some e =>
      obtain ⟨e', he'⟩ := lookup_of_mem_fst ⟨e, h.mem_iff.mpr (mem_of_lookup hy)⟩
      rw [hx] at he'
      cases he'

theorem rowFor_nonempty (fs : List (Finding σ δ ρ ε)) (s : σ) :
    (rowFor fs s).artifacts.entries ≠ [] ↔ ∃ d e, .survived s d e ∈ fs := by
  constructor
  · intro h
    obtain ⟨x, rest, hx⟩ := List.exists_cons_of_ne_nil h
    have hmem : (x.1, x.2) ∈ (rowFor fs s).artifacts.entries := hx ▸ List.mem_cons_self
    rw [mem_entries, rowFor_get] at hmem
    obtain ⟨f, hf, hentry⟩ := List.mem_filterMap.mp (mem_of_lookup hmem)
    exact ⟨x.1, x.2, Finding.of_entry hentry ▸ hf⟩
  · intro h hnil
    obtain ⟨d, e, hf⟩ := h
    have hentry : (d, e) ∈ fs.filterMap (Finding.entryOf s) := List.mem_filterMap.mpr ⟨_, hf, if_pos rfl⟩
    obtain ⟨e', he'⟩ := lookup_of_mem_fst ⟨e, hentry⟩
    rw [← rowFor_get, ← mem_entries, hnil] at he'
    cases he'

/-- The entries of one digest are one entry. -/
def Consistent (fs : List (Finding σ δ ρ ε)) : Prop :=
  ∀ s d e s' e', Finding.survived s d e ∈ fs → Finding.survived s' d e' ∈ fs → e = e'

/-- The same row but for the positions and the order of what was discarded. -/
structure Row.Alike (r r' : Row σ δ ρ ε) : Prop where
  subject : r.subject = r'.subject
  artifacts : r.artifacts.entries.Perm r'.artifacts.entries
  duplicates : r.duplicates = r'.duplicates
  discards : (r.discards.map Prod.snd).Perm (r'.discards.map Prod.snd)

theorem rowFor_perm {fs fs' : List (Finding σ δ ρ ε)} (h : fs.Perm fs') (hconsistent : Consistent fs) (s : σ) :
    (rowFor fs s).Alike (rowFor fs' s) := by
  have hentries : (fs.filterMap (Finding.entryOf s)).Perm (fs'.filterMap (Finding.entryOf s)) := h.filterMap _
  have hget : ∀ d, (rowFor fs s).artifacts.get d = (rowFor fs' s).artifacts.get d := by
    intro d
    rw [rowFor_get, rowFor_get]
    refine lookup_perm hentries ?_
    intro e e' he he'
    obtain ⟨f, hf, hentry⟩ := List.mem_filterMap.mp he
    obtain ⟨f', hf', hentry'⟩ := List.mem_filterMap.mp he'
    exact hconsistent s d e s e' (Finding.of_entry hentry ▸ hf) (Finding.of_entry hentry' ▸ hf')
  have hartifacts : (rowFor fs s).artifacts.entries.Perm (rowFor fs' s).artifacts.entries := by
    refine (List.perm_ext_iff_of_nodup ?_ ?_).mpr ?_
    · exact (rowFor fs s).artifacts.distinct.of_map
    · exact (rowFor fs' s).artifacts.distinct.of_map
    · intro x
      rw [← Prod.eta x, mem_entries, mem_entries, hget]
  have hdiscards : ((rowFor fs s).discards.map Prod.snd).Perm ((rowFor fs' s).discards.map Prod.snd) := by
    rw [rowFor_discards, rowFor_discards]
    exact h.filterMap _
  refine ⟨by rw [rowFor_subject, rowFor_subject], hartifacts, ?_, hdiscards⟩
  have hsize : (rowFor fs s).size = (rowFor fs' s).size := by
    rw [rowFor_size, rowFor_size]
    exact (h.filter _).length_eq
  have hlength := hartifacts.length_eq
  have hlength' := hdiscards.length_eq
  rw [List.length_map, List.length_map] at hlength'
  simp only [Row.size] at hsize
  omega

variable [DecidableEq κ] (key : σ → κ)

/-- The rows after all items, for the subjects asked about. -/
def report (seeds : List σ) (fs : List (Finding σ δ ρ ε)) : Rows κ σ δ ρ ε := (Rows.seeded key seeds).run key 0 fs

def Reported (seeds : List σ) (fs : List (Finding σ δ ρ ε)) (s : σ) : Prop := s ∈ seeds ∨ ∃ f ∈ fs, f.about s = true

variable {key}

theorem report_spec (hkey : Function.Injective key) (seeds : List σ) (fs : List (Finding σ δ ρ ε)) :
    (report key seeds fs).Keyed key ∧
    (report key seeds fs).unplaced.map Prod.snd = fs.filterMap Finding.unplaced? ∧
    ∀ s row, (report key seeds fs).rows.get (key s) = some row ↔ row = rowFor fs s ∧ Reported seeds fs s := by
  have hempty : (⟨.empty, []⟩ : Rows κ σ δ ρ ε).Keyed key := by
    intro k row h
    cases h
  obtain ⟨hkeyed, hunplaced, hseeded⟩ := seeded_spec hkey seeds ⟨.empty, []⟩ hempty (fun s row h => by cases h)
  obtain ⟨hkeyed', hunplaced', hspec⟩ := run_spec hkey fs (Rows.seeded key seeds) 0 hkeyed
  refine ⟨hkeyed', ?_, ?_⟩
  · rw [report, hunplaced', Rows.seeded, hunplaced]
    rfl
  · intro s row
    have hseeds : ((Rows.seeded key seeds : Rows κ σ δ ρ ε).rows.get (key s)).isSome = true ↔ s ∈ seeds := by
      rw [Option.isSome_iff_exists]
      constructor
      · intro h
        obtain ⟨row, hrow⟩ := h
        simpa using ((hseeded s row).mp hrow).2
      · intro h
        exact ⟨Row.new s, (hseeded s _).mpr ⟨rfl, .inr h⟩⟩
    have hrow : (Rows.seeded key seeds : Rows κ σ δ ρ ε).row key s = Row.new s := by
      cases hget : (Rows.seeded key seeds : Rows κ σ δ ρ ε).rows.get (key s) with
      | none => rw [Rows.row, hget, Option.getD_none]
      | some row => rw [Rows.row, hget, Option.getD_some, ((hseeded s row).mp hget).1]
    rw [report, hspec, hrow, hseeds, rowFor, Reported]

theorem mem_report (hkey : Function.Injective key) {seeds : List σ} {fs : List (Finding σ δ ρ ε)} {row : Row σ δ ρ ε} :
    row ∈ (report key seeds fs).rows.values ↔ row = rowFor fs row.subject ∧ Reported seeds fs row.subject := by
  obtain ⟨hkeyed, -, hspec⟩ := report_spec hkey seeds fs
  rw [mem_values, ← hspec]
  constructor
  · intro h
    obtain ⟨k, hk⟩ := h
    rw [← hkeyed k row hk]
    exact hk
  · intro h
    exact ⟨_, h⟩

theorem mem_subjects (hkey : Function.Injective key) {seeds : List σ} {fs : List (Finding σ δ ρ ε)} {s : σ} :
    s ∈ (report key seeds fs).rows.values.map Row.subject ↔ Reported seeds fs s := by
  rw [List.mem_map]
  constructor
  · intro h
    obtain ⟨row, hrow, rfl⟩ := h
    exact ((mem_report hkey).mp hrow).2
  · intro h
    refine ⟨rowFor fs s, (mem_report hkey).mpr ?_, rowFor_subject fs s⟩
    rw [rowFor_subject]
    exact ⟨rfl, h⟩

theorem report_nodup (hkey : Function.Injective key) (seeds : List σ) (fs : List (Finding σ δ ρ ε)) :
    ((report key seeds fs).rows.values.map Row.subject).Nodup := by
  obtain ⟨hkeyed, -, -⟩ := report_spec hkey seeds fs
  have hkeys : (report key seeds fs).rows.keys = ((report key seeds fs).rows.values.map Row.subject).map key := by
    rw [keys, values, List.map_map, List.map_map]
    refine List.map_congr_left fun e he => ?_
    exact hkeyed e.1 e.2 (mem_entries.mp he)
  have hnodup := (report key seeds fs).rows.keys_nodup
  rw [hkeys] at hnodup
  exact hnodup.of_map key

def Rows.sorted (le : σ → σ → Prop) [DecidableRel le] (st : Rows κ σ δ ρ ε) : List (Row σ δ ρ ε) :=
  st.rows.values.insertionSort (fun r r' => le r.subject r'.subject)

theorem sorted_eq (hkey : Function.Injective key) (le : σ → σ → Prop) [DecidableRel le] (seeds : List σ)
    (fs : List (Finding σ δ ρ ε)) :
    (report key seeds fs).sorted le =
      (((report key seeds fs).rows.values.map Row.subject).insertionSort le).map (rowFor fs) := by
  have hvalues : (report key seeds fs).rows.values =
      ((report key seeds fs).rows.values.map Row.subject).map (rowFor fs) := by
    rw [List.map_map]
    conv_lhs => rw [← List.map_id (report key seeds fs).rows.values]
    exact List.map_congr_left fun row hrow => ((mem_report hkey).mp hrow).1
  rw [Rows.sorted]
  conv_lhs => rw [hvalues]
  refine (List.map_insertionSort le _ (rowFor fs) _ ?_).symm
  intro a _ b _
  rw [rowFor_subject, rowFor_subject]

theorem sorted_perm (hkey : Function.Injective key) (le : σ → σ → Prop) [DecidableRel le] [Std.Total le]
    [IsTrans σ le] [Std.Antisymm le] (seeds : List σ) {fs fs' : List (Finding σ δ ρ ε)} (h : fs.Perm fs') :
    ∃ subjects : List σ, (report key seeds fs).sorted le = subjects.map (rowFor fs) ∧
      (report key seeds fs').sorted le = subjects.map (rowFor fs') := by
  have hsubjects : ((report key seeds fs).rows.values.map Row.subject).Perm
      ((report key seeds fs').rows.values.map Row.subject) := by
    refine (List.perm_ext_iff_of_nodup (report_nodup hkey seeds fs) (report_nodup hkey seeds fs')).mpr ?_
    intro s
    rw [mem_subjects hkey, mem_subjects hkey]
    exact or_congr_right (exists_congr fun f => and_congr_left fun _ => h.mem_iff)
  have hsorted : ((report key seeds fs).rows.values.map Row.subject).insertionSort le =
      ((report key seeds fs').rows.values.map Row.subject).insertionSort le := by
    refine List.Perm.eq_of_pairwise' (List.pairwise_insertionSort le _) (List.pairwise_insertionSort le _) ?_
    exact (List.perm_insertionSort le _).trans (hsubjects.trans (List.perm_insertionSort le _).symm)
  exact ⟨_, sorted_eq hkey le seeds fs, by rw [sorted_eq hkey le seeds fs', hsorted]⟩

end

end AgentPassport.EvidenceRows
