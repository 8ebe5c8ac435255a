import Mathlib.Data.List.Forall2

/-! What a fallible computation returns and exactly when it does. -/
namespace AgentPassport.Outcome
variable {ε α β : Type}

theorem bind_eq_ok {x : Except ε α} {f : α → Except ε β} {r : β} :
    (x >>= f) = .ok r ↔ ∃ a, x = .ok a ∧ f a = .ok r := by
  cases x with
  | error e =>
    constructor
    · intro h
      cases h
    · rintro ⟨a, h, -⟩
      cases h
  | ok a =>
    constructor
    · intro h
      exact ⟨a, rfl, h⟩
    · rintro ⟨b, hb, h⟩
      cases hb
      exact h

theorem bind_eq_error {x : Except ε α} {f : α → Except ε β} {e : ε} :
    (x >>= f) = .error e ↔ x = .error e ∨ ∃ a, x = .ok a ∧ f a = .error e := by
  cases x with
  | error e' =>
    constructor
    · intro h
      cases h
      exact .inl rfl
    · rintro (h | ⟨a, h, -⟩)
      · cases h
        rfl
      · cases h
  | ok a =>
    constructor
    · intro h
      exact .inr ⟨a, rfl, h⟩
    · rintro (h | ⟨b, hb, h⟩)
      · cases h
      · cases hb
        exact h

theorem exists_of_isOk {r : Except ε α} (h : r.isOk = true) : ∃ a, r = .ok a := by
  cases r with
  | error e => cases h
  | ok a => exact ⟨a, rfl⟩

theorem exists_ok_of_map {r : Except ε α} {f : α → β} {b : β} (h : r.toOption.map f = some b) :
    ∃ a, r = .ok a ∧ f a = b := by
  cases r with
  | error e => cases h
  | ok a => exact ⟨a, rfl, Option.some.inj h⟩

theorem mapM_forall₂ {f : α → Except ε β} {l : List α} : ∀ {ys : List β},
    l.mapM f = .ok ys ↔ List.Forall₂ (fun x y => f x = .ok y) l ys := by
  induction l with
  | nil =>
    intro ys
    rw [List.mapM_nil, List.forall₂_nil_left_iff]
    exact ⟨fun h => (Except.ok.inj h).symm, fun h => congrArg Except.ok h.symm⟩
  | cons x rest ih =>
    intro ys
    rw [List.mapM_cons, List.forall₂_cons_left_iff]
    constructor
    · intro h
      obtain ⟨first, hfirst, h⟩ := bind_eq_ok.mp h
      obtain ⟨others, hothers, h⟩ := bind_eq_ok.mp h
      cases h
      exact ⟨first, others, hfirst, ih.mp hothers, rfl⟩
    · rintro ⟨first, others, hfirst, hothers, rfl⟩
      exact bind_eq_ok.mpr ⟨first, hfirst, bind_eq_ok.mpr ⟨others, ih.mpr hothers, rfl⟩⟩

theorem mapM_values {γ : Type} [Inhabited β] {f : α → Except ε β} {g : α → β → γ} {l : List α} {ys : List γ}
    (h : l.mapM (fun x => do return g x (← f x)) = .ok ys) :
    ∃ value : α → β, ys = l.map (fun x => g x (value x)) ∧ ∀ x ∈ l, f x = .ok (value x) := by
  obtain ⟨value, hdef⟩ : ∃ value : α → β, ∀ x, value x = (f x).toOption.getD default := ⟨_, fun _ => rfl⟩
  refine ⟨value, ?_⟩
  induction l generalizing ys with
  | nil =>
    rw [List.mapM_nil] at h
    cases h
    exact ⟨rfl, fun x hx => absurd hx List.not_mem_nil⟩
  | cons x rest ih =>
    rw [List.mapM_cons] at h
    obtain ⟨first, hfirst, h⟩ := bind_eq_ok.mp h
    obtain ⟨others, hothers, h⟩ := bind_eq_ok.mp h
    obtain ⟨y, hy, hfirst⟩ := bind_eq_ok.mp hfirst
    cases hfirst
    cases h
    obtain ⟨hmap, hall⟩ := ih hothers
    have hvalue : value x = y := by
      rw [hdef, hy]
      rfl
    refine ⟨?_, List.forall_mem_cons.mpr ⟨?_, hall⟩⟩
    · rw [List.map_cons, hmap, hvalue]
    · rw [hvalue, hy]

/-- The computation returns `a` if the condition holds and fails if it does not. -/
def Decides (r : Except ε α) (cond : Prop) (a : α) : Prop :=
  (cond → r = .ok a) ∧ (¬ cond → ∃ e, r = .error e)

theorem Decides.pure (a : α) : Decides (.ok a : Except ε α) True a :=
  ⟨fun _ => rfl, fun h => absurd trivial h⟩

theorem Decides.fail (e : ε) (a : α) : Decides (.error e : Except ε α) False a :=
  ⟨fun h => h.elim, fun _ => ⟨e, rfl⟩⟩

theorem Decides.of_iff {r : Except ε α} {cond cond' : Prop} {a : α} (h : Decides r cond a)
    (hiff : cond ↔ cond') : Decides r cond' a :=
  ⟨fun hc => h.1 (hiff.mpr hc), fun hc => h.2 (fun hc' => hc (hiff.mp hc'))⟩

theorem Decides.bind {x : Except ε α} {f : α → Except ε β} {cond cond' : Prop} {a : α} {b : β}
    (hx : Decides x cond a) (hf : cond → Decides (f a) cond' b) :
    Decides (x >>= f) (cond ∧ cond') b := by
  constructor
  · rintro ⟨hc, hc'⟩
    rw [hx.1 hc]
    exact (hf hc).1 hc'
  · intro hnot
    by_cases hc : cond
    · rw [hx.1 hc]
      exact (hf hc).2 (fun hc' => hnot ⟨hc, hc'⟩)
    · obtain ⟨e, he⟩ := hx.2 hc
      exact ⟨e, by rw [he]; rfl⟩

theorem Decides.map {x : Except ε α} {g : α → β} {cond : Prop} {a : α} (hx : Decides x cond a) :
    Decides (x >>= fun a => Pure.pure (g a)) cond (g a) := by
  have hpure : cond → Decides (Pure.pure (g a) : Except ε β) True (g a) := fun _ => Decides.pure (g a)
  exact (hx.bind hpure).of_iff (iff_of_eq (and_true cond))

theorem Decides.mapM {f : α → Except ε β} {p : α → Prop} {g : α → β} (h : ∀ a, Decides (f a) (p a) (g a)) (l : List α) :
    Decides (l.mapM f) (∀ a ∈ l, p a) (l.map g) := by
  induction l with
  | nil => exact (Decides.pure ([] : List β)).of_iff (iff_of_true trivial (List.forall_mem_nil p))
  | cons a rest ih =>
    rw [List.mapM_cons, List.map_cons]
    exact ((h a).bind fun _ => ih.map).of_iff List.forall_mem_cons.symm

theorem Decides.eq_ok_iff {r : Except ε α} {cond : Prop} {a b : α} (h : Decides r cond a) :
    r = .ok b ↔ cond ∧ b = a := by
  constructor
  · intro hr
    by_cases hc : cond
    · exact ⟨hc, Except.ok.inj (hr.symm.trans (h.1 hc))⟩
    · obtain ⟨e, he⟩ := h.2 hc
      cases hr.symm.trans he
  · rintro ⟨hc, rfl⟩
    exact h.1 hc

theorem Decides.cond_of_ok {r : Except ε α} {cond : Prop} {a b : α} (h : Decides r cond a)
    (hr : r = .ok b) : cond ∧ b = a := h.eq_ok_iff.mp hr

theorem toOption_bind_congr {x y : Except ε α} {f : α → Except ε β} (h : x.toOption = y.toOption) :
    (x >>= f).toOption = (y >>= f).toOption := by
  cases x with
  | error e =>
    cases y with
    | error e' => rfl
    | ok b => cases h
  | ok a =>
    cases y with
    | error e' => cases h
    | ok b =>
      cases h
      rfl

theorem foldlM_toOption {f g : β → α → Except ε β} {l : List α}
    (h : ∀ b, ∀ a ∈ l, (f b a).toOption = (g b a).toOption) :
    ∀ b, (l.foldlM f b).toOption = (l.foldlM g b).toOption := by
  induction l with
  | nil =>
    intro b
    rfl
  | cons a rest ih =>
    intro b
    have ih := ih (fun b a ha => h b a (List.mem_cons_of_mem _ ha))
    have hfirst := h b a List.mem_cons_self
    rw [List.foldlM_cons, List.foldlM_cons]
    cases hf : f b a with
    | error e =>
      rw [hf] at hfirst
      cases hg : g b a with
      | error e' => rfl
      | ok c =>
        rw [hg] at hfirst
        cases hfirst
    | ok c =>
      rw [hf] at hfirst
      cases hg : g b a with
      | error e' =>
        rw [hg] at hfirst
        cases hfirst
      | ok c' =>
        rw [hg] at hfirst
        cases hfirst
        exact ih c

def forEach (f : Nat → α → Except ε Unit) : Nat → List α → Except ε Unit
  | _, [] => .ok ()
  | i, x :: rest => do
    f i x
    forEach f (i + 1) rest

/-- The check at every position but the first, with the element before it. -/
def forPairs (f : Nat → α → α → Except ε Unit) : Nat → List α → Except ε Unit
  | i, a :: b :: rest => do
    f i a b
    forPairs f (i + 1) (b :: rest)
  | _, _ => .ok ()

theorem bind_unit_eq_ok {x : Except ε Unit} {y : Except ε β} {b : β} :
    (x >>= fun _ => y) = .ok b ↔ x = .ok () ∧ y = .ok b := by
  rw [bind_eq_ok]
  constructor
  · rintro ⟨_, hx, hy⟩
    exact ⟨hx, hy⟩
  · rintro ⟨hx, hy⟩
    exact ⟨(), hx, hy⟩

theorem forEach_eq_ok {f : Nat → α → Except ε Unit} {p : α → Prop} (h : ∀ i x, f i x = .ok () ↔ p x)
    (i : Nat) (l : List α) : forEach f i l = .ok () ↔ ∀ x ∈ l, p x := by
  induction l generalizing i with
  | nil => simp [forEach]
  | cons x rest ih =>
    rw [forEach, bind_unit_eq_ok, h, ih (i + 1), List.forall_mem_cons]

theorem forEach_ne_error {f : Nat → α → Except ε Unit} {e : ε} (h : ∀ i x, f i x ≠ .error e) (i : Nat)
    (l : List α) : forEach f i l ≠ .error e := by
  induction l generalizing i with
  | nil =>
    intro hl
    cases hl
  | cons x rest ih =>
    intro hl
    rw [forEach, bind_eq_error] at hl
    obtain hx | ⟨_, -, hrest⟩ := hl
    · exact h i x hx
    · exact ih (i + 1) hrest

theorem forPairs_eq_ok {f : Nat → α → α → Except ε Unit} {r : α → α → Prop}
    (h : ∀ i a b, f i a b = .ok () ↔ r a b) (i : Nat) (l : List α) :
    forPairs f i l = .ok () ↔ l.IsChain r := by
  induction l generalizing i with
  | nil => simp [forPairs]
  | cons a rest ih =>
    cases rest with
    | nil => simp [forPairs]
    | cons b rest =>
      rw [forPairs, bind_unit_eq_ok, h, ih (i + 1), List.isChain_cons_cons]

theorem forPairs_ne_error {f : Nat → α → α → Except ε Unit} {e : ε} (h : ∀ i a b, f i a b ≠ .error e) (i : Nat)
    (l : List α) : forPairs f i l ≠ .error e := by
  induction l generalizing i with
  | nil =>
    intro hl
    cases hl
  | cons a rest ih =>
    cases rest with
    | nil =>
      intro hl
      cases hl
    | cons b rest =>
      intro hl
      obtain hfirst | ⟨_, -, hrest⟩ := bind_eq_error.mp hl
      · exact h i a b hfirst
      · exact ih (i + 1) hrest

section
variable {σ γ : Type}

/-- The turns in order, up to the first that gives something; every turn adds to the record and may
change the state. -/
def firstSuccess (turn : σ → α → Except ε (β × Option γ × σ)) (s : σ) :
    List α → Except ε (List β × Option (α × γ) × σ)
  | [] => .ok ([], none, s)
  | a :: rest => do
    let (b, given, s') ← turn s a
    match given with
    | some c => return ([b], some (a, c), s')
    | none => do
      let (bs, found, s'') ← firstSuccess turn s' rest
      return (b :: bs, found, s'')

theorem firstSuccess_cons {turn : σ → α → Except ε (β × Option γ × σ)} {s s' : σ} {a : α} {rest : List α}
    {bs : List β} {found : Option (α × γ)} (h : firstSuccess turn s (a :: rest) = .ok (bs, found, s')) :
    (∃ b c, turn s a = .ok (b, some c, s') ∧ bs = [b] ∧ found = some (a, c)) ∨
      ∃ b s₁ tail, turn s a = .ok (b, none, s₁) ∧ bs = b :: tail ∧
        firstSuccess turn s₁ rest = .ok (tail, found, s') := by
  rw [firstSuccess] at h
  obtain ⟨⟨b, given, s₁⟩, hturn, h⟩ := bind_eq_ok.mp h
  cases given with
  | some c =>
    cases h
    exact .inl ⟨b, c, hturn, rfl, rfl⟩
  | none =>
    obtain ⟨⟨tail, found', s₂⟩, hrest, h⟩ := bind_eq_ok.mp h
    cases h
    exact .inr ⟨b, s₁, tail, hturn, rfl, hrest⟩

/-- Where a turn that gives nothing changes nothing, the loop ends at the first turn that gives
something in the state it began with. -/
theorem firstSuccess_some {turn : σ → α → Except ε (β × Option γ × σ)}
    (hkeep : ∀ s a b s', turn s a = .ok (b, none, s') → s' = s) {l : List α} :
    ∀ {s s' : σ} {bs : List β} {a : α} {c : γ}, firstSuccess turn s l = .ok (bs, some (a, c), s') →
      ∃ before after b, l = before ++ a :: after ∧ turn s a = .ok (b, some c, s') ∧
        ∀ x ∈ before, ∃ b, turn s x = .ok (b, none, s) := by
  induction l with
  | nil =>
    intro s s' bs a c h
    cases h
  | cons x rest ih =>
    intro s s' bs a c h
    obtain ⟨b, c', hturn, -, hfound⟩ | ⟨b, s₁, tail, hturn, -, hrest⟩ := firstSuccess_cons h
    · cases hfound
      exact ⟨[], rest, b, rfl, hturn, List.forall_mem_nil _⟩
    · have hsame := hkeep s x b s₁ hturn
      subst hsame
      obtain ⟨before, after, b', hsplit, hgiven, hbefore⟩ := ih hrest
      refine ⟨x :: before, after, b', ?_, hgiven, List.forall_mem_cons.mpr ⟨⟨b, hturn⟩, hbefore⟩⟩
      rw [hsplit, List.cons_append]

theorem firstSuccess_none {turn : σ → α → Except ε (β × Option γ × σ)}
    (hkeep : ∀ s a b s', turn s a = .ok (b, none, s') → s' = s) {l : List α} :
    ∀ {s s' : σ} {bs : List β}, firstSuccess turn s l = .ok (bs, none, s') →
      s' = s ∧ ∀ x ∈ l, ∃ b, turn s x = .ok (b, none, s) := by
  induction l with
  | nil =>
    intro s s' bs h
    cases h
    exact ⟨rfl, List.forall_mem_nil _⟩
  | cons x rest ih =>
    intro s s' bs h
    obtain ⟨b, c', -, -, hfound⟩ | ⟨b, s₁, tail, hturn, -, hrest⟩ := firstSuccess_cons h
    · cases hfound
    · have hsame := hkeep s x b s₁ hturn
      subst hsame
      obtain ⟨hend, hall⟩ := ih hrest
      exact ⟨hend, List.forall_mem_cons.mpr ⟨⟨b, hturn⟩, hall⟩⟩

theorem firstSuccess_returns {turn : σ → α → Except ε (β × Option γ × σ)} {l : List α}
    (h : ∀ s, ∀ a ∈ l, ∃ r, turn s a = .ok r) : ∀ s, ∃ r, firstSuccess turn s l = .ok r := by
  induction l with
  | nil => exact fun s => ⟨_, rfl⟩
  | cons a rest ih =>
    intro s
    obtain ⟨⟨b, given, s'⟩, hturn⟩ := h s a List.mem_cons_self
    rw [firstSuccess, hturn]
    cases given with
    | some c => exact ⟨_, rfl⟩
    | none =>
      obtain ⟨⟨bs, found, s''⟩, hrest⟩ := ih (fun s x hx => h s x (List.mem_cons_of_mem a hx)) s'
      exact ⟨(b :: bs, found, s''), bind_eq_ok.mpr ⟨_, rfl, bind_eq_ok.mpr ⟨_, hrest, rfl⟩⟩⟩

theorem firstSuccess_record {turn : σ → α → Except ε (β × Option γ × σ)} {δ : Type} {f : β → δ} {g : α → δ}
    (hturn : ∀ s a b given s', turn s a = .ok (b, given, s') → f b = g a) {l : List α} :
    ∀ {s s' : σ} {bs : List β} {found : Option (α × γ)}, firstSuccess turn s l = .ok (bs, found, s') →
      bs.map f <+: l.map g := by
  induction l with
  | nil =>
    intro s s' bs found h
    cases h
    exact List.prefix_refl _
  | cons x rest ih =>
    intro s s' bs found h
    obtain ⟨b, c, hx, rfl, -⟩ | ⟨b, s₁, tail, hx, rfl, hrest⟩ := firstSuccess_cons h
    · rw [List.map_cons, List.map_cons, hturn s x b _ _ hx]
      exact ⟨rest.map g, rfl⟩
    · rw [List.map_cons, List.map_cons, hturn s x b _ _ hx, List.prefix_cons_inj]
      exact ih hrest

end

end AgentPassport.Outcome
