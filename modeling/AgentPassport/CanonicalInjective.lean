import AgentPassport.CanonicalJcs

/-! Canonical texts identify the value: the text of a JSON value can be read back in one way
only, up to the order of object members. -/
namespace AgentPassport.CanonicalInjective
open JsText Js JsonString SeparatedText CanonicalJcs

def NumberUnit (c : UInt16) : Prop :=
  isDigit c = true ∨ c = 0x2B ∨ c = 0x2D ∨ c = 0x2E ∨ c = 0x65

/-- What is used of `JSON.stringify` on finite numbers: it tells apart all but the two zeros,
and writes digits, signs, points and exponent marks, beginning with a digit or a minus. -/
structure NumberRendering (numText : Double → Str) : Prop where
  same : ∀ d e, numText d = numText e ↔ d.scaled = e.scaled
  units : ∀ d, ∀ c ∈ numText d, NumberUnit c
  first : ∀ d, ∃ c rest, numText d = c :: rest ∧ (isDigit c = true ∨ c = 0x2D)

section Emit
variable (numText : Double → Str)

mutual
/-- The canonical text of a JSON value. -/
def emit : JsValue → Str
  | .null => lit "null"
  | .bool b => if b then lit "true" else lit "false"
  | .num (.finite d) => numText d
  | .str s => stringifyString s
  | .arr items => lit "[" ++ join 0x2C (emitItems items) ++ lit "]"
  | .obj members =>
    lit "\x7b" ++ join 0x2C ((sortByName (emitMembers members)).map
      (fun m => stringifyString m.1 ++ lit ":" ++ m.2)) ++ lit "\x7d"
  | _ => []

def emitItems : List JsValue → List Str
  | [] => []
  | v :: rest => emit v :: emitItems rest

def emitMembers : List (Str × JsValue) → List (Str × Str)
  | [] => []
  | (name, v) :: rest => (name, emit v) :: emitMembers rest
end

theorem emitItems_eq_map (items : List JsValue) : emitItems numText items = items.map (emit numText) := by
  induction items with
  | nil => simp [emitItems]
  | cons v rest ih => simp [emitItems, ih]

theorem emitMembers_eq_map (members : List (Str × JsValue)) :
    emitMembers numText members = members.map (fun m => (m.1, emit numText m.2)) := by
  induction members with
  | nil => simp [emitMembers]
  | cons m rest ih => simp [emitMembers, ih]

end Emit

theorem sortByName_map {α β : Type*} (g : Str × α → β) (members : List (Str × α)) :
    sortByName (members.map (fun m => (m.1, g m))) = (sortByName members).map (fun m => (m.1, g m)) := by
  symm
  apply List.map_insertionSort
  intro a _ b _
  exact Iff.rfl

variable {α : Type*}

theorem sortByName_perm (members : List (Str × α)) : (sortByName members).Perm members :=
  List.perm_insertionSort _ members

def memberText (f : JsValue → Str) (m : Str × JsValue) : Str := stringifyString m.1 ++ lit ":" ++ f m.2

theorem emit_arr (numText : Double → Str) (items : List JsValue) :
    emit numText (.arr items) = lit "[" ++ join 0x2C (items.map (emit numText)) ++ lit "]" := by
  rw [emit, emitItems_eq_map]

theorem emit_obj (numText : Double → Str) (members : List (Str × JsValue)) :
    emit numText (.obj members) = lit "\x7b" ++
      join 0x2C ((sortByName members).map (memberText (emit numText))) ++ lit "\x7d" := by
  rw [emit, emitMembers_eq_map, sortByName_map, List.map_map]
  rfl

section Canonicalize
variable {numText : Double → Str}

theorem assertNoLoneSurrogate_ok {s : Str} (h : WellFormed s) : assertNoLoneSurrogate s = .ok () := by
  simp only [assertNoLoneSurrogate, show JsText.loneSurrogate s = none from h]
  rfl

theorem assertItems_ok {items : List JsValue}
    (h : ∀ v ∈ items, ∀ path, assertNoUndefined path v = .ok ()) (path : Str) :
    ∀ i, assertItems path i items = .ok () := by
  induction items with
  | nil =>
    intro i
    simp [assertItems, pure, Except.pure]
  | cons v rest ih =>
    intro i
    rw [assertItems, h v List.mem_cons_self]
    exact ih (fun w hw => h w (List.mem_cons_of_mem v hw)) (i + 1)

theorem assertMembers_ok {members : List (Str × JsValue)}
    (h : ∀ m ∈ members, ∀ path, assertNoUndefined path m.2 = .ok ()) (path : Str) :
    assertMembers path members = .ok () := by
  induction members with
  | nil => simp [assertMembers, pure, Except.pure]
  | cons m rest ih =>
    rw [assertMembers, h m List.mem_cons_self]
    exact ih (fun w hw => h w (List.mem_cons_of_mem m hw))

theorem assertNoUndefined_ok {v : JsValue} (h : IsJson v) : ∀ path, assertNoUndefined path v = .ok () := by
  induction h with
  | null => intro path; simp [assertNoUndefined, pure, Except.pure]
  | bool b => intro path; simp [assertNoUndefined, pure, Except.pure]
  | num d => intro path; simp [assertNoUndefined, pure, Except.pure]
  | str hs => intro path; simp [assertNoUndefined, pure, Except.pure]
  | arr _ ih =>
    intro path
    rw [assertNoUndefined]
    exact assertItems_ok ih path 0
  | obj _ _ _ ih =>
    intro path
    rw [assertNoUndefined]
    exact assertMembers_ok ih path

theorem canonicalizeItems_ok {items : List JsValue}
    (h : ∀ v ∈ items, canonicalizeValue numText none v = .ok (emit numText v)) :
    ∀ i, canonicalizeItems numText none i items = .ok (items.map (emit numText)) := by
  induction items with
  | nil =>
    intro i
    simp [canonicalizeItems, pure, Except.pure]
  | cons v rest ih =>
    intro i
    rw [canonicalizeItems, Option.map_none, h v List.mem_cons_self,
      ih (fun w hw => h w (List.mem_cons_of_mem v hw)) (i + 1)]
    rfl

theorem canonicalizeMembers_ok {members : List (Str × JsValue)}
    (h : ∀ m ∈ members, canonicalizeValue numText none m.2 = .ok (emit numText m.2)) :
    canonicalizeMembers numText none members = members.map (fun m => (m.1, .ok (emit numText m.2))) := by
  induction members with
  | nil => simp [canonicalizeMembers]
  | cons m rest ih =>
    rw [canonicalizeMembers, Option.map_none, h m List.mem_cons_self,
      ih (fun w hw => h w (List.mem_cons_of_mem m hw))]
    rfl

theorem writePairs_ok {f : JsValue → Str} {members : List (Str × JsValue)}
    (h : ∀ m ∈ members, WellFormed m.1) :
    writePairs (members.map (fun m => (m.1, .ok (f m.2)))) = .ok (members.map (memberText f)) := by
  induction members with
  | nil => simp [writePairs, pure, Except.pure]
  | cons m rest ih =>
    rw [List.map_cons, writePairs, assertNoLoneSurrogate_ok (h m List.mem_cons_self),
      ih (fun w hw => h w (List.mem_cons_of_mem m hw))]
    rfl

theorem canonicalizeValue_ok {v : JsValue} (h : IsJson v) :
    canonicalizeValue numText none v = .ok (emit numText v) := by
  induction h with
  | null => simp [canonicalizeValue, emit, pure, Except.pure]
  | bool b => simp [canonicalizeValue, emit, pure, Except.pure]
  | num d => simp [canonicalizeValue, emit, pure, Except.pure]
  | str hs =>
    rw [canonicalizeValue, assertNoLoneSurrogate_ok hs, emit]
    rfl
  | arr _ ih =>
    rw [canonicalizeValue, canonicalizeItems_ok ih 0, emit_arr]
    rfl
  | @obj members _ hnames _ ih =>
    have hsorted : ∀ m ∈ sortByName members, WellFormed m.1 :=
      fun m hm => hnames m ((sortByName_perm members).mem_iff.mp hm)
    rw [canonicalizeValue, canonicalizeMembers_ok ih, emit_obj,
      sortByName_map (fun m => Except.ok (emit numText m.2)), writePairs_ok hsorted]
    rfl

theorem canonicalizeJCS_ok {v : JsValue} (h : IsJson v) :
    canonicalizeJCS numText v = .ok (emit numText v) := by
  rw [canonicalizeJCS, assertNoUndefined_ok h, canonicalizeValue_ok h]
  rfl

end Canonicalize

inductive Kind where
  | null | bool | num | str | arr | obj | none
  deriving DecidableEq

def kindOf : JsValue → Kind
  | .null => .null
  | .bool _ => .bool
  | .num _ => .num
  | .str _ => .str
  | .arr _ => .arr
  | .obj _ => .obj
  | _ => .none

/-- The kind of value a text begins. -/
def headKind (c : UInt16) : Kind :=
  if c = 0x6E then .null
  else if c = 0x74 ∨ c = 0x66 then .bool
  else if isDigit c = true ∨ c = 0x2D then .num
  else if c = 0x22 then .str
  else if c = 0x5B then .arr
  else if c = 0x7B then .obj
  else .none

/-- The units that follow a value inside a container. -/
def Stop (c : UInt16) : Prop := c = 0x2C ∨ c = 0x5D ∨ c = 0x7D

theorem headKind_num {c : UInt16} (h : isDigit c = true ∨ c = 0x2D) : headKind c = .num := by
  have hn : c ≠ 0x6E := by
    rintro rfl
    revert h
    decide
  have hb : ¬ (c = 0x74 ∨ c = 0x66) := by
    rintro (rfl | rfl)
    · revert h
      decide
    · revert h
      decide
  rw [headKind, if_neg hn, if_neg hb, if_pos h]

theorem stop_not_numberUnit {c : UInt16} (h : Stop c) : ¬ NumberUnit c := by
  unfold NumberUnit
  obtain rfl | rfl | rfl := h
  · decide
  · decide
  · decide

theorem memberText_readable {m : Str × JsValue}
    (hm : Readable (emit numText) Same IsJson Stop m.2) :
    Readable (memberText (emit numText)) (fun a b => a.1 = b.1 ∧ Same a.2 b.2) (fun n => IsJson n.2)
      Stop m := by
  intro n hn t u ht hu h
  simp only [memberText, List.append_assoc] at h
  obtain ⟨hname, -, hrest⟩ := stringText_unique (stringText_stringify m.1) (stringText_stringify n.1) h
  obtain ⟨hsame, htu⟩ := hm n.2 hn t u ht hu (List.append_cancel_left hrest)
  exact ⟨⟨hname, hsame⟩, htu⟩

theorem forall₂_mem {α β : Type*} {R : α → β → Prop} {xs : List α} {ys : List β} (h : List.Forall₂ R xs ys) {x : α}
    (hx : x ∈ xs) : ∃ y ∈ ys, R x y := by
  induction h with
  | nil => cases hx
  | @cons a b xs ys hab _ ih =>
    obtain rfl | hx := List.mem_cons.mp hx
    · exact ⟨b, List.mem_cons_self, hab⟩
    · obtain ⟨y, hy, hxy⟩ := ih hx
      exact ⟨y, List.mem_cons_of_mem b hy, hxy⟩

theorem forall₂_names {R : Str × α → Str × α → Prop} {ms ns : List (Str × α)}
    (h : List.Forall₂ (fun a b => a.1 = b.1 ∧ R a b) ms ns) : ms.map Prod.fst = ns.map Prod.fst := by
  induction h with
  | nil => rfl
  | cons hab _ ih => rw [List.map_cons, List.map_cons, hab.1, ih]

variable {ms ns : List (Str × JsValue)}

theorem same_obj (hms : (ms.map Prod.fst).Nodup)
    (h : List.Forall₂ (fun a b => a.1 = b.1 ∧ Same a.2 b.2) (sortByName ms) (sortByName ns)) :
    Same (.obj ms) (.obj ns) := by
  have hnames := forall₂_names h
  have hperm : (ms.map Prod.fst).Perm (ns.map Prod.fst) := by
    refine ((sortByName_perm ms).map Prod.fst).symm.trans ?_
    rw [hnames]
    exact (sortByName_perm ns).map Prod.fst
  refine .obj hperm ?_
  intro m hm n hn hmn
  obtain ⟨n', hn', hname, hsame⟩ := forall₂_mem h ((sortByName_perm ms).mem_iff.mpr hm)
  have heq : n' = n := List.inj_on_of_nodup_map (hperm.nodup_iff.mp hms)
    ((sortByName_perm ns).mem_iff.mp hn') hn (hname.symm.trans hmn)
  exact heq ▸ hsame

section Readable
variable {numText : Double → Str} (hnum : NumberRendering numText)
include hnum

theorem emit_head {v : JsValue} (h : IsJson v) :
    ∃ c rest, emit numText v = c :: rest ∧ headKind c = kindOf v := by
  cases h with
  | null => exact ⟨_, _, rfl, by decide⟩
  | bool b =>
    cases b with
    | false => exact ⟨_, _, rfl, by decide⟩
    | true => exact ⟨_, _, rfl, by decide⟩
  | num d =>
    obtain ⟨c, rest, heq, hc⟩ := hnum.first d
    exact ⟨c, rest, by rw [emit, heq], headKind_num hc⟩
  | str _ => exact ⟨0x22, _, by rw [emit]; rfl, show headKind 0x22 = .str by decide⟩
  | arr _ => exact ⟨0x5B, _, by rw [emit_arr]; rfl, show headKind 0x5B = .arr by decide⟩
  | obj _ _ _ => exact ⟨0x7B, _, by rw [emit_obj]; rfl, show headKind 0x7B = .obj by decide⟩

theorem kind_eq {v w : JsValue} (hv : IsJson v) (hw : IsJson w) {t u : Str}
    (h : emit numText v ++ t = emit numText w ++ u) : kindOf v = kindOf w := by
  obtain ⟨c, rest, hc, hkv⟩ := emit_head hnum hv
  obtain ⟨d, rest', hd, hkw⟩ := emit_head hnum hw
  rw [hc, hd, List.cons_append, List.cons_append, List.cons.injEq] at h
  rw [← hkv, ← hkw, h.1]

theorem emit_not_close {close : UInt16} (hclose : Stop close) {v : JsValue} (hv : IsJson v) (t u : Str) :
    emit numText v ++ t ≠ close :: u := by
  intro h
  obtain ⟨c, rest, hc, hk⟩ := emit_head hnum hv
  rw [hc, List.cons_append, List.cons.injEq] at h
  have hnone : headKind close = .none := by
    obtain rfl | rfl | rfl := hclose
    · decide
    · decide
    · decide
  rw [h.1, hnone] at hk
  cases hv <;> cases hk

theorem emit_readable {v : JsValue} (hv : IsJson v) : Readable (emit numText) Same IsJson Stop v := by
  induction hv with
  | null =>
    intro w hw t u _ _ h
    have hk := kind_eq hnum .null hw h
    cases hw <;> cases hk
    exact ⟨.null, List.append_cancel_left h⟩
  | bool b =>
    intro w hw t u _ _ h
    have hk := kind_eq hnum (.bool b) hw h
    cases hw <;> cases hk
    rename_i b'
    cases b <;> cases b' <;> simp only [emit] at h
    · exact ⟨.bool _, List.append_cancel_left h⟩
    · cases h
    · cases h
    · exact ⟨.bool _, List.append_cancel_left h⟩
  | num d =>
    intro w hw t u ht hu h
    have hk := kind_eq hnum (.num d) hw h
    cases hw <;> cases hk
    rename_i e
    rw [emit, emit] at h
    obtain ⟨htext, htu⟩ := token_unique (hnum.units d) (hnum.units e)
      (fun c rest hc => stop_not_numberUnit (ht c rest hc))
      (fun c rest hc => stop_not_numberUnit (hu c rest hc)) h
    exact ⟨.num ((hnum.same d e).mp htext), htu⟩
  | str hs =>
    intro w hw t u _ _ h
    have hk := kind_eq hnum (.str hs) hw h
    cases hw <;> cases hk
    rw [emit, emit] at h
    obtain ⟨rfl, -, htu⟩ := stringText_unique (stringText_stringify _) (stringText_stringify _) h
    exact ⟨.str _, htu⟩
  | @arr items hitems ih =>
    intro w hw t u _ _ h
    have hk := kind_eq hnum (.arr hitems) hw h
    cases hw <;> cases hk
    rename_i items' hitems'
    rw [emit_arr, emit_arr, List.append_assoc, List.append_assoc, List.append_assoc,
      List.append_assoc] at h
    obtain ⟨hall, htu⟩ := join_unique (.inl rfl) (.inr (.inl rfl)) (by decide)
      (fun x hx => emit_not_close hnum (.inr (.inl rfl)) hx) ih hitems hitems'
      (List.append_cancel_left h)
    obtain ⟨hlen, hzip⟩ := List.forall₂_iff_zip.mp hall
    exact ⟨.arr hlen (fun p hp => hzip hp), htu⟩
  | @obj members hnames hwf hvalues ih =>
    intro w hw t u _ _ h
    have hk := kind_eq hnum (.obj hnames hwf hvalues) hw h
    cases hw <;> cases hk
    rename_i members' hnames' hwf' hvalues'
    have hsorted : ∀ m ∈ sortByName members, m ∈ members :=
      fun m hm => (sortByName_perm members).mem_iff.mp hm
    have hsorted' : ∀ m ∈ sortByName members', m ∈ members' :=
      fun m hm => (sortByName_perm members').mem_iff.mp hm
    rw [emit_obj, emit_obj, List.append_assoc, List.append_assoc, List.append_assoc,
      List.append_assoc] at h
    obtain ⟨hall, htu⟩ := join_unique (Q := fun m => IsJson m.2) (.inl rfl) (.inr (.inr rfl)) (by decide)
      (fun m _ t u hm => by cases hm)
      (fun m hm => memberText_readable (ih m (hsorted m hm)))
      (fun m hm => hvalues m (hsorted m hm)) (fun m hm => hvalues' m (hsorted' m hm))
      (List.append_cancel_left h)
    exact ⟨same_obj hnames hall, htu⟩

end Readable

theorem sortByName_pairwise (members : List (Str × α)) : (sortByName members).Pairwise (fun a b => a.1 ≤ b.1) := by
  have : IsTrans (Str × α) (fun a b => a.1 ≤ b.1) := ⟨fun _ _ _ => List.le_trans⟩
  have : Std.Total (fun a b : Str × α => a.1 ≤ b.1) := ⟨fun a b => List.le_total a.1 b.1⟩
  exact List.pairwise_insertionSort _ members

theorem sortByName_eq_of_perm {ms ns : List (Str × α)} (h : ms.Perm ns) (hnames : (ms.map Prod.fst).Nodup) :
    sortByName ms = sortByName ns := by
  have hperm : (sortByName ms).Perm (sortByName ns) :=
    (sortByName_perm ms).trans (h.trans (sortByName_perm ns).symm)
  refine hperm.eq_of_pairwise ?_ (sortByName_pairwise ms) (sortByName_pairwise ns)
  intro a b ha hb hab hba
  exact List.inj_on_of_nodup_map hnames ((sortByName_perm ms).mem_iff.mp ha)
    (h.mem_iff.mpr ((sortByName_perm ns).mem_iff.mp hb)) (List.le_antisymm hab hba)

theorem emitted_subset {f : JsValue → Str} (hnames : (ms.map Prod.fst).Perm (ns.map Prod.fst))
    (h : ∀ m ∈ ms, ∀ n ∈ ns, m.1 = n.1 → f m.2 = f n.2) {p : Str × Str} (hp : p ∈ ms.map (fun m => (m.1, f m.2))) :
    p ∈ ns.map (fun m => (m.1, f m.2)) := by
  obtain ⟨m, hm, rfl⟩ := List.mem_map.mp hp
  obtain ⟨n, hn, hname⟩ := List.mem_map.mp (hnames.mem_iff.mp (List.mem_map_of_mem hm))
  refine List.mem_map.mpr ⟨n, hn, ?_⟩
  rw [h m hm n hn hname.symm, hname]

theorem emitted_perm {f : JsValue → Str} (hms : (ms.map Prod.fst).Nodup)
    (hnames : (ms.map Prod.fst).Perm (ns.map Prod.fst)) (h : ∀ m ∈ ms, ∀ n ∈ ns, m.1 = n.1 → f m.2 = f n.2) :
    (ms.map (fun m => (m.1, f m.2))).Perm (ns.map (fun m => (m.1, f m.2))) := by
  have hfst : ∀ xs : List (Str × JsValue),
      (xs.map (fun m => (m.1, f m.2))).map Prod.fst = xs.map Prod.fst := by
    intro xs
    rw [List.map_map]
    rfl
  have hnodup : ∀ xs : List (Str × JsValue), (xs.map Prod.fst).Nodup →
      (xs.map (fun m => (m.1, f m.2))).Nodup := by
    intro xs hxs
    rw [← hfst xs] at hxs
    exact hxs.of_map Prod.fst
  rw [List.perm_ext_iff_of_nodup (hnodup ms hms) (hnodup ns (hnames.nodup_iff.mp hms))]
  intro p
  constructor
  · exact emitted_subset hnames h
  · exact emitted_subset hnames.symm (fun n hn m hm hname => (h m hm n hn hname.symm).symm)

section
variable {numText : Double → Str} (hnum : NumberRendering numText)
include hnum

theorem emit_congr {v w : JsValue} (h : Same v w) :
    IsJson v → IsJson w → emit numText v = emit numText w := by
  induction h with
  | null =>
    intro _ _
    rfl
  | bool b =>
    intro _ _
    rfl
  | num hde =>
    intro _ _
    rw [emit, emit]
    exact (hnum.same _ _).mpr hde
  | str s =>
    intro _ _
    rfl
  | @arr xs ys hlen _ ih =>
    intro hv hw
    cases hv with | arr hxs =>
    cases hw with | arr hys =>
    have hmap : List.Forall₂ (fun x y => emit numText x = emit numText y) xs ys := by
      rw [List.forall₂_iff_zip]
      refine ⟨hlen, ?_⟩
      intro x y hxy
      obtain ⟨hx, hy⟩ := List.of_mem_zip hxy
      exact ih (x, y) hxy (hxs x hx) (hys y hy)
    have heq := List.forall₂_map_left_iff.mpr (List.forall₂_map_right_iff.mpr hmap)
    rw [List.forall₂_eq_eq_eq] at heq
    rw [emit_arr, emit_arr, heq]
  | @obj ms ns hnames _ ih =>
    intro hv hw
    cases hv with | obj hms _ hvm =>
    cases hw with | obj hns _ hvn =>
    have hperm := emitted_perm hms hnames
      (fun m hm n hn hname => ih m hm n hn hname (hvm m hm) (hvn n hn))
    have hfst : ((ms.map (fun m => (m.1, emit numText m.2))).map Prod.fst).Nodup := by
      rw [List.map_map]
      exact hms
    rw [emit, emit, emitMembers_eq_map, emitMembers_eq_map, sortByName_eq_of_perm hperm hfst]

theorem emit_eq_iff {v w : JsValue} (hv : IsJson v) (hw : IsJson w) :
    emit numText v = emit numText w ↔ Same v w := by
  constructor
  · intro h
    refine (emit_readable hnum hv w hw [] [] (ends_nil Stop) (ends_nil Stop) ?_).1
    rw [h]
  · intro h
    exact emit_congr hnum h hv hw

end

def intText (z : Int) : Str := if z < 0 then 0x2D :: decimal z.natAbs else decimal z.natAbs

/-- Agrees with `JSON.stringify` on the safe integers; any other number is marked by its last unit. -/
def integerText (d : Double) : Str :=
  if d.isSafeInteger then intText d.toInt else intText d.scaled ++ [0x65]

theorem intText_first (z : Int) : ∃ c rest, intText z = c :: rest ∧ (isDigit c = true ∨ c = 0x2D) := by
  unfold intText
  split
  · exact ⟨_, _, rfl, .inr rfl⟩
  · obtain ⟨c, rest, hc⟩ := List.exists_cons_of_ne_nil (decimal_ne_nil z.natAbs)
    exact ⟨c, rest, hc, .inl (decimal_digits (hc ▸ List.mem_cons_self))⟩

theorem intText_units {z : Int} {c : UInt16} (h : c ∈ intText z) : isDigit c = true ∨ c = 0x2D := by
  unfold intText at h
  split at h
  · obtain rfl | h := List.mem_cons.mp h
    · exact .inr rfl
    · exact .inl (decimal_digits h)
  · exact .inl (decimal_digits h)

theorem minus_not_decimal (m n : Nat) : 0x2D :: decimal m ≠ decimal n := by
  intro h
  have hdigit : isDigit 0x2D = true := decimal_digits (h ▸ List.mem_cons_self : 0x2D ∈ decimal n)
  revert hdigit
  decide

theorem intText_injective {y z : Int} (h : intText y = intText z) : y = z := by
  unfold intText at h
  split at h <;> split at h
  · have habs := decimal_injective (List.cons.inj h).2
    omega
  · exact absurd h (minus_not_decimal _ _)
  · exact absurd h.symm (minus_not_decimal _ _)
  · have habs := decimal_injective h
    omega

theorem intText_ne_marked (y z : Int) : intText y ≠ intText z ++ [0x65] := by
  intro h
  have hmem : (0x65 : UInt16) ∈ intText y := by
    rw [h]
    exact List.mem_append_right _ List.mem_cons_self
  have hunit := intText_units hmem
  revert hunit
  decide

theorem scaled_of_safe {d : Double} (h : d.isSafeInteger = true) : d.scaled = d.toInt * scaleOne := by
  have hmod : d.scaled % scaleOne = 0 := by
    simp only [Double.isSafeInteger, Double.isInteger, Bool.and_eq_true, decide_eq_true_eq] at h
    exact h.1
  exact (Int.ediv_mul_cancel (Int.dvd_of_emod_eq_zero hmod)).symm

theorem integerText_rendering : NumberRendering integerText := by
  constructor
  · intro d e
    constructor
    · intro h
      unfold integerText at h
      split at h <;> split at h
      · rename_i hd he
        rw [scaled_of_safe hd, scaled_of_safe he, intText_injective h]
      · exact absurd h (intText_ne_marked _ _)
      · exact absurd h.symm (intText_ne_marked _ _)
      · exact intText_injective (List.append_cancel_right h)
    · intro h
      have hint : d.toInt = e.toInt := by rw [Double.toInt, Double.toInt, h]
      have hsafe : d.isSafeInteger = e.isSafeInteger := by
        rw [Double.isSafeInteger, Double.isSafeInteger, Double.isInteger, Double.isInteger, h, hint]
      rw [integerText, integerText, hsafe, hint, h]
  · intro d c hc
    have hunit : isDigit c = true ∨ c = 0x2D ∨ c = 0x65 := by
      unfold integerText at hc
      split at hc
      · exact (intText_units hc).imp_right .inl
      · obtain hc | hc := List.mem_append.mp hc
        · exact (intText_units hc).imp_right .inl
        · exact .inr (.inr (List.mem_singleton.mp hc))
    obtain hdigit | rfl | rfl := hunit
    · exact .inl hdigit
    · exact .inr (.inr (.inl rfl))
    · exact .inr (.inr (.inr (.inr rfl)))
  · intro d
    unfold integerText
    split
    · exact intText_first _
    · obtain ⟨c, rest, heq, hc⟩ := intText_first d.scaled
      exact ⟨c, rest ++ [0x65], by rw [heq]; rfl, hc⟩

theorem isJson_omit (name : Str) {v : JsValue} (h : IsJson v) : IsJson (omitMember name v) := by
  cases h with
  | null => exact .null
  | bool b => exact .bool b
  | num d => exact .num d
  | str hs => exact .str hs
  | arr hitems => exact .arr hitems
  | obj hnames hwf hvalues =>
    exact .obj (hnames.sublist (List.filter_sublist.map Prod.fst))
      (fun m hm => hwf m (List.mem_of_mem_filter hm))
      (fun m hm => hvalues m (List.mem_of_mem_filter hm))

variable {v w : JsValue}

theorem same_omit (name : Str) (h : Same v w) : Same (omitMember name v) (omitMember name w) := by
  cases h with
  | null => exact .null
  | bool b => exact .bool b
  | num hde => exact .num hde
  | str s => exact .str s
  | arr hlen hitems => exact .arr hlen hitems
  | @obj ms ns hnames hmembers =>
    refine .obj ?_ (fun m hm n hn => hmembers m (List.mem_of_mem_filter hm) n (List.mem_of_mem_filter hn))
    have hfilter : ∀ xs : List (Str × JsValue), (xs.filter (fun m => m.1 ≠ name)).map Prod.fst =
        (xs.map Prod.fst).filter (fun k => k ≠ name) := by
      intro xs
      rw [List.filter_map]
      rfl
    rw [hfilter, hfilter]
    exact hnames.filter _

theorem omit_comm (name name' : Str) (v : JsValue) :
    omitMember name (omitMember name' v) = omitMember name' (omitMember name v) := by
  cases v <;> simp only [omitMember]
  rw [List.filter_filter, List.filter_filter]
  simp only [Bool.and_comm]

section
variable {numText : Double → Str} (hnum : NumberRendering numText)
include hnum

theorem canonicalizeJCS_eq_iff (hv : IsJson v) (hw : IsJson w) :
    canonicalizeJCS numText v = canonicalizeJCS numText w ↔ Same v w := by
  rw [canonicalizeJCS_ok hv, canonicalizeJCS_ok hw, Except.ok.injEq]
  exact emit_eq_iff hnum hv hw

theorem idInput_eq_iff (hv : IsJson v) (hw : IsJson w) :
    authorityDelegationIdInput numText v = authorityDelegationIdInput numText w ↔ Same v w := by
  rw [← canonicalizeJCS_eq_iff hnum hv hw, authorityDelegationIdInput, authorityDelegationIdInput,
    canonicalizeJCS_ok hv, canonicalizeJCS_ok hw]
  simp [pure, Except.pure, bind, Except.bind]

theorem signatureInput_eq_iff (hv : IsJson v) (hw : IsJson w) :
    authorityDelegationSignatureInput numText v = authorityDelegationSignatureInput numText w ↔
      Same v w := by
  rw [← canonicalizeJCS_eq_iff hnum hv hw, authorityDelegationSignatureInput,
    authorityDelegationSignatureInput, canonicalizeJCS_ok hv, canonicalizeJCS_ok hw]
  simp [pure, Except.pure, bind, Except.bind]

end

/-- Canonical texts identify JSON values up to the order of members. Two bodies with one id
preimage are the same body, and two records with one signature preimage have the same body. -/
theorem canonical_text_identifies {numText : Double → Str} (hnum : NumberRendering numText)
    {v w : JsValue} (hv : IsJson v) (hw : IsJson w) :
    (∃ s, canonicalizeJCS numText v = .ok s) ∧ (∃ s, canonicalizeJCS numText w = .ok s) ∧
    (canonicalizeJCS numText v = canonicalizeJCS numText w ↔ Same v w) ∧
    (authorityDelegationIdInput numText v = authorityDelegationIdInput numText w ↔ Same v w) ∧
    (authorityDelegationSignatureInput numText v = authorityDelegationSignatureInput numText w ↔
      Same v w) ∧
    (authorityDelegationSignatureInput numText (unsignedDelegation v) =
        authorityDelegationSignatureInput numText (unsignedDelegation w) →
      Same (authorityDelegationBody v) (authorityDelegationBody w)) := by
  refine ⟨⟨_, canonicalizeJCS_ok hv⟩, ⟨_, canonicalizeJCS_ok hw⟩, canonicalizeJCS_eq_iff hnum hv hw,
    idInput_eq_iff hnum hv hw, signatureInput_eq_iff hnum hv hw, ?_⟩
  intro h
  have hsame := (signatureInput_eq_iff hnum (isJson_omit (lit "signature") hv)
    (isJson_omit (lit "signature") hw)).mp h
  unfold authorityDelegationBody
  rw [omit_comm, omit_comm (lit "signature") _ w]
  exact same_omit _ hsame

theorem canonical_text_identifies_reordered :
    Same (.obj [(lit "b", .arr [.num (.finite .one), .bool true]), (lit "a", .null)])
      (.obj [(lit "a", .null), (lit "b", .arr [.num (.finite .one), .bool true])]) ∧
    canonicalizeJCS integerText (.obj [(lit "b", .arr [.num (.finite .one), .bool true]), (lit "a", .null)]) =
      .ok (lit "\x7b\"a\":null,\"b\":[1,true]\x7d") := by
  have hitems : ∀ v ∈ [JsValue.num (.finite .one), .bool true], IsJson v := by
    intro v hv
    obtain rfl | rfl : v = .num (.finite .one) ∨ v = .bool true := by simpa using hv
    · exact .num .one
    · exact .bool true
  have hv : IsJson (.obj [(lit "b", .arr [.num (.finite .one), .bool true]), (lit "a", .null)]) := by
    refine .obj (by decide) ?_ ?_
    · simp only [List.mem_cons, List.not_mem_nil, or_false, forall_eq_or_imp, forall_eq]
      decide
    · simp only [List.mem_cons, List.not_mem_nil, or_false, forall_eq_or_imp, forall_eq]
      exact ⟨.arr hitems, .null⟩
  have hw : IsJson (.obj [(lit "a", .null), (lit "b", .arr [.num (.finite .one), .bool true])]) := by
    refine .obj (by decide) ?_ ?_
    · simp only [List.mem_cons, List.not_mem_nil, or_false, forall_eq_or_imp, forall_eq]
      decide
    · simp only [List.mem_cons, List.not_mem_nil, or_false, forall_eq_or_imp, forall_eq]
      exact ⟨.null, .arr hitems⟩
  exact ⟨(canonical_text_identifies integerText_rendering hv hw).2.2.1.mp (by decide +kernel),
    by decide +kernel⟩

end AgentPassport.CanonicalInjective
