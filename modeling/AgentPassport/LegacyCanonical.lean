import AgentPassport.CanonicalWrite

/-! The legacy canonicalizer and its write twin (`core/canonical.ts`), against RFC 8785
canonicalization of the value with its null members removed. -/
namespace AgentPassport.LegacyCanonical
open JsText Js JsonString SeparatedText CanonicalJcs CanonicalInjective CanonicalWrite Outcome

/-- What the legacy canonicalizers throw: `JSON.stringify` on a bigint, and the write rule. -/
inductive LegacyError where
  | bigint
  | unsafeInteger (path : Str)
  deriving DecidableEq

def unicodeEscape (c : UInt16) : Str :=
  lit "\\u" ++ [hexChar (c.toNat / 4096), hexChar (c.toNat / 256 % 16), hexChar (c.toNat / 16 % 16),
    hexChar (c.toNat % 16)]

/-- The units `JSON.stringify` writes for a string; an unpaired surrogate is escaped. -/
def escapeUnits : Str → Str
  | [] => []
  | [c] => if isHigh c || isLow c then unicodeEscape c else escapeUnit c
  | c :: d :: rest =>
    if isHigh c then
      if isLow d then escapeUnit c ++ (escapeUnit d ++ escapeUnits rest)
      else unicodeEscape c ++ escapeUnits (d :: rest)
    else if isLow c then unicodeEscape c ++ escapeUnits (d :: rest)
    else escapeUnit c ++ escapeUnits (d :: rest)

/-- `JSON.stringify` on any string. -/
def stringify (s : Str) : Str := 0x22 :: (escapeUnits s ++ [0x22])

/-- `val === null || val === undefined`. -/
def nullish : JsValue → Bool
  | .null => true
  | .undefined => true
  | _ => false

/-- A part that is undefined is written empty by `join`. -/
def joined (parts : List (Option Str)) : Str := join 0x2C (parts.map (·.getD []))

/-- The text of a member; a template writes undefined out. -/
def pairText (name : Str) (text : Option Str) : Str :=
  stringify name ++ lit ":" ++ text.getD (lit "undefined")

/-- `map` over the keys that are left. -/
def mapPairs : List (Str × JsValue × Except LegacyError (Option Str)) → Except LegacyError (List Str)
  | [] => return []
  | (name, _, text) :: rest => do
    let text ← text
    let pairs ← mapPairs rest
    return pairText name text :: pairs

/-- The loop of the write twin, which skips as it goes. -/
def pushPairs : List (Str × JsValue × Except LegacyError (Option Str)) → Except LegacyError (List Str)
  | [] => return []
  | (name, val, text) :: rest =>
    if nullish val then pushPairs rest
    else do
      let text ← text
      let pairs ← pushPairs rest
      return pairText name text :: pairs

section
variable (numText : Double → Str)

/-- `JSON.stringify` on a value that is no container; on functions and symbols it is undefined. -/
def stringifyPrimitive : JsValue → Except LegacyError (Option Str)
  | .bool b => return some (if b then lit "true" else lit "false")
  | .num (.finite d) => return some (numText d)
  | .str s => return some (stringify s)
  | .other .bigint => throw .bigint
  | .other _ => return none
  | .date (some iso) => return some (stringify iso)
  | _ => return some (lit "null")

mutual
def canonicalize : JsValue → Except LegacyError (Option Str)
  | .null => return some (lit "null")
  | .undefined => return some (lit "null")
  | .arr items => do
    let parts ← canonicalizeItems items
    return some (lit "[" ++ joined parts ++ lit "]")
  | .obj members => do
    let sorted ← mapPairs ((sortByName (canonicalizeMembers members)).filter (fun m => !nullish m.2.1))
    return some (lit "\x7b" ++ join 0x2C sorted ++ lit "\x7d")
  | v => stringifyPrimitive numText v

def canonicalizeItems : List JsValue → Except LegacyError (List (Option Str))
  | [] => return []
  | v :: rest => do
    let part ← canonicalize v
    let parts ← canonicalizeItems rest
    return part :: parts

/-- Every member with its value and, for its turn, its text. -/
def canonicalizeMembers :
    List (Str × JsValue) → List (Str × JsValue × Except LegacyError (Option Str))
  | [] => []
  | (name, v) :: rest => (name, v, canonicalize v) :: canonicalizeMembers rest
end

mutual
def canonicalizeForWrite (path : Str) : JsValue → Except LegacyError (Option Str)
  | .null => return some (lit "null")
  | .undefined => return some (lit "null")
  | .num (.finite d) =>
    if isUnsafeWriteInteger d then throw (.unsafeInteger path)
    else stringifyPrimitive numText (.num (.finite d))
  | .arr items => do
    let parts ← forWriteItems path 0 items
    return some (lit "[" ++ joined parts ++ lit "]")
  | .obj members => do
    let pairs ← pushPairs (sortByName (forWriteMembers path members))
    return some (lit "\x7b" ++ join 0x2C pairs ++ lit "\x7d")
  | v => stringifyPrimitive numText v

def forWriteItems (path : Str) (i : Nat) : List JsValue → Except LegacyError (List (Option Str))
  | [] => return []
  | v :: rest => do
    let part ← canonicalizeForWrite (itemPath path i) v
    let parts ← forWriteItems path (i + 1) rest
    return part :: parts

def forWriteMembers (path : Str) :
    List (Str × JsValue) → List (Str × JsValue × Except LegacyError (Option Str))
  | [] => []
  | (name, v) :: rest =>
    (name, v, canonicalizeForWrite (memberPath path name) v) :: forWriteMembers path rest
end

theorem canonicalizeMembers_eq (members : List (Str × JsValue)) :
    canonicalizeMembers numText members = members.map (fun m => (m.1, m.2, canonicalize numText m.2)) := by
  induction members with
  | nil => simp [canonicalizeMembers]
  | cons m rest ih => simp [canonicalizeMembers, ih]

theorem forWriteMembers_eq (path : Str) (members : List (Str × JsValue)) :
    forWriteMembers numText path members =
      members.map (fun m => (m.1, m.2, canonicalizeForWrite numText (memberPath path m.1) m.2)) := by
  induction members with
  | nil => simp [forWriteMembers]
  | cons m rest ih => simp [forWriteMembers, ih]

end

mutual
/-- Null members removed at every depth; null items and an outermost null stay. -/
def strip : JsValue → JsValue
  | .arr items => .arr (stripItems items)
  | .obj members => .obj (stripMembers members)
  | v => v

def stripItems : List JsValue → List JsValue
  | [] => []
  | v :: rest => strip v :: stripItems rest

def stripMembers : List (Str × JsValue) → List (Str × JsValue)
  | [] => []
  | (_, .null) :: rest => stripMembers rest
  | (name, v) :: rest => (name, strip v) :: stripMembers rest
end

def isNull : JsValue → Bool
  | .null => true
  | _ => false

theorem stripItems_eq (items : List JsValue) : stripItems items = items.map strip := by
  induction items with
  | nil => simp [stripItems]
  | cons v rest ih => simp [stripItems, ih]

theorem stripMembers_eq (members : List (Str × JsValue)) :
    stripMembers members = (members.filter (fun m => !isNull m.2)).map (fun m => (m.1, strip m.2)) := by
  induction members with
  | nil => simp [stripMembers]
  | cons m rest ih =>
    obtain ⟨name, v⟩ := m
    cases v <;> simp [stripMembers, isNull, ih]

theorem strip_arr (items : List JsValue) : strip (.arr items) = .arr (items.map strip) := by
  rw [strip, stripItems_eq]

theorem strip_obj (members : List (Str × JsValue)) :
    strip (.obj members) =
      .obj ((members.filter (fun m => !isNull m.2)).map (fun m => (m.1, strip m.2))) := by
  rw [strip, stripMembers_eq]

variable {v : JsValue}

theorem nullish_of_isJson (h : IsJson v) : nullish v = isNull v := by
  cases h <;> rfl

theorem isJson_strip (h : IsJson v) : IsJson (strip v) := by
  induction h with
  | null => exact .null
  | bool b => exact .bool b
  | num d => exact .num d
  | str hs => exact .str hs
  | arr _ ih =>
    rw [strip_arr]
    refine .arr ?_
    intro x hx
    obtain ⟨v, hv, rfl⟩ := List.mem_map.mp hx
    exact ih v hv
  | obj hnames hwf _ ih =>
    rw [strip_obj]
    refine .obj ?_ ?_ ?_
    · rw [List.map_map]
      exact hnames.sublist (List.filter_sublist.map Prod.fst)
    · intro x hx
      obtain ⟨m, hm, rfl⟩ := List.mem_map.mp hx
      exact hwf m (List.mem_of_mem_filter hm)
    · intro x hx
      obtain ⟨m, hm, rfl⟩ := List.mem_map.mp hx
      exact ih m (List.mem_of_mem_filter hm)

theorem escapeUnits_wellFormed (s : Str) (h : WellFormed s) : escapeUnits s = s.flatMap escapeUnit := by
  unfold WellFormed at h
  induction s using loneSurrogate.induct with
  | case1 => rfl
  | case2 c hhigh => simp [loneSurrogate, hhigh] at h
  | case3 c hhigh hlow => simp [loneSurrogate, hhigh, hlow] at h
  | case4 c hhigh hlow => simp [escapeUnits, hhigh, hlow]
  | case5 c d rest hhigh hlow ih =>
    rw [loneSurrogate, if_pos hhigh, if_pos hlow] at h
    rw [escapeUnits, if_pos hhigh, if_pos hlow, ih h]
    simp
  | case6 c d rest hhigh hlow => simp [loneSurrogate, hhigh, hlow] at h
  | case7 c d rest hhigh hlow => simp [loneSurrogate, hhigh, hlow] at h
  | case8 c d rest hhigh hlow ih =>
    rw [loneSurrogate, if_neg hhigh, if_neg hlow] at h
    rw [escapeUnits, if_neg hhigh, if_neg hlow, ih h]
    simp

theorem stringify_wellFormed {s : Str} (h : WellFormed s) : stringify s = stringifyString s := by
  rw [stringify, stringifyString, escapeUnits_wellFormed s h]

theorem sortByName_filter {α : Type*} {members : List (Str × α)} (h : (members.map Prod.fst).Nodup)
    (p : Str × α → Bool) : (sortByName members).filter p = sortByName (members.filter p) := by
  have hperm : ((sortByName members).filter p).Perm (sortByName (members.filter p)) :=
    ((sortByName_perm members).filter p).trans (sortByName_perm _).symm
  refine hperm.eq_of_pairwise ?_ ((sortByName_pairwise members).filter p) (sortByName_pairwise _)
  intro a b ha hb hab hba
  refine List.inj_on_of_nodup_map h ?_ ?_ (List.le_antisymm hab hba)
  · exact (sortByName_perm members).mem_iff.mp (List.mem_of_mem_filter ha)
  · exact List.mem_of_mem_filter ((sortByName_perm _).mem_iff.mp hb)

section
variable {numText : Double → Str}

/-- The members that are written, in the order they are written. -/
def kept (members : List (Str × JsValue)) : List (Str × JsValue) :=
  sortByName (members.filter (fun m => !isNull m.2))

theorem emit_strip_obj (members : List (Str × JsValue)) :
    emit numText (strip (.obj members)) = lit "\x7b" ++
      join 0x2C ((kept members).map (memberText (fun v => emit numText (strip v)))) ++ lit "\x7d" := by
  rw [strip_obj, emit_obj, sortByName_map (fun m => strip m.2), List.map_map]
  rfl

variable {members : List (Str × JsValue)}

theorem mem_kept {m : Str × JsValue} (h : m ∈ kept members) : m ∈ members :=
  List.mem_of_mem_filter ((sortByName_perm _).mem_iff.mp h)

theorem sorted_kept {β : Type*} (g : Str × JsValue → β) (hnames : (members.map Prod.fst).Nodup)
    (hvalues : ∀ m ∈ members, IsJson m.2) :
    (sortByName (members.map (fun m => (m.1, m.2, g m)))).filter (fun m => !nullish m.2.1) =
      (kept members).map (fun m => (m.1, m.2, g m)) := by
  rw [sortByName_map (fun m => (m.2, g m)), List.filter_map, kept, ← sortByName_filter hnames]
  congr 1
  apply List.filter_congr
  intro m hm
  have hjson := hvalues m ((sortByName_perm members).mem_iff.mp hm)
  simp [nullish_of_isJson hjson]

theorem canonicalizeItems_json {items : List JsValue}
    (h : ∀ v ∈ items, canonicalize numText v = .ok (some (emit numText (strip v)))) :
    canonicalizeItems numText items = .ok (items.map (fun v => some (emit numText (strip v)))) := by
  induction items with
  | nil => rw [canonicalizeItems]; rfl
  | cons v rest ih =>
    rw [canonicalizeItems, h v List.mem_cons_self, ih (fun w hw => h w (List.mem_cons_of_mem v hw))]
    rfl

theorem mapPairs_ok {f : JsValue → Str} {members : List (Str × JsValue)}
    (h : ∀ m ∈ members, WellFormed m.1) :
    mapPairs (members.map (fun m => (m.1, m.2, .ok (some (f m.2))))) = .ok (members.map (memberText f)) := by
  induction members with
  | nil => rfl
  | cons m rest ih =>
    rw [List.map_cons, mapPairs, ih (fun w hw => h w (List.mem_cons_of_mem m hw)), List.map_cons, memberText,
      ← stringify_wellFormed (h m List.mem_cons_self)]
    rfl

theorem joined_some (parts : List Str) : joined (parts.map some) = join 0x2C parts := by
  rw [joined, List.map_map]
  simp [Function.comp_def]

theorem canonicalize_json (h : IsJson v) : canonicalize numText v = .ok (some (emit numText (strip v))) := by
  induction h with
  | null => rfl
  | bool b => rfl
  | num d => rfl
  | @str s hs =>
    have htext : canonicalize numText (.str s) = .ok (some (stringify s)) := rfl
    rw [htext, stringify_wellFormed hs]
    rfl
  | @arr items _ ih =>
    have hparts : items.map (fun v => some (emit numText (strip v))) =
        (items.map (fun v => emit numText (strip v))).map some := by
      rw [List.map_map]
      rfl
    rw [canonicalize, canonicalizeItems_json ih, strip_arr, emit_arr, List.map_map, hparts]
    simp only [bind, Except.bind, joined_some]
    rfl
  | @obj members hnames hwf hvalues ih =>
    have htexts : (kept members).map (fun m => (m.1, m.2, canonicalize numText m.2)) =
        (kept members).map (fun m => (m.1, m.2, .ok (some (emit numText (strip m.2))))) := by
      apply List.map_congr_left
      intro m hm
      rw [ih m (mem_kept hm)]
    rw [canonicalize, canonicalizeMembers_eq, sorted_kept _ hnames hvalues, htexts,
      mapPairs_ok (f := fun v => emit numText (strip v)) (fun m hm => hwf m (mem_kept hm)), emit_strip_obj]
    rfl

theorem pushPairs_eq (entries : List (Str × JsValue × Except LegacyError (Option Str))) :
    pushPairs entries = mapPairs (entries.filter (fun m => !nullish m.2.1)) := by
  induction entries with
  | nil => rfl
  | cons m rest ih =>
    obtain ⟨name, v, text⟩ := m
    by_cases hv : nullish v = true
    · rw [pushPairs, if_pos hv, ih, List.filter_cons_of_neg (by simp [hv])]
    · rw [pushPairs, if_neg hv, ih, List.filter_cons_of_pos (by simp [hv]), mapPairs]

/-- What the write twin returns at a value, the legacy canonicalizer returns. -/
def Conservative (numText : Double → Str) (v : JsValue) : Prop :=
  ∀ path text, canonicalizeForWrite numText path v = .ok text → canonicalize numText v = .ok text

theorem forWriteItems_conservative {items : List JsValue} (ih : ∀ v ∈ items, Conservative numText v)
    (path : Str) : ∀ i parts, forWriteItems numText path i items = .ok parts →
      canonicalizeItems numText items = .ok parts := by
  induction items with
  | nil =>
    intro i parts h
    rw [forWriteItems] at h
    rw [canonicalizeItems]
    exact h
  | cons v rest ihr =>
    intro i parts h
    rw [forWriteItems] at h
    rw [canonicalizeItems]
    obtain ⟨part, hpart, h⟩ := bind_eq_ok.mp h
    obtain ⟨tail, htail, hparts⟩ := bind_eq_ok.mp h
    have hread := ih v List.mem_cons_self _ part hpart
    have hreads := ihr (fun w hw => ih w (List.mem_cons_of_mem v hw)) (i + 1) tail htail
    exact bind_eq_ok.mpr ⟨part, hread, bind_eq_ok.mpr ⟨tail, hreads, hparts⟩⟩

theorem mapPairs_conservative {f g : Str × JsValue → Except LegacyError (Option Str)}
    (h : ∀ m ∈ members, ∀ text, f m = .ok text → g m = .ok text) :
    ∀ pairs, mapPairs (members.map (fun m => (m.1, m.2, f m))) = .ok pairs →
      mapPairs (members.map (fun m => (m.1, m.2, g m))) = .ok pairs := by
  induction members with
  | nil => exact fun pairs hf => hf
  | cons m rest ih =>
    intro pairs hf
    rw [List.map_cons, mapPairs] at hf ⊢
    obtain ⟨text, htext, hf⟩ := bind_eq_ok.mp hf
    obtain ⟨tail, htail, hpairs⟩ := bind_eq_ok.mp hf
    have hrest := ih (fun n hn => h n (List.mem_cons_of_mem m hn)) tail htail
    exact bind_eq_ok.mpr ⟨text, h m List.mem_cons_self text htext, bind_eq_ok.mpr ⟨tail, hrest, hpairs⟩⟩

/-- By induction over the value; the loop of the twin and the filter see the same members. -/
theorem conservative (v : JsValue) : Conservative numText v := by
  induction v using JsValue.members_induction with
  | undefined => exact fun path text h => h
  | null => exact fun path text h => h
  | bool b => exact fun path text h => h
  | num n =>
    intro path text h
    cases n with
    | finite d =>
      rw [canonicalizeForWrite] at h
      split at h
      · cases h
      · exact h
    | nan => exact h
    | infinite neg => exact h
  | str s => exact fun path text h => h
  | other t => exact fun path text h => h
  | date iso => exact fun path text h => h
  | arr items ih =>
    intro path text h
    rw [canonicalizeForWrite] at h
    rw [canonicalize]
    obtain ⟨parts, hparts, htext⟩ := bind_eq_ok.mp h
    exact bind_eq_ok.mpr ⟨parts, forWriteItems_conservative ih path 0 parts hparts, htext⟩
  | obj members ih =>
    intro path text h
    rw [canonicalizeForWrite, forWriteMembers_eq, pushPairs_eq, sortByName_map (fun m => (m.2, _)),
      List.filter_map] at h
    rw [canonicalize, canonicalizeMembers_eq, sortByName_map (fun m => (m.2, _)), List.filter_map]
    obtain ⟨pairs, hpairs, htext⟩ := bind_eq_ok.mp h
    refine bind_eq_ok.mpr ⟨pairs, mapPairs_conservative ?_ pairs hpairs, htext⟩
    intro m hm text' hm'
    exact ih m ((sortByName_perm members).mem_iff.mp (List.mem_of_mem_filter hm)) _ text' hm'

end

/-- An integer beyond the safe range stands somewhere in the value. -/
inductive UnsafeInteger : JsValue → Prop
  | num {d : Double} (integer : d.isInteger = true) (large : 2 ^ 53 - 1 < d.toInt.natAbs) :
      UnsafeInteger (.num (.finite d))
  | item {items : List JsValue} {v : JsValue} (mem : v ∈ items) (h : UnsafeInteger v) :
      UnsafeInteger (.arr items)
  | member {members : List (Str × JsValue)} {m : Str × JsValue} (mem : m ∈ members)
      (h : UnsafeInteger m.2) : UnsafeInteger (.obj members)

theorem unsafeInteger_num {d : Double} :
    UnsafeInteger (.num (.finite d)) ↔ isUnsafeWriteInteger d = true := by
  rw [isUnsafeWriteInteger, Bool.and_eq_true, decide_eq_true_eq]
  constructor
  · intro h
    cases h with | num hint hlarge => exact ⟨hint, hlarge⟩
  · exact fun h => .num h.1 h.2

variable {items : List JsValue}

theorem not_unsafeInteger_arr : ¬ UnsafeInteger (.arr items) ↔ ∀ v ∈ items, ¬ UnsafeInteger v := by
  constructor
  · exact fun h v hv hunsafe => h (.item hv hunsafe)
  · intro h hunsafe
    cases hunsafe with | item hv hunsafe => exact h _ hv hunsafe

theorem not_unsafeInteger_obj {members : List (Str × JsValue)} :
    ¬ UnsafeInteger (.obj members) ↔ ∀ m ∈ members, ¬ UnsafeInteger m.2 := by
  constructor
  · exact fun h m hm hunsafe => h (.member hm hunsafe)
  · intro h hunsafe
    cases hunsafe with | member hm hunsafe => exact h _ hm hunsafe

theorem not_unsafeInteger_strip_obj {members : List (Str × JsValue)} :
    ¬ UnsafeInteger (strip (.obj members)) ↔ ∀ m ∈ kept members, ¬ UnsafeInteger (strip m.2) := by
  rw [strip_obj, not_unsafeInteger_obj, List.forall_mem_map]
  constructor
  · exact fun h m hm => h m ((sortByName_perm _).mem_iff.mp hm)
  · exact fun h m hm => h m ((sortByName_perm _).mem_iff.mpr hm)

section
variable {numText : Double → Str}

theorem writes_plain {ε α : Type} {r : Except ε α} {a : α} (hr : r = .ok a) (h : ¬ UnsafeInteger v) :
    Decides r (¬ UnsafeInteger v) a :=
  ⟨fun _ => hr, fun hnot => absurd h hnot⟩

theorem writes_number {ε α : Type} {d : Double} {e : ε} {a : α} :
    Decides (if isUnsafeWriteInteger d then .error e else .ok a) (¬ UnsafeInteger (.num (.finite d))) a := by
  rw [unsafeInteger_num]
  split
  · rename_i h
    exact (Decides.fail e a).of_iff (by simp [h])
  · rename_i h
    exact (Decides.pure a).of_iff (by simp [h])

theorem forWriteItems_decides
    (h : ∀ v ∈ items, ∀ path, Decides (canonicalizeForWrite numText path v) (¬ UnsafeInteger (strip v)) (some (emit numText (strip v))))
    (path : Str) : ∀ i,
    Decides (forWriteItems numText path i items) (∀ v ∈ items, ¬ UnsafeInteger (strip v))
      ((items.map (fun v => emit numText (strip v))).map some) := by
  induction items with
  | nil =>
    intro i
    rw [forWriteItems]
    exact (Decides.pure _).of_iff (by simp)
  | cons v rest ih =>
    intro i
    rw [forWriteItems]
    have hrest := ih (fun w hw => h w (List.mem_cons_of_mem v hw)) (i + 1)
    refine ((h v List.mem_cons_self _).bind (fun _ => hrest.map)).of_iff ?_
    rw [List.forall_mem_cons]

theorem mapPairs_decides {f : Str × JsValue → Except LegacyError (Option Str)} {text : JsValue → Str}
    {cond : JsValue → Prop} {members : List (Str × JsValue)} (hwf : ∀ m ∈ members, WellFormed m.1)
    (h : ∀ m ∈ members, Decides (f m) (cond m.2) (some (text m.2))) :
    Decides (mapPairs (members.map (fun m => (m.1, m.2, f m)))) (∀ m ∈ members, cond m.2)
      (members.map (memberText text)) := by
  induction members with
  | nil => exact (Decides.pure _).of_iff (by simp)
  | cons m rest ih =>
    have hrest := ih (fun n hn => hwf n (List.mem_cons_of_mem m hn))
      (fun n hn => h n (List.mem_cons_of_mem m hn))
    have hname : memberText text m = pairText m.1 (some (text m.2)) := by
      rw [memberText, ← stringify_wellFormed (hwf m List.mem_cons_self)]
      rfl
    rw [List.map_cons, mapPairs, List.map_cons, hname]
    refine ((h m List.mem_cons_self).bind (fun _ => hrest.map)).of_iff ?_
    rw [List.forall_mem_cons]

theorem forWrite_decides (h : IsJson v) : ∀ path,
    Decides (canonicalizeForWrite numText path v) (¬ UnsafeInteger (strip v))
      (some (emit numText (strip v))) := by
  induction h with
  | null => exact fun path => writes_plain rfl (by intro h; cases h)
  | bool b => exact fun path => writes_plain rfl (by intro h; cases h)
  | num d =>
    intro path
    rw [canonicalizeForWrite]
    exact writes_number
  | @str s hs =>
    intro path
    have htext : canonicalizeForWrite numText path (.str s) = .ok (some (stringify s)) := rfl
    rw [stringify_wellFormed hs] at htext
    exact writes_plain htext (by intro h; cases h)
  | @arr items _ ih =>
    intro path
    rw [canonicalizeForWrite, strip_arr, emit_arr, not_unsafeInteger_arr, List.forall_mem_map]
    have hparts := (forWriteItems_decides ih path 0).map
      (g := fun parts => some (lit "[" ++ joined parts ++ lit "]"))
    rw [joined_some, ← Function.comp_def (emit numText), ← List.map_map] at hparts
    exact hparts
  | @obj members hnames hwf hvalues ih =>
    intro path
    rw [canonicalizeForWrite, forWriteMembers_eq, pushPairs_eq, sorted_kept _ hnames hvalues,
      emit_strip_obj, not_unsafeInteger_strip_obj]
    have hpairs := @mapPairs_decides (fun m => canonicalizeForWrite numText (memberPath path m.1) m.2)
      (fun v => emit numText (strip v)) (fun v => ¬ UnsafeInteger (strip v)) _
      (fun m hm => hwf m (mem_kept hm)) (fun m hm => ih m (mem_kept hm) _)
    exact hpairs.map

theorem jcsItems_decides
    (h : ∀ v ∈ items, ∀ path, Decides (canonicalizeValue numText (some path) v) (¬ UnsafeInteger v) (emit numText v))
    (path : Str) : ∀ i,
    Decides (CanonicalJcs.canonicalizeItems numText (some path) i items) (∀ v ∈ items, ¬ UnsafeInteger v)
      (items.map (emit numText)) := by
  induction items with
  | nil =>
    intro i
    rw [CanonicalJcs.canonicalizeItems]
    exact (Decides.pure _).of_iff (by simp)
  | cons v rest ih =>
    intro i
    rw [CanonicalJcs.canonicalizeItems]
    have hrest := ih (fun w hw => h w (List.mem_cons_of_mem v hw)) (i + 1)
    refine ((h v List.mem_cons_self _).bind (fun _ => hrest.map)).of_iff ?_
    rw [List.forall_mem_cons]

theorem writePairs_decides {f : Str × JsValue → Except JcsError Str} {text : JsValue → Str}
    {cond : JsValue → Prop} {members : List (Str × JsValue)} (hwf : ∀ m ∈ members, WellFormed m.1)
    (h : ∀ m ∈ members, Decides (f m) (cond m.2) (text m.2)) :
    Decides (writePairs (members.map (fun m => (m.1, f m)))) (∀ m ∈ members, cond m.2)
      (members.map (memberText text)) := by
  induction members with
  | nil => exact (Decides.pure _).of_iff (by simp)
  | cons m rest ih =>
    have hrest := ih (fun n hn => hwf n (List.mem_cons_of_mem m hn))
      (fun n hn => h n (List.mem_cons_of_mem m hn))
    rw [List.map_cons, writePairs, assertNoLoneSurrogate_ok (hwf m List.mem_cons_self), List.map_cons]
    refine ((h m List.mem_cons_self).bind (fun _ => hrest.map)).of_iff ?_
    rw [List.forall_mem_cons]

theorem jcsForWrite_decides (h : IsJson v) : ∀ path,
    Decides (canonicalizeValue numText (some path) v) (¬ UnsafeInteger v) (emit numText v) := by
  induction h with
  | null => exact fun path => writes_plain rfl (by intro h; cases h)
  | bool b => exact fun path => writes_plain rfl (by intro h; cases h)
  | num d =>
    intro path
    rw [canonicalizeValue]
    exact writes_number
  | @str s hs =>
    intro path
    have htext : canonicalizeValue numText (some path) (.str s) = .ok (stringifyString s) := by
      rw [canonicalizeValue, assertNoLoneSurrogate_ok hs]
      rfl
    exact writes_plain htext (by intro h; cases h)
  | @arr items _ ih =>
    intro path
    rw [canonicalizeValue, emit_arr, not_unsafeInteger_arr]
    exact (jcsItems_decides ih path 0).map
  | @obj members hnames hwf hvalues ih =>
    intro path
    have hsorted : ∀ m ∈ sortByName members, m ∈ members :=
      fun m hm => (sortByName_perm members).mem_iff.mp hm
    have hpairs := @writePairs_decides (fun m => canonicalizeValue numText (some (memberPath path m.1)) m.2)
      (emit numText) (fun v => ¬ UnsafeInteger v) (sortByName members)
      (fun m hm => hwf m (hsorted m hm)) (fun m hm => ih m (hsorted m hm) _)
    rw [canonicalizeValue, CanonicalWrite.canonicalizeMembers_eq_map, sortByName_map, emit_obj,
      not_unsafeInteger_obj]
    refine hpairs.map.of_iff ?_
    constructor
    · exact fun hall m hm => hall m ((sortByName_perm members).mem_iff.mpr hm)
    · exact fun hall m hm => hall m (hsorted m hm)

end

theorem fails_iff {ε α : Type} {r : Except ε α} {a : α} (h : Decides r (¬ UnsafeInteger v) a) :
    (∃ e, r = .error e) ↔ UnsafeInteger v := by
  constructor
  · rintro ⟨e, he⟩
    by_contra hsafe
    rw [h.1 hsafe] at he
    cases he
  · exact fun hunsafe => h.2 (not_not.mpr hunsafe)

/-- The four emitters on JSON values: the legacy text is the canonical text of the stripped value
and identifies it; a write twin returns the text of its read path when it returns at all, and
throws exactly at an unsafe integer in what is written. -/
theorem legacy_text_of_stripped {numText : Double → Str} (hnum : NumberRendering numText) {v w : JsValue}
    (hv : IsJson v) (hw : IsJson w) :
    (∃ s, canonicalize numText v = .ok (some s) ∧ canonicalizeJCS numText (strip v) = .ok s) ∧
    (canonicalize numText v = canonicalize numText w ↔ Same (strip v) (strip w)) ∧
    (∀ u text, canonicalizeForWrite numText (lit "$") u = .ok text → canonicalize numText u = .ok text) ∧
    (∀ u text, canonicalizeJCSForWrite numText u = .ok text → canonicalizeJCS numText u = .ok text) ∧
    ((∃ e, canonicalizeForWrite numText (lit "$") v = .error e) ↔ UnsafeInteger (strip v)) ∧
    ((∃ e, canonicalizeJCSForWrite numText v = .error e) ↔ UnsafeInteger v) := by
  refine ⟨?_, ?_, ?_, ?_, ?_, ?_⟩
  · exact ⟨_, canonicalize_json hv, canonicalizeJCS_ok (isJson_strip hv)⟩
  · rw [canonicalize_json hv, canonicalize_json hw, Except.ok.injEq, Option.some.injEq]
    exact emit_eq_iff hnum (isJson_strip hv) (isJson_strip hw)
  · exact fun u text h => conservative u _ text h
  · exact fun u text h => canonicalizeJCS_of_write h
  · exact fails_iff (forWrite_decides hv _)
  · exact fails_iff (jcsForWrite_decides hv _)

/-- A null member goes, a null item inside it stays, and an integer beyond the range is refused. -/
theorem legacy_text_of_stripped_nested :
    canonicalize integerText (.obj [(lit "b", .arr [.null, .obj [(lit "c", .null)]]), (lit "a", .null)]) =
      .ok (some (lit "\x7b\"b\":[null,\x7b\x7d]\x7d")) ∧
    Same (strip (.obj [(lit "b", .arr [.null, .obj [(lit "c", .null)]]), (lit "a", .null)]))
      (strip (.obj [(lit "b", .arr [.null, .obj []])])) ∧
    ∃ e, canonicalizeForWrite integerText (lit "$") (.arr [.num (.finite ⟨false, 2 ^ 52, 1, by decide⟩)]) =
      .error e := by
  have hv : IsJson (.obj [(lit "b", .arr [.null, .obj [(lit "c", .null)]]), (lit "a", .null)]) := by
    have hinner : IsJson (.obj [(lit "c", .null)]) :=
      .obj (by decide) (by simp only [List.mem_singleton, forall_eq]; decide)
        (by simp only [List.mem_singleton, forall_eq]; exact .null)
    have hitems : IsJson (.arr [.null, .obj [(lit "c", .null)]]) := by
      refine .arr ?_
      simp only [List.mem_cons, List.not_mem_nil, or_false, forall_eq_or_imp, forall_eq]
      exact ⟨.null, hinner⟩
    refine .obj (by decide) ?_ ?_
    · simp only [List.mem_cons, List.not_mem_nil, or_false, forall_eq_or_imp, forall_eq]
      decide
    · simp only [List.mem_cons, List.not_mem_nil, or_false, forall_eq_or_imp, forall_eq]
      exact ⟨hitems, .null⟩
  have hw : IsJson (.obj [(lit "b", .arr [.null, .obj []])]) := by
    have hinner : IsJson (.obj []) := .obj (by decide) (by simp) (by simp)
    have hitems : IsJson (.arr [.null, .obj []]) := by
      refine .arr ?_
      simp only [List.mem_cons, List.not_mem_nil, or_false, forall_eq_or_imp, forall_eq]
      exact ⟨.null, hinner⟩
    refine .obj (by decide) ?_ ?_
    · simp only [List.mem_singleton, forall_eq]
      decide
    · simp only [List.mem_singleton, forall_eq]
      exact hitems
  have hlarge : IsJson (.arr [.num (.finite ⟨false, 2 ^ 52, 1, by decide⟩)]) := by
    refine .arr ?_
    simp only [List.mem_singleton, forall_eq]
    exact .num _
  have hunsafe : UnsafeInteger (strip (.arr [.num (.finite ⟨false, 2 ^ 52, 1, by decide⟩)])) :=
    .item List.mem_cons_self (.num (by decide +kernel) (by decide +kernel))
  exact ⟨by decide,
    (legacy_text_of_stripped integerText_rendering hv hw).2.1.mp (by decide),
    (legacy_text_of_stripped integerText_rendering hlarge hlarge).2.2.2.2.1.mpr hunsafe⟩

end AgentPassport.LegacyCanonical
