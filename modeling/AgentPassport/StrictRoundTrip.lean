import AgentPassport.StrictParserCorrect
import AgentPassport.CanonicalInjective
import AgentPassport.JsArithmetic

/-! `strictJCS` and the reader undo each other: the canonical text of an accepted value reads
back as that value, and canonicalizing what was read changes nothing any more. -/
namespace AgentPassport.StrictRoundTrip
open JsText Js JsonString JsonGrammar StrictParser StrictTokens StrictParserCorrect CanonicalJcs
open CanonicalInjective Outcome

/-- What `strictJCS` throws: from its check, or from the canonicalizer. -/
inductive StrictJcsError where
  | iJson (error : IJsonError)
  | jcs (error : JcsError)
  deriving DecidableEq

def strictJCS (numText : Double → Str) (value : JsValue) : Except StrictJcsError Str := do
  (assertIJson (lit "$") value).mapError .iJson
  (canonicalizeJCS numText value).mapError .jcs

mutual
/-- How many values deep a value is nested, a scalar counting as one. -/
def nesting : JsValue → Nat
  | .arr items => nestingItems items + 1
  | .obj members => nestingMembers members + 1
  | _ => 1

def nestingItems : List JsValue → Nat
  | [] => 0
  | v :: rest => max (nesting v) (nestingItems rest)

def nestingMembers : List (Str × JsValue) → Nat
  | [] => 0
  | (_, v) :: rest => max (nesting v) (nestingMembers rest)
end

mutual
/-- No object of the value lists one name twice, as no JavaScript object does. -/
def keyed : JsValue → Bool
  | .arr items => keyedItems items
  | .obj members => decide (members.map Prod.fst).Nodup && keyedMembers members
  | _ => true

def keyedItems : List JsValue → Bool
  | [] => true
  | v :: rest => keyed v && keyedItems rest

def keyedMembers : List (Str × JsValue) → Bool
  | [] => true
  | (_, v) :: rest => keyed v && keyedMembers rest
end

variable {items : List JsValue}

theorem nestingItems_le {n : Nat} : nestingItems items ≤ n ↔ ∀ v ∈ items, nesting v ≤ n := by
  induction items with
  | nil => simp [nestingItems]
  | cons v rest ih => rw [nestingItems, max_le_iff, ih, List.forall_mem_cons]

variable {members : List (Str × JsValue)}

theorem nestingMembers_le {n : Nat} : nestingMembers members ≤ n ↔ ∀ m ∈ members, nesting m.2 ≤ n := by
  induction members with
  | nil => simp [nestingMembers]
  | cons m rest ih => rw [nestingMembers, max_le_iff, ih, List.forall_mem_cons]

theorem keyedItems_iff : keyedItems items = true ↔ ∀ v ∈ items, keyed v = true := by
  induction items with
  | nil => simp [keyedItems]
  | cons v rest ih => rw [keyedItems, Bool.and_eq_true, ih, List.forall_mem_cons]

theorem keyedMembers_iff : keyedMembers members = true ↔ ∀ m ∈ members, keyed m.2 = true := by
  induction members with
  | nil => simp [keyedMembers]
  | cons m rest ih => rw [keyedMembers, Bool.and_eq_true, ih, List.forall_mem_cons]

theorem keyed_obj : keyed (.obj members) = true ↔
      (members.map Prod.fst).Nodup ∧ ∀ m ∈ members, keyed m.2 = true := by
  rw [keyed, Bool.and_eq_true, decide_eq_true_eq, keyedMembers_iff]

section Written
variable (numText : Double → Str)

mutual
/-- The parse tree of the canonical text of a value. -/
def written : JsValue → JsonTree
  | .bool b => .bool b
  | .num (.finite d) => .number (numText d)
  | .str s => .string s
  | .arr items => .array (writtenItems items)
  | .obj members => .object (sortByName (writtenMembers members))
  | _ => .null

def writtenItems : List JsValue → List JsonTree
  | [] => []
  | v :: rest => written v :: writtenItems rest

def writtenMembers : List (Str × JsValue) → List (Str × JsonTree)
  | [] => []
  | (name, v) :: rest => (name, written v) :: writtenMembers rest
end

theorem writtenItems_eq_map (items : List JsValue) :
    writtenItems numText items = items.map (written numText) := by
  induction items with
  | nil => simp [writtenItems]
  | cons v rest ih => simp [writtenItems, ih]

theorem writtenMembers_eq_map (members : List (Str × JsValue)) :
    writtenMembers numText members = members.map (fun m => (m.1, written numText m.2)) := by
  induction members with
  | nil => simp [writtenMembers]
  | cons m rest ih => simp [writtenMembers, ih]

theorem written_arr (items : List JsValue) :
    written numText (.arr items) = .array (items.map (written numText)) := by
  rw [written, writtenItems_eq_map]

theorem written_obj (members : List (Str × JsValue)) :
    written numText (.obj members) =
      .object ((sortByName members).map (fun m => (m.1, written numText m.2))) := by
  rw [written, writtenMembers_eq_map, sortByName_map (fun m => written numText m.2)]

end Written

/-- What is used of `JSON.stringify` and `JSON.parse` on finite numbers: the text is a number of
the grammar and reads back as the number, up to the sign of zero. -/
structure NumberRoundTrip (numText : Double → Str) (numberValue : Str → JsNumber) : Prop
    extends NumberRendering numText where
  grammar : ∀ d, NumberText (numText d)
  reads : ∀ d, ∃ e, numberValue (numText d) = .finite e ∧ e.scaled = d.scaled

theorem ws_nil : Ws [] := by
  intro c hc
  cases hc

section
variable {numText : Double → Str} {numberValue : Str → JsNumber}

theorem valueText_arr (h : ∀ v ∈ items, ValueText (emit numText v) (written numText v)) :
    ValueText (emit numText (.arr items)) (written numText (.arr items)) := by
  rw [emit_arr, written_arr]
  cases items with
  | nil => exact .emptyArray ws_nil
  | cons v rest =>
    let parts : List Item := (v :: rest).map (fun v => ⟨[], emit numText v, [], written numText v⟩)
    have htext : parts.map Item.written = (v :: rest).map (emit numText) := by
      simp [parts, Item.written]
    have htree : parts.map Item.tree = (v :: rest).map (written numText) := by
      simp [parts]
    rw [← htext, ← htree]
    refine .array (by simp [parts]) ?_ ?_
    · intro p hp
      obtain ⟨w, _, rfl⟩ := List.mem_map.mp hp
      exact ⟨ws_nil, ws_nil⟩
    · intro p hp
      obtain ⟨w, hw, rfl⟩ := List.mem_map.mp hp
      exact h w hw

theorem valueText_obj (h : ∀ m ∈ members, ValueText (emit numText m.2) (written numText m.2)) :
    ValueText (emit numText (.obj members)) (written numText (.obj members)) := by
  rw [emit_obj, written_obj]
  have hsorted : ∀ m ∈ sortByName members, ValueText (emit numText m.2) (written numText m.2) :=
    fun m hm => h m ((sortByName_perm members).mem_iff.mp hm)
  generalize sortByName members = sorted at hsorted ⊢
  cases sorted with
  | nil => exact .emptyObject ws_nil
  | cons m rest =>
    let parts : List Member := (m :: rest).map
      (fun m => ⟨[], stringifyString m.1, m.1, [], ⟨[], emit numText m.2, [], written numText m.2⟩⟩)
    have htext : parts.map Member.written = (m :: rest).map (memberText (emit numText)) := by
      rw [List.map_map]
      apply List.map_congr_left
      intro n _
      have hcolon : lit ":" = [0x3A] := rfl
      simp [Member.written, Item.written, memberText, hcolon]
    have htree : parts.map (fun p => (p.name, p.value.tree)) =
        (m :: rest).map (fun m => (m.1, written numText m.2)) := by
      simp [parts]
    rw [← htext, ← htree]
    refine .object (by simp [parts]) ?_ ?_ ?_
    · intro p hp
      obtain ⟨n, _, rfl⟩ := List.mem_map.mp hp
      exact ⟨ws_nil, ws_nil, ws_nil, ws_nil⟩
    · intro p hp
      obtain ⟨n, _, rfl⟩ := List.mem_map.mp hp
      exact stringText_stringify n.1
    · intro p hp
      obtain ⟨n, hn, rfl⟩ := List.mem_map.mp hp
      exact hsorted n hn

theorem valueText_emit (hgrammar : ∀ d, NumberText (numText d)) {v : JsValue} (h : IsJson v) :
    ValueText (emit numText v) (written numText v) := by
  induction h with
  | null => exact .null
  | bool b =>
    cases b with
    | false => exact .false
    | true => exact .true
  | num d => exact .number (hgrammar d)
  | @str s _ => exact .string (stringText_stringify s)
  | arr _ ih => exact valueText_arr ih
  | obj _ _ _ ih => exact valueText_obj ih

theorem within_written {v : JsValue} (h : IsJson v) :
    ∀ n, nesting v ≤ n → Within n (written numText v) := by
  induction h with
  | null =>
    intro n hn
    obtain ⟨k, rfl⟩ := Nat.exists_eq_add_of_le' hn
    exact .null k
  | bool b =>
    intro n hn
    obtain ⟨k, rfl⟩ := Nat.exists_eq_add_of_le' hn
    exact .bool k b
  | num d =>
    intro n hn
    obtain ⟨k, rfl⟩ := Nat.exists_eq_add_of_le' hn
    exact .number k _
  | @str s _ =>
    intro n hn
    obtain ⟨k, rfl⟩ := Nat.exists_eq_add_of_le' hn
    exact .string k s
  | @arr items _ ih =>
    intro n hn
    rw [nesting] at hn
    obtain ⟨k, rfl⟩ : ∃ k, n = k + 1 := ⟨n - 1, by omega⟩
    have hitems := nestingItems_le.mp (Nat.le_of_succ_le_succ hn)
    rw [written_arr]
    refine .array ?_
    intro t ht
    obtain ⟨v, hv, rfl⟩ := List.mem_map.mp ht
    exact ih v hv k (hitems v hv)
  | @obj members _ _ _ ih =>
    intro n hn
    rw [nesting] at hn
    obtain ⟨k, rfl⟩ : ∃ k, n = k + 1 := ⟨n - 1, by omega⟩
    have hmembers := nestingMembers_le.mp (Nat.le_of_succ_le_succ hn)
    rw [written_obj]
    refine .object ?_
    intro t ht
    obtain ⟨m, hm, rfl⟩ := List.mem_map.mp ht
    have hmem := (sortByName_perm members).mem_iff.mp hm
    exact ih m hmem k (hmembers m hmem)

theorem assertIJsonItems_inv {path : Str} : ∀ {i : Nat}, assertIJsonItems path i items = .ok () →
      ∀ v ∈ items, ∃ p, assertIJson p v = .ok () := by
  induction items with
  | nil =>
    intro i _ v hv
    cases hv
  | cons v rest ih =>
    intro i h
    rw [assertIJsonItems] at h
    obtain ⟨hv, hrest⟩ := bind_unit_eq_ok.mp h
    exact List.forall_mem_cons.mpr ⟨⟨_, hv⟩, ih hrest⟩

theorem assertIJsonMembers_inv {path : Str} (h : assertIJsonMembers path members = .ok ()) :
    ∀ m ∈ members, WellFormed m.1 ∧ ∃ p, assertIJson p m.2 = .ok () := by
  induction members with
  | nil =>
    intro m hm
    cases hm
  | cons m rest ih =>
    rw [assertIJsonMembers] at h
    obtain ⟨hname, h⟩ := bind_unit_eq_ok.mp h
    obtain ⟨hv, hrest⟩ := bind_unit_eq_ok.mp h
    have hwf : WellFormed m.1 := ((assertString_decides m.1 _).cond_of_ok hname).1
    exact List.forall_mem_cons.mpr ⟨⟨hwf, _, hv⟩, ih hrest⟩

theorem isJson_of_assert (v : JsValue) :
    ∀ path, assertIJson path v = .ok () → keyed v = true → IsJson v := by
  induction v using JsValue.members_induction with
  | undefined =>
    intro path h
    cases h
  | null => exact fun _ _ _ => .null
  | bool b => exact fun _ _ _ => .bool b
  | num n =>
    intro path h _
    obtain ⟨⟨d, rfl, -⟩, -⟩ := (assertNumber_decides n path).cond_of_ok h
    exact .num d
  | str s => exact fun path h _ => .str ((assertString_decides s path).cond_of_ok h).1
  | other t =>
    intro path h
    cases h
  | date iso =>
    intro path h
    cases h
  | arr items ih =>
    intro path h hkeyed
    rw [assertIJson] at h
    rw [keyed, keyedItems_iff] at hkeyed
    refine .arr ?_
    intro v hv
    obtain ⟨p, hp⟩ := assertIJsonItems_inv h v hv
    exact ih v hv p hp (hkeyed v hv)
  | obj members ih =>
    intro path h hkeyed
    rw [assertIJson] at h
    obtain ⟨hnames, hkeyed⟩ := keyed_obj.mp hkeyed
    have hmembers := assertIJsonMembers_inv h
    refine .obj hnames (fun m hm => (hmembers m hm).1) ?_
    intro m hm
    obtain ⟨-, p, hp⟩ := hmembers m hm
    exact ih m hm p hp (hkeyed m hm)

theorem interoperable_of_scaled {d e : Double} (h : e.scaled = d.scaled) (hd : Interoperable (.finite d)) :
    Interoperable (.finite e) := by
  obtain ⟨d', hd', hsafe⟩ := hd
  cases hd'
  refine ⟨e, rfl, ?_⟩
  rw [Double.isInteger, Double.toInt, h]
  exact hsafe

theorem strict_written (hnum : NumberRoundTrip numText numberValue) {v : JsValue} (hv : IsJson v) :
    ∀ path, assertIJson path v = .ok () → Strict numberValue (written numText v) := by
  induction hv with
  | null => exact fun _ _ => .null
  | bool b => exact fun _ _ => .bool b
  | num d =>
    intro path h
    obtain ⟨hd, -⟩ := (assertNumber_decides _ path).cond_of_ok h
    obtain ⟨e, he, hscaled⟩ := hnum.reads d
    refine .number ?_
    rw [he]
    exact interoperable_of_scaled hscaled hd
  | str hs => exact fun _ _ => .string hs
  | arr _ ih =>
    intro path h
    rw [assertIJson] at h
    rw [written_arr]
    refine .array ?_
    intro t ht
    obtain ⟨v, hv, rfl⟩ := List.mem_map.mp ht
    obtain ⟨p, hp⟩ := assertIJsonItems_inv h v hv
    exact ih v hv p hp
  | @obj members hnames hwf _ ih =>
    intro path h
    rw [assertIJson] at h
    have hmembers := assertIJsonMembers_inv h
    have hsorted : ∀ m ∈ sortByName members, m ∈ members :=
      fun m hm => (sortByName_perm members).mem_iff.mp hm
    rw [written_obj]
    refine .object ?_ ?_ ?_
    · rw [List.map_map]
      exact ((sortByName_perm members).map Prod.fst).nodup_iff.mpr hnames
    · intro t ht
      obtain ⟨m, hm, rfl⟩ := List.mem_map.mp ht
      exact hwf m (hsorted m hm)
    · intro t ht
      obtain ⟨m, hm, rfl⟩ := List.mem_map.mp ht
      obtain ⟨-, p, hp⟩ := hmembers m (hsorted m hm)
      exact ih m (hsorted m hm) p hp

theorem setMember_perm {name : Str} (v : JsValue) (h : name ∉ members.map Prod.fst) :
    (setMember name v members).Perm ((name, v) :: members) := by
  have hnone : ¬ (members.any (fun m => m.1 = name)) = true := by
    intro hany
    obtain ⟨m, hm, heq⟩ := List.any_eq_true.mp hany
    exact h (of_decide_eq_true heq ▸ List.mem_map_of_mem hm)
  rw [setMember, if_neg hnone]
  refine List.perm_middle.trans ?_
  rw [List.takeWhile_append_dropWhile]

theorem assign_perm {ms : List (Str × JsValue)} :
    ∀ {acc : List (Str × JsValue)}, ((acc ++ ms).map Prod.fst).Nodup → (assign acc ms).Perm (acc ++ ms) := by
  induction ms with
  | nil =>
    intro acc _
    rw [assign, List.append_nil]
  | cons m rest ih =>
    intro acc h
    obtain ⟨name, v⟩ := m
    have hmiddle : (acc ++ (name, v) :: rest).Perm ((name, v) :: (acc ++ rest)) := List.perm_middle
    have hnodup := (hmiddle.map Prod.fst).nodup_iff.mp h
    have hnew : name ∉ acc.map Prod.fst := by
      intro hmem
      refine (List.nodup_cons.mp hnodup).1 ?_
      rw [List.map_append]
      exact List.mem_append_left _ hmem
    have hset : (setMember name v acc ++ rest).Perm ((name, v) :: (acc ++ rest)) :=
      (setMember_perm v hnew).append_right rest
    rw [assign]
    exact (ih ((hset.map Prod.fst).nodup_iff.mpr hnodup)).trans (hset.trans hmiddle.symm)

theorem jsonValue_object {members : List (Str × JsonTree)} (h : (members.map Prod.fst).Nodup) :
    ∃ ms, jsonValue numberValue (.object members) = .obj ms ∧
      ms.Perm (members.map (fun m => (m.1, jsonValue numberValue m.2))) := by
  refine ⟨_, by rw [jsonValue, jsonMembers_eq_map], ?_⟩
  refine @assign_perm _ [] ?_
  rw [List.nil_append, List.map_map]
  exact h

theorem same_of_written (hnum : NumberRoundTrip numText numberValue) {v : JsValue} (h : IsJson v) :
    Same (jsonValue numberValue (written numText v)) v := by
  induction h with
  | null => exact .null
  | bool b => exact .bool b
  | num d =>
    obtain ⟨e, he, hscaled⟩ := hnum.reads d
    rw [written, jsonValue, he]
    exact .num hscaled
  | @str s _ => exact .str s
  | @arr items _ ih =>
    rw [written_arr, jsonValue, jsonItems_eq_map, List.map_map]
    refine .arr (List.length_map _) ?_
    intro p hp
    obtain ⟨i, hi, rfl⟩ := List.getElem_of_mem hp
    rw [List.getElem_zip, List.getElem_map]
    exact ih _ (List.getElem_mem _)
  | @obj members hnames _ _ ih =>
    have hperm := sortByName_perm members
    have hnodup : (((sortByName members).map (fun m => (m.1, written numText m.2))).map Prod.fst).Nodup := by
      rw [List.map_map]
      exact (hperm.map Prod.fst).nodup_iff.mpr hnames
    obtain ⟨ms, hms, hread⟩ := @jsonValue_object numberValue _ hnodup
    rw [List.map_map] at hread
    rw [written_obj, hms]
    refine .obj ?_ ?_
    · refine (hread.map Prod.fst).trans ?_
      rw [List.map_map]
      exact hperm.map Prod.fst
    · intro m hm n hn hname
      obtain ⟨k, hk, rfl⟩ := List.mem_map.mp (hread.mem_iff.mp hm)
      obtain rfl := List.inj_on_of_nodup_map hnames (hperm.mem_iff.mp hk) hn hname
      exact ih k hn

theorem within_pos {n : Nat} {tree : JsonTree} (h : Within n tree) : 1 ≤ n := by
  cases h <;> exact Nat.succ_pos _

theorem jsonValue_shape {tree : JsonTree} (hstrict : Strict numberValue tree) :
    keyed (jsonValue numberValue tree) = true ∧
      ∀ n, Within n tree → nesting (jsonValue numberValue tree) ≤ n := by
  induction hstrict with
  | null => exact ⟨by simp [jsonValue, keyed], fun n hn => by simpa [jsonValue, nesting] using within_pos hn⟩
  | bool b => exact ⟨by simp [jsonValue, keyed], fun n hn => by simpa [jsonValue, nesting] using within_pos hn⟩
  | number _ =>
    exact ⟨by simp [jsonValue, keyed], fun n hn => by simpa [jsonValue, nesting] using within_pos hn⟩
  | string _ =>
    exact ⟨by simp [jsonValue, keyed], fun n hn => by simpa [jsonValue, nesting] using within_pos hn⟩
  | @array items _ ih =>
    rw [jsonValue, jsonItems_eq_map, keyed, keyedItems_iff]
    refine ⟨?_, ?_⟩
    · intro v hv
      obtain ⟨t, ht, rfl⟩ := List.mem_map.mp hv
      exact (ih t ht).1
    · intro n hn
      cases hn with | array hitems =>
      rw [nesting, Nat.add_le_add_iff_right, nestingItems_le]
      intro v hv
      obtain ⟨t, ht, rfl⟩ := List.mem_map.mp hv
      exact (ih t ht).2 _ (hitems t ht)
  | @object members hnames _ _ ih =>
    obtain ⟨ms, hms, hperm⟩ := @jsonValue_object numberValue _ hnames
    rw [hms, keyed_obj]
    refine ⟨⟨?_, ?_⟩, ?_⟩
    · rw [(hperm.map Prod.fst).nodup_iff, List.map_map]
      exact hnames
    · intro m hm
      obtain ⟨t, ht, rfl⟩ := List.mem_map.mp (hperm.mem_iff.mp hm)
      exact (ih t ht).1
    · intro n hn
      cases hn with | object hmembers =>
      rw [nesting, Nat.add_le_add_iff_right, nestingMembers_le]
      intro m hm
      obtain ⟨t, ht, rfl⟩ := List.mem_map.mp (hperm.mem_iff.mp hm)
      exact (ih t ht).2 _ (hmembers t ht)

end

variable {v : JsValue}

theorem strictJCS_ok {numText : Double → Str} (hv : IsJson v) (h : assertIJson (lit "$") v = .ok ()) :
    strictJCS numText v = .ok (emit numText v) := by
  rw [strictJCS, h, canonicalizeJCS_ok hv]
  rfl

section
variable {numText : Double → Str} {numberValue : Str → JsNumber}
  {stackLimit bytes depth : Nat} {maxUtf8Bytes maxDepth : JsNumber}

theorem emit_reads_back (hnum : NumberRoundTrip numText numberValue) (hbytes : limitOf maxUtf8Bytes = some bytes)
    (hdepth : limitOf maxDepth = some depth) (hstack : depth ≤ stackLimit) (hv : IsJson v)
    (h : assertIJson (lit "$") v = .ok ()) (hnest : nesting v ≤ depth) (hsize : byteLength (emit numText v) ≤ bytes) :
    parseStrictIJson numberValue stackLimit (emit numText v) maxUtf8Bytes maxDepth =
      .ok (jsonValue numberValue (written numText v)) := by
  have htext : JsonText (emit numText v) (written numText v) :=
    ⟨[], _, [], by simp, ws_nil, ws_nil, valueText_emit hnum.grammar hv⟩
  exact (parseStrictIJson_decides hbytes hsize hdepth hstack htext).1
    ⟨within_written hv depth hnest, strict_written hnum hv _ h⟩

theorem size_of_accepted {raw : Str} (hbytes : limitOf maxUtf8Bytes = some bytes)
    (h : parseStrictIJson numberValue stackLimit raw maxUtf8Bytes maxDepth = .ok v) : byteLength raw ≤ bytes := by
  simp only [parseStrictIJson, hbytes] at h
  split at h
  · cases h
  · omega

theorem accepted_value {raw : Str} (hbytes : limitOf maxUtf8Bytes = some bytes) (hdepth : limitOf maxDepth = some depth)
    (hstack : depth ≤ stackLimit) (h : parseStrictIJson numberValue stackLimit raw maxUtf8Bytes maxDepth = .ok v) :
    keyed v = true ∧ assertIJson (lit "$") v = .ok () ∧ nesting v ≤ depth := by
  have hsize := size_of_accepted hbytes h
  obtain ⟨tree, htext, hwithin, hstrict⟩ := parseStrictIJson_sound hbytes hsize hdepth h
  obtain ⟨-, rfl⟩ := (parseStrictIJson_decides hbytes hsize hdepth hstack htext).cond_of_ok h
  obtain ⟨hkeyed, hnest⟩ := jsonValue_shape hstrict
  exact ⟨hkeyed, assertIJson_strict hstrict _, hnest depth hwithin⟩

end

def readInt : Str → Int
  | [] => 0
  | c :: digits => if c = 0x2D then -(digitsValue digits : Int) else digitsValue (c :: digits)

/-- An integer with or without an exponent, read exactly. -/
def exactValue (token : Str) : JsNumber :=
  match token.dropWhile (· ≠ 0x65) with
  | _ :: c :: digits =>
    if c = 0x2D then nearest (readInt (token.takeWhile (· ≠ 0x65)) * scaleOne / 10 ^ digitsValue digits)
    else nearest (readInt (token.takeWhile (· ≠ 0x65)) * scaleOne * 10 ^ digitsValue (c :: digits))
  | _ => nearest (readInt token * scaleOne)

/-- Agrees with `JSON.stringify` on the safe integers; any other number is written out exactly,
as an integer and a power of ten. -/
def exactText (d : Double) : Str :=
  if d.isSafeInteger then intText d.toInt else intText (d.scaled * 5 ^ 1074) ++ lit "e-1074"

theorem readInt_intText (z : Int) : readInt (intText z) = z := by
  unfold intText
  split
  · rw [readInt, if_pos rfl, digitsValue_decimal]
    omega
  · obtain ⟨c, rest, hc⟩ := List.exists_cons_of_ne_nil (decimal_ne_nil z.natAbs)
    have hdigit : isDigit c = true := decimal_digits (hc ▸ List.mem_cons_self)
    have hne : c ≠ 0x2D := by
      rintro rfl
      revert hdigit
      decide
    rw [hc, readInt, if_neg hne, ← hc, digitsValue_decimal]
    omega

theorem intText_decimal (n : Nat) : IntText (decimal n) := by
  induction n using Nat.strong_induction_on with
  | _ n ih =>
    by_cases hlt : n < 10
    · unfold decimal
      rw [Nat.toDigits_of_lt_base hlt]
      by_cases hzero : n = 0
      · exact .inl (by rw [hzero]; rfl)
      · refine .inr ⟨_, [], rfl, ?_, ?_, fun c hc => absurd hc List.not_mem_nil⟩
        · interval_cases n <;> decide
        · interval_cases n
          · exact absurd rfl hzero
          all_goals decide
    · have hsplit : decimal n = decimal (n / 10) ++ decimal (n % 10) := by
        unfold decimal
        rw [Nat.toDigits_of_base_le (by decide) (by omega), Nat.toDigits_of_lt_base (Nat.mod_lt _ (by decide)),
          List.map_append]
      have hdigits : Digits (decimal (n % 10)) := fun c hc => decimal_digits hc
      rw [hsplit]
      obtain hzero | ⟨c, ds, hc, hdigit, hne, hds⟩ := ih (n / 10) (by omega)
      · have hback := decimal_injective (hzero.trans (show [0x30] = decimal 0 from rfl))
        omega
      · refine .inr ⟨c, ds ++ decimal (n % 10), by rw [hc]; rfl, hdigit, hne, ?_⟩
        intro u hu
        obtain hu | hu := List.mem_append.mp hu
        · exact hds u hu
        · exact hdigits u hu

theorem numberText_int (z : Int) {exp : Str} (hexp : ExpText exp) : NumberText (intText z ++ exp) := by
  unfold intText
  split
  · exact ⟨[0x2D], decimal z.natAbs, [], exp, rfl, .inr rfl, intText_decimal _, .inl rfl, hexp⟩
  · exact ⟨[], decimal z.natAbs, [], exp, rfl, .inl rfl, intText_decimal _, .inl rfl, hexp⟩

theorem expText_places : ExpText (lit "e-1074") := by
  refine .inr ⟨0x65, [0x2D], lit "1074", rfl, .inl rfl, .inr (.inr rfl), by decide, ?_⟩
  have hall : (lit "1074").all isDigit = true := by decide
  exact List.all_eq_true.mp hall

theorem exactText_grammar (d : Double) : NumberText (exactText d) := by
  unfold exactText
  split
  · rw [← List.append_nil (intText d.toInt)]
    exact numberText_int _ (.inl rfl)
  · exact numberText_int _ expText_places

theorem intText_no_mark (z : Int) : ∀ c ∈ intText z, decide (c ≠ 0x65) = true := by
  intro c hc
  have hunit := intText_units hc
  rw [decide_eq_true_eq]
  rintro rfl
  revert hunit
  decide

theorem exactValue_exactText (d : Double) :
    ∃ e, exactValue (exactText d) = .finite e ∧ e.scaled = d.scaled := by
  have hscaled : exactValue (exactText d) = nearest d.scaled := by
    unfold exactText
    split
    · rename_i hsafe
      have hdrop := List.dropWhile_eq_nil_iff.mpr (intText_no_mark d.toInt)
      rw [exactValue, hdrop]
      simp only
      rw [readInt_intText, ← scaled_of_safe hsafe]
    · have hdrop : (intText (d.scaled * 5 ^ 1074) ++ lit "e-1074").dropWhile (· ≠ 0x65) = lit "e-1074" := by
        rw [List.dropWhile_append_of_pos (intText_no_mark _)]
        rfl
      have htake : (intText (d.scaled * 5 ^ 1074) ++ lit "e-1074").takeWhile (· ≠ 0x65) =
          intText (d.scaled * 5 ^ 1074) := by
        rw [List.takeWhile_append_of_pos (intText_no_mark _)]
        exact List.append_nil _
      have hplaces : lit "e-1074" = 0x65 :: 0x2D :: lit "1074" := rfl
      have hvalue : digitsValue (lit "1074") = 1074 := by decide
      rw [exactValue, hdrop, hplaces]
      simp only [if_true]
      rw [← hplaces, htake, readInt_intText, hvalue, scaleOne, mul_assoc, ← mul_pow]
      congr 1
      exact Int.mul_ediv_cancel _ (by positivity)
  rw [hscaled]
  exact nearest_scaled d

theorem exactText_units (d : Double) {c : UInt16} (hc : c ∈ exactText d) : NumberUnit c := by
  have hint : ∀ z, c ∈ intText z → NumberUnit c := by
    intro z hz
    obtain hdigit | hminus := intText_units hz
    · exact .inl hdigit
    · exact .inr (.inr (.inl hminus))
  unfold exactText at hc
  split at hc
  · exact hint _ hc
  · obtain hc | hc := List.mem_append.mp hc
    · exact hint _ hc
    · have hall : (lit "e-1074").all (fun c => isDigit c || c = 0x2D || c = 0x65) = true := by decide
      have hunit := List.all_eq_true.mp hall c hc
      simp only [Bool.or_eq_true, decide_eq_true_eq] at hunit
      obtain (hdigit | rfl) | rfl := hunit
      · exact .inl hdigit
      · exact .inr (.inr (.inl rfl))
      · exact .inr (.inr (.inr (.inr rfl)))

theorem exact_roundTrip : NumberRoundTrip exactText exactValue := by
  refine ⟨⟨?_, fun d c hc => exactText_units d hc, fun d => numberText_head (exactText_grammar d)⟩,
    exactText_grammar, exactValue_exactText⟩
  intro d e
  constructor
  · intro h
    obtain ⟨d', hd, hd'⟩ := exactValue_exactText d
    obtain ⟨e', he, he'⟩ := exactValue_exactText e
    rw [h, he] at hd
    cases hd
    exact hd'.symm.trans he'
  · intro h
    have hint : d.toInt = e.toInt := by rw [Double.toInt, Double.toInt, h]
    have hsafe : d.isSafeInteger = e.isSafeInteger := by
      rw [Double.isSafeInteger, Double.isSafeInteger, Double.isInteger, Double.isInteger, h, hint]
    rw [exactText, exactText, hsafe, hint, h]

/-- Whatever the check accepts within the depth limit is written, and the text reads back as the
value as far as it fits the size limit; and what the reader accepts is written to a text that is
written again unchanged after it was read. -/
theorem strict_round_trip {numText : Double → Str} {numberValue : Str → JsNumber}
    (hnum : NumberRoundTrip numText numberValue) {stackLimit bytes depth : Nat}
    {maxUtf8Bytes maxDepth : JsNumber} (hbytes : limitOf maxUtf8Bytes = some bytes)
    (hdepth : limitOf maxDepth = some depth) (hstack : depth ≤ stackLimit) :
    (∀ v, keyed v = true → assertIJson (lit "$") v = .ok () → nesting v ≤ depth →
      ∃ s, strictJCS numText v = .ok s ∧ (byteLength s ≤ bytes →
        ∃ w, parseStrictIJson numberValue stackLimit s maxUtf8Bytes maxDepth = .ok w ∧ Same w v)) ∧
    (∀ raw v, parseStrictIJson numberValue stackLimit raw maxUtf8Bytes maxDepth = .ok v →
      ∃ s, strictJCS numText v = .ok s ∧ (byteLength s ≤ bytes →
        ∃ w, parseStrictIJson numberValue stackLimit s maxUtf8Bytes maxDepth = .ok w ∧
          strictJCS numText w = .ok s)) := by
  refine ⟨?_, ?_⟩
  · intro v hkeyed hassert hnest
    have hv := isJson_of_assert v _ hassert hkeyed
    refine ⟨_, strictJCS_ok hv hassert, ?_⟩
    intro hsize
    exact ⟨_, emit_reads_back hnum hbytes hdepth hstack hv hassert hnest hsize, same_of_written hnum hv⟩
  · intro raw v h
    obtain ⟨hkeyed, hassert, hnest⟩ := accepted_value hbytes hdepth hstack h
    have hv := isJson_of_assert v _ hassert hkeyed
    refine ⟨_, strictJCS_ok hv hassert, ?_⟩
    intro hsize
    have hread := emit_reads_back hnum hbytes hdepth hstack hv hassert hnest hsize
    refine ⟨_, hread, ?_⟩
    obtain ⟨hkeyed', hassert', -⟩ := accepted_value hbytes hdepth hstack hread
    have hw := isJson_of_assert _ _ hassert' hkeyed'
    rw [strictJCS_ok hw hassert', emit_congr hnum.toNumberRendering (same_of_written hnum hv) hw hv]

theorem strict_round_trip_nested :
    (∃ s, strictJCS exactText
        (.obj [(lit "b", .arr [.num (.finite .one), .str (lit "\n")]), (lit "a", .null)]) = .ok s ∧
      (byteLength s ≤ 1048576 →
        ∃ w, parseStrictIJson exactValue 10000 s (.finite ⟨false, 2 ^ 52, -32, by decide⟩)
            (.finite ⟨false, 2 ^ 52, -45, by decide⟩) = .ok w ∧
          Same w (.obj [(lit "b", .arr [.num (.finite .one), .str (lit "\n")]), (lit "a", .null)]))) ∧
    ∃ v s, parseStrictIJson exactValue 10000 (lit "[1e15, \"\\u0061\"]")
        (.finite ⟨false, 2 ^ 52, -32, by decide⟩) (.finite ⟨false, 2 ^ 52, -45, by decide⟩) = .ok v ∧
      strictJCS exactText v = .ok s ∧
      (byteLength s ≤ 1048576 →
        ∃ w, parseStrictIJson exactValue 10000 s (.finite ⟨false, 2 ^ 52, -32, by decide⟩)
            (.finite ⟨false, 2 ^ 52, -45, by decide⟩) = .ok w ∧ strictJCS exactText w = .ok s) := by
  have hbytes : limitOf (.finite ⟨false, 2 ^ 52, -32, by decide⟩) = some 1048576 := by decide +kernel
  have hdepth : limitOf (.finite ⟨false, 2 ^ 52, -45, by decide⟩) = some 128 := by decide +kernel
  have hround := strict_round_trip exact_roundTrip hbytes hdepth (show 128 ≤ 10000 by decide)
  have hok : (parseStrictIJson exactValue 10000 (lit "[1e15, \"\\u0061\"]")
      (.finite ⟨false, 2 ^ 52, -32, by decide⟩) (.finite ⟨false, 2 ^ 52, -45, by decide⟩)).isOk = true := by
    decide +kernel
  refine ⟨hround.1 _ (by decide) (by decide +kernel) (by decide), ?_⟩
  obtain ⟨v, hv⟩ := exists_of_isOk hok
  obtain ⟨s, hs, hagain⟩ := hround.2 _ v hv
  exact ⟨v, s, hv, hs, hagain⟩

/-- An accepted text whose canonical text is longer than the size limit: `1e15` within four bytes. -/
theorem canonical_text_over_limit :
    ∃ v s, parseStrictIJson exactValue 10000 (lit "1e15") (.finite ⟨false, 2 ^ 52, -50, by decide⟩)
        (.finite ⟨false, 2 ^ 52, -45, by decide⟩) = .ok v ∧
      strictJCS exactText v = .ok s ∧ s = lit "1000000000000000" ∧
      ∀ w, parseStrictIJson exactValue 10000 s (.finite ⟨false, 2 ^ 52, -50, by decide⟩)
        (.finite ⟨false, 2 ^ 52, -45, by decide⟩) ≠ .ok w := by
  have hok : (parseStrictIJson exactValue 10000 (lit "1e15") (.finite ⟨false, 2 ^ 52, -50, by decide⟩)
      (.finite ⟨false, 2 ^ 52, -45, by decide⟩)).isOk = true := by decide +kernel
  have hwritten : (parseStrictIJson exactValue 10000 (lit "1e15") (.finite ⟨false, 2 ^ 52, -50, by decide⟩)
      (.finite ⟨false, 2 ^ 52, -45, by decide⟩)).toOption.map (strictJCS exactText) =
        some (.ok (lit "1000000000000000")) := by decide +kernel
  have hfail : (parseStrictIJson exactValue 10000 (lit "1000000000000000")
      (.finite ⟨false, 2 ^ 52, -50, by decide⟩) (.finite ⟨false, 2 ^ 52, -45, by decide⟩)).isOk = false := by
    decide +kernel
  obtain ⟨v, hv⟩ := exists_of_isOk hok
  rw [hv] at hwritten
  refine ⟨v, _, hv, Option.some.inj hwritten, rfl, ?_⟩
  intro w hw
  rw [hw] at hfail
  cases hfail

end AgentPassport.StrictRoundTrip
