import AgentPassport.StrictTokens

/-! The strict reader accepts the texts of the grammar that keep its restrictions, and no
others, and returns what `JSON.parse` returns. -/
namespace AgentPassport.StrictParserCorrect
open JsText Js JsonString SeparatedText JsonGrammar StrictParser StrictTokens Outcome

section Scalars
variable (numberValue : Str → JsNumber)

theorem startsWith_sound {literal s rest : Str} (h : startsWith literal s = some rest) :
    s = literal ++ rest := by
  unfold startsWith at h
  split at h
  · rename_i htake
    cases h
    rw [← List.take_append_drop literal.length s, htake]
    simp
  · cases h

theorem startsWith_head {literal : Str} {k c : UInt16} {tail rest : Str} (hlit : literal = k :: tail)
    (hne : c ≠ k) : startsWith literal (c :: rest) = none := by
  subst hlit
  simp [startsWith, hne]

theorem parseScalar_number {s rest : Str} (h : NumberText s) (hrest : Ends Follow rest) :
    Decides (parseScalar numberValue (s ++ rest)) (Interoperable (numberValue s))
      (.num (numberValue s), rest) := by
  obtain ⟨c, r, rfl, hc⟩ := numberText_head h
  have hne : c ≠ 0x74 ∧ c ≠ 0x66 ∧ c ≠ 0x6E := by
    refine ⟨?_, ?_, ?_⟩ <;>
    · rintro rfl
      exact absurd hc (by decide)
  have hmatch := matchNumber_complete h hrest
  rw [List.cons_append] at hmatch ⊢
  simp only [parseScalar, startsWith_head (show lit "true" = 0x74 :: lit "rue" from rfl) hne.1,
    startsWith_head (show lit "false" = 0x66 :: lit "alse" from rfl) hne.2.1,
    startsWith_head (show lit "null" = 0x6E :: lit "ull" from rfl) hne.2.2, hmatch]
  refine (Decides.bind (f := fun _ => .ok (JsValue.num (numberValue (c :: r)), rest))
    (assertNumber_decides _ _) ?_).of_iff (iff_of_eq (and_true _))
  intro _
  exact Decides.pure _

theorem parseScalar_sound {s rest : Str} {v : JsValue} (h : parseScalar numberValue s = .ok (v, rest)) :
    ∃ text tree, s = text ++ rest ∧ ValueText text tree ∧ v = jsonValue numberValue tree ∧
      Strict numberValue tree ∧ ∀ n, Within (n + 1) tree := by
  unfold parseScalar at h
  split at h
  · rename_i r hr
    cases h
    exact ⟨_, .bool true, startsWith_sound hr, .true, rfl, .bool true, fun n => .bool n true⟩
  split at h
  · rename_i r hr
    cases h
    exact ⟨_, .bool false, startsWith_sound hr, .false, rfl, .bool false, fun n => .bool n false⟩
  split at h
  · rename_i r hr
    cases h
    exact ⟨_, .null, startsWith_sound hr, .null, rfl, .null, fun n => .null n⟩
  split at h
  · cases h
  · rename_i token r hmatch
    obtain ⟨htoken, hs⟩ := matchNumber_sound hmatch
    obtain ⟨_, hassert, hret⟩ := bind_eq_ok.mp h
    have hnum := ((assertNumber_decides (numberValue token) (lit "$")).cond_of_ok hassert).1
    cases hret
    exact ⟨token, .number token, hs, .number htoken, rfl, .number hnum, fun n => .number n token⟩

end Scalars

section
variable (numberValue : Str → JsNumber) {maxDepth stackLimit : Nat}

/-- What the reader asks of a tree at a depth. -/
def Admitted (maxDepth depth : Nat) (tree : JsonTree) : Prop :=
  Within (maxDepth + 1 - depth) tree ∧ Strict numberValue tree

/-- Reading a text at an allowed depth returns its value exactly when the tree is admitted. -/
def Reads (maxDepth stackLimit : Nat) (text : Str) (tree : JsonTree) : Prop :=
  ∀ fuel depth before rest, 2 * text.length ≤ fuel → depth ≤ maxDepth → Ws before → Ends Follow rest →
    Decides (parseValue numberValue maxDepth stackLimit fuel depth (before ++ (text ++ rest)))
      (Admitted numberValue maxDepth depth tree) (jsonValue numberValue tree, rest)

variable {numberValue}

variable {tree : JsonTree}

variable {text : Str}

theorem valueText_length (h : ValueText text tree) : 0 < text.length := by
  cases h with
  | null => decide
  | true => decide
  | false => decide
  | number h =>
    obtain ⟨c, r, rfl, -⟩ := numberText_head h
    simp
  | string h =>
    obtain ⟨body, rfl, -⟩ := h
    simp
  | emptyArray => simp
  | array => simp
  | emptyObject => simp
  | object => simp

theorem not_within_zero : ¬ Within 0 tree := by
  intro h
  cases h

theorem Reads.at_any_depth (h : Reads numberValue maxDepth stackLimit text tree) (hpos : 0 < text.length)
    (fuel depth : Nat) {before rest : Str} (hfuel : 2 * text.length ≤ fuel) (hbefore : Ws before)
    (hrest : Ends Follow rest) :
    Decides (parseValue numberValue maxDepth stackLimit fuel depth (before ++ (text ++ rest)))
      (Admitted numberValue maxDepth depth tree) (jsonValue numberValue tree, rest) := by
  by_cases hdepth : depth ≤ maxDepth
  · exact h fuel depth before rest hfuel hdepth hbefore hrest
  · obtain ⟨n, rfl⟩ : ∃ n, fuel = n + 1 := ⟨fuel - 1, by omega⟩
    have hzero : maxDepth + 1 - depth = 0 := by omega
    rw [parseValue, if_pos (by omega)]
    refine (Decides.fail _ _).of_iff ?_
    rw [Admitted, hzero]
    simp [not_within_zero]

variable {tail : Str} {c : UInt16}

theorem parseValue_step {fuel depth : Nat} {before : Str} (hstack : maxDepth ≤ stackLimit) (hdepth : depth ≤ maxDepth)
    (hbefore : Ws before) (hc : Solid c) :
    parseValue numberValue maxDepth stackLimit (fuel + 1) depth (before ++ c :: tail) =
      if c = 0x22 then do
        let (s, rest) ← parseString tail
        return (.str s, rest)
      else if c = 0x7B then
        match skipWhitespace tail with
        | [] => parseMembers numberValue maxDepth stackLimit fuel depth [] [] []
        | c :: rest =>
          if c = 0x7D then return (.obj [], rest)
          else parseMembers numberValue maxDepth stackLimit fuel depth [] [] (c :: rest)
      else if c = 0x5B then
        match skipWhitespace tail with
        | [] => parseItems numberValue maxDepth stackLimit fuel depth [] []
        | c :: rest =>
          if c = 0x5D then return (.arr [], rest)
          else parseItems numberValue maxDepth stackLimit fuel depth [] (c :: rest)
      else parseScalar numberValue (c :: tail) := by
  have hskip := skipWhitespace_append hbefore (ends_cons hc tail)
  rw [parseValue, if_neg (by omega), if_neg (by omega)]
  generalize skipWhitespace (before ++ c :: tail) = rest at hskip ⊢
  subst hskip
  rfl

theorem admitted_scalar {depth : Nat} (hdepth : depth ≤ maxDepth) (h : ∀ n, Within (n + 1) tree) :
    Admitted numberValue maxDepth depth tree ↔ Strict numberValue tree := by
  have hn : maxDepth + 1 - depth = (maxDepth - depth) + 1 := by omega
  unfold Admitted
  rw [hn]
  simp [h]

theorem reads_scalar (hstack : maxDepth ≤ stackLimit) (htext : text = c :: tail) (hc : Solid c)
    (hopen : c ≠ 0x22 ∧ c ≠ 0x7B ∧ c ≠ 0x5B) (hwithin : ∀ n, Within (n + 1) tree)
    (h : ∀ rest, Ends Follow rest → Decides (parseScalar numberValue (text ++ rest)) (Strict numberValue tree) (jsonValue numberValue tree, rest)) :
    Reads numberValue maxDepth stackLimit text tree := by
  intro fuel depth before rest hfuel hdepth hbefore hrest
  subst htext
  obtain ⟨n, rfl⟩ : ∃ n, fuel = n + 1 := ⟨fuel - 1, by simp only [List.length_cons] at hfuel; omega⟩
  have hread := h rest hrest
  rw [List.cons_append] at hread ⊢
  rw [parseValue_step hstack hdepth hbefore hc, if_neg hopen.1, if_neg hopen.2.1, if_neg hopen.2.2]
  exact hread.of_iff (admitted_scalar hdepth hwithin).symm

theorem reads_string {token s : Str} (hstack : maxDepth ≤ stackLimit) (h : StringText token s) :
    Reads numberValue maxDepth stackLimit token (.string s) := by
  intro fuel depth before rest hfuel hdepth hbefore hrest
  obtain ⟨body, rfl, hbody⟩ := h
  obtain ⟨n, rfl⟩ : ∃ n, fuel = n + 1 := ⟨fuel - 1, by simp only [List.length_cons] at hfuel; omega⟩
  rw [List.cons_append, List.append_assoc, List.cons_append, List.nil_append,
    parseValue_step hstack hdepth hbefore solid_quote, if_pos rfl]
  refine (Decides.bind (f := fun p => .ok (JsValue.str p.1, p.2)) (parseString_decides hbody rest)
    (fun _ => Decides.pure _)).of_iff ?_
  rw [admitted_scalar hdepth (fun n => .string n s), and_true]
  constructor
  · exact fun hs => .string hs
  · rintro (hs : Strict numberValue (.string s))
    cases hs with | string hs => exact hs

theorem follow_ws_append {w rest : Str} (hw : Ws w) (hrest : Ends Follow rest) :
    Ends Follow (w ++ rest) := by
  cases w with
  | nil => exact hrest
  | cons c w => exact ends_cons (.inl (hw c List.mem_cons_self)) _

theorem parseItems_step {p : Item} (hspace : Ws p.before ∧ Ws p.after) (hpos : 0 < p.text.length)
    (h : Reads numberValue maxDepth stackLimit p.text p.tree) (fuel : Nat) {depth : Nat} {value : List JsValue}
    (hfuel : 2 * p.text.length ≤ fuel) (hfollow : Follow c) (hsolid : Solid c) {cond : Prop} {r : JsValue × Str}
    (hnext : Decides (if c = 0x5D then return (.arr (value ++ [jsonValue numberValue p.tree]), tail) else if c = 0x2C then parseItems numberValue maxDepth stackLimit fuel depth (value ++ [jsonValue numberValue p.tree]) tail else invalid "$: comma or array end required") cond r) :
    Decides (parseItems numberValue maxDepth stackLimit (fuel + 1) depth value (p.written ++ c :: tail))
      (Admitted numberValue maxDepth (depth + 1) p.tree ∧ cond) r := by
  have hend : Ends Follow (p.after ++ c :: tail) := follow_ws_append hspace.2 (ends_cons hfollow tail)
  have htext : p.written ++ c :: tail = p.before ++ (p.text ++ (p.after ++ c :: tail)) := by
    simp [Item.written]
  rw [parseItems, htext]
  refine (h.at_any_depth hpos fuel (depth + 1) hfuel hspace.1 hend).bind ?_
  intro _
  simp only [skipWhitespace_append hspace.2 (ends_cons hsolid tail)]
  exact hnext

theorem parseItems_decides {items : List Item} (hne : items ≠ [])
    (hspace : ∀ p ∈ items, Ws p.before ∧ Ws p.after) (hpos : ∀ p ∈ items, 0 < p.text.length)
    (h : ∀ p ∈ items, Reads numberValue maxDepth stackLimit p.text p.tree) (depth : Nat) (rest : Str) :
    ∀ fuel value, 2 * (join 0x2C (items.map Item.written)).length + 1 ≤ fuel →
      Decides (parseItems numberValue maxDepth stackLimit fuel depth value
          (join 0x2C (items.map Item.written) ++ 0x5D :: rest))
        (∀ p ∈ items, Admitted numberValue maxDepth (depth + 1) p.tree)
        (.arr (value ++ items.map (fun p => jsonValue numberValue p.tree)), rest) := by
  induction items with
  | nil => exact absurd rfl hne
  | cons p items ih =>
    intro fuel value hfuel
    obtain ⟨n, rfl⟩ : ∃ n, fuel = n + 1 := ⟨fuel - 1, by omega⟩
    have hp := h p List.mem_cons_self
    have hsp := hspace p List.mem_cons_self
    have hpp := hpos p List.mem_cons_self
    cases items with
    | nil =>
      simp only [List.map_cons, List.map_nil, join, Item.written, List.length_append] at hfuel
      refine (parseItems_step hsp hpp hp n (by omega) (.inr (.inr (.inl rfl)))
        solid_bracket.2 (Decides.pure _)).of_iff ?_
      simp
    | cons q items =>
      have hjoin : join 0x2C ((p :: q :: items).map Item.written) ++ 0x5D :: rest =
          p.written ++ 0x2C :: (join 0x2C ((q :: items).map Item.written) ++ 0x5D :: rest) := by
        simp [join]
      have hlen : (join 0x2C ((p :: q :: items).map Item.written)).length =
          p.before.length + p.text.length + p.after.length + 1 +
            (join 0x2C ((q :: items).map Item.written)).length := by
        simp only [List.map_cons, join, List.length_append, List.length_cons, Item.written]
        omega
      rw [hlen] at hfuel
      have htail := ih (by simp) (fun x hx => hspace x (List.mem_cons_of_mem p hx))
        (fun x hx => hpos x (List.mem_cons_of_mem p hx)) (fun x hx => h x (List.mem_cons_of_mem p hx))
        n (value ++ [jsonValue numberValue p.tree]) (by omega)
      rw [hjoin]
      have hstep := parseItems_step hsp hpp hp n (by omega) (.inr (.inl rfl))
        solid_comma (by rw [if_neg (by decide), if_pos rfl]; exact htail)
      rw [List.append_assoc] at hstep
      refine hstep.of_iff ?_
      simp only [List.forall_mem_cons]

/-- What the reader asks of the members it has still to read, beside the names it has seen. -/
def MembersAdmitted (numberValue : Str → JsNumber) (maxDepth depth : Nat) (names : List Str)
    (members : List Member) : Prop :=
  (∀ m ∈ members, WellFormed m.name ∧ m.name ∉ names ∧ Admitted numberValue maxDepth depth m.value.tree) ∧
    (members.map Member.name).Nodup

variable {members : List Member}

theorem membersAdmitted_cons {depth : Nat} {names : List Str} {m : Member} :
    MembersAdmitted numberValue maxDepth depth names (m :: members) ↔
      (WellFormed m.name ∧ m.name ∉ names) ∧ Admitted numberValue maxDepth depth m.value.tree ∧
        MembersAdmitted numberValue maxDepth depth (m.name :: names) members := by
  unfold MembersAdmitted
  rw [List.map_cons, List.nodup_cons, List.forall_mem_cons]
  constructor
  · rintro ⟨⟨⟨hwf, hnew, hadm⟩, hall⟩, hhead, htail⟩
    refine ⟨⟨hwf, hnew⟩, hadm, ?_, htail⟩
    intro n hn
    obtain ⟨hwfn, hnewn, hadmn⟩ := hall n hn
    refine ⟨hwfn, ?_, hadmn⟩
    rw [List.mem_cons, not_or]
    exact ⟨fun heq => hhead (heq ▸ List.mem_map_of_mem hn), hnewn⟩
  · rintro ⟨⟨hwf, hnew⟩, hadm, hall, htail⟩
    refine ⟨⟨⟨hwf, hnew, hadm⟩, ?_⟩, ?_, htail⟩
    · intro n hn
      obtain ⟨hwfn, hnewn, hadmn⟩ := hall n hn
      exact ⟨hwfn, fun hmem => hnewn (List.mem_cons_of_mem _ hmem), hadmn⟩
    · intro hmem
      obtain ⟨n, hn, heq⟩ := List.mem_map.mp hmem
      exact (hall n hn).2.1 (heq ▸ List.mem_cons_self)

theorem parseMembers_step {m : Member} (hspace : Ws m.before ∧ Ws m.gap ∧ Ws m.value.before ∧ Ws m.value.after)
    (hname : StringText m.token m.name) (hpos : 0 < m.value.text.length)
    (h : Reads numberValue maxDepth stackLimit m.value.text m.value.tree) (fuel : Nat) {depth : Nat}
    {value : List (Str × JsValue)} {names : List Str} (hfuel : 2 * m.value.text.length ≤ fuel) (hfollow : Follow c)
    (hsolid : Solid c) {cond : Prop} {r : JsValue × Str}
    (hnext : Decides (if c = 0x7D then return (.obj (setMember m.name (jsonValue numberValue m.value.tree) value), tail) else if c = 0x2C then parseMembers numberValue maxDepth stackLimit fuel depth (setMember m.name (jsonValue numberValue m.value.tree) value) (m.name :: names) tail else invalid "$: comma or object end required") cond r) :
    Decides (parseMembers numberValue maxDepth stackLimit (fuel + 1) depth value names
        (m.written ++ c :: tail))
      ((WellFormed m.name ∧ m.name ∉ names) ∧
        Admitted numberValue maxDepth (depth + 1) m.value.tree ∧ cond) r := by
  obtain ⟨body, htoken, hbody⟩ := hname
  have hend : Ends Follow (m.value.after ++ c :: tail) :=
    follow_ws_append hspace.2.2.2 (ends_cons hfollow tail)
  have htext : m.written ++ c :: tail = m.before ++ 0x22 :: (body ++ 0x22 :: (m.gap ++ 0x3A ::
      (m.value.before ++ (m.value.text ++ (m.value.after ++ c :: tail))))) := by
    simp [Member.written, Item.written, htoken]
  rw [parseMembers, htext,
    skipWhitespace_append hspace.1 (ends_cons solid_quote _)]
  simp only [ne_eq, not_true_eq_false, if_false]
  rw [and_assoc]
  refine (parseString_decides hbody _).bind ?_
  intro _
  simp only [skipWhitespace_append hspace.2.1 (ends_cons solid_colon _),
    not_true_eq_false, if_false]
  by_cases hseen : m.name ∈ names
  · rw [if_pos hseen]
    exact (Decides.fail _ _).of_iff (by simp [hseen])
  · rw [if_neg hseen]
    have hvalue := h.at_any_depth hpos fuel (depth + 1) hfuel hspace.2.2.1 hend
    refine (hvalue.bind (fun _ => ?_)).of_iff (iff_of_eq (by rw [eq_true hseen, true_and]))
    simp only [skipWhitespace_append hspace.2.2.2 (ends_cons hsolid tail)]
    exact hnext

theorem parseMembers_decides (hne : members ≠ [])
    (hspace : ∀ m ∈ members, Ws m.before ∧ Ws m.gap ∧ Ws m.value.before ∧ Ws m.value.after)
    (hnames : ∀ m ∈ members, StringText m.token m.name) (hpos : ∀ m ∈ members, 0 < m.value.text.length)
    (h : ∀ m ∈ members, Reads numberValue maxDepth stackLimit m.value.text m.value.tree) (depth : Nat) (rest : Str) :
    ∀ fuel value names, 2 * (join 0x2C (members.map Member.written)).length + 1 ≤ fuel →
      Decides (parseMembers numberValue maxDepth stackLimit fuel depth value names
          (join 0x2C (members.map Member.written) ++ 0x7D :: rest))
        (MembersAdmitted numberValue maxDepth (depth + 1) names members)
        (.obj (assign value (members.map (fun m => (m.name, jsonValue numberValue m.value.tree)))), rest) := by
  induction members with
  | nil => exact absurd rfl hne
  | cons m members ih =>
    intro fuel value names hfuel
    obtain ⟨n, rfl⟩ : ∃ n, fuel = n + 1 := ⟨fuel - 1, by omega⟩
    have hm := h m List.mem_cons_self
    have hsm := hspace m List.mem_cons_self
    have hnm := hnames m List.mem_cons_self
    have hpm := hpos m List.mem_cons_self
    cases members with
    | nil =>
      simp only [List.map_cons, List.map_nil, join, Member.written, Item.written, List.length_append,
        List.length_cons] at hfuel
      refine (parseMembers_step hsm hnm hpm hm n (by omega) (.inr (.inr (.inr rfl)))
        solid_brace.2 (Decides.pure _)).of_iff ?_
      rw [membersAdmitted_cons]
      simp [MembersAdmitted]
    | cons q members =>
      have hjoin : join 0x2C ((m :: q :: members).map Member.written) ++ 0x7D :: rest =
          m.written ++ 0x2C :: (join 0x2C ((q :: members).map Member.written) ++ 0x7D :: rest) := by
        simp [join]
      have hlen : m.value.text.length + 1 + (join 0x2C ((q :: members).map Member.written)).length ≤
          (join 0x2C ((m :: q :: members).map Member.written)).length := by
        simp only [List.map_cons, join, List.length_append, List.length_cons, Member.written, Item.written]
        omega
      have htail := ih (by simp) (fun x hx => hspace x (List.mem_cons_of_mem m hx))
        (fun x hx => hnames x (List.mem_cons_of_mem m hx)) (fun x hx => hpos x (List.mem_cons_of_mem m hx))
        (fun x hx => h x (List.mem_cons_of_mem m hx)) n
        (setMember m.name (jsonValue numberValue m.value.tree) value) (m.name :: names) (by omega)
      rw [hjoin]
      exact (parseMembers_step hsm hnm hpm hm n (by omega) (.inr (.inl rfl))
        solid_comma
        (by rw [if_neg (by decide), if_pos rfl]; exact htail)).of_iff membersAdmitted_cons.symm

theorem skipWhitespace_idem (s : Str) : skipWhitespace (skipWhitespace s) = skipWhitespace s := by
  induction s with
  | nil => rfl
  | cons c s ih =>
    by_cases hc : isWs c = true
    · rw [skipWhitespace, skipWhitespace, List.dropWhile_cons_of_pos hc]
      exact ih
    · rw [skipWhitespace, skipWhitespace, List.dropWhile_cons_of_neg hc, List.dropWhile_cons_of_neg hc]

theorem parseValue_skip (fuel depth : Nat) (s : Str) :
    parseValue numberValue maxDepth stackLimit fuel depth (skipWhitespace s) =
      parseValue numberValue maxDepth stackLimit fuel depth s := by
  cases fuel with
  | zero => rw [parseValue, parseValue]
  | succ fuel => rw [parseValue, parseValue, skipWhitespace_idem]

theorem parseItems_skip (fuel depth : Nat) (value : List JsValue) (s : Str) :
    parseItems numberValue maxDepth stackLimit fuel depth value (skipWhitespace s) =
      parseItems numberValue maxDepth stackLimit fuel depth value s := by
  cases fuel with
  | zero => rw [parseItems, parseItems]
  | succ fuel => rw [parseItems, parseItems, parseValue_skip]

theorem parseMembers_skip (fuel depth : Nat) (value : List (Str × JsValue)) (names : List Str) (s : Str) :
    parseMembers numberValue maxDepth stackLimit fuel depth value names (skipWhitespace s) =
      parseMembers numberValue maxDepth stackLimit fuel depth value names s := by
  cases fuel with
  | zero => rw [parseMembers, parseMembers]
  | succ fuel => rw [parseMembers, parseMembers, skipWhitespace_idem]

theorem open_loop {close : UInt16} {empty : Str → Except IJsonError (JsValue × Str)}
    {loop : Str → Except IJsonError (JsValue × Str)} (hloop : loop (skipWhitespace tail) = loop tail)
    (hne : ∀ r, skipWhitespace tail ≠ close :: r) : (match skipWhitespace tail with
      | [] => loop []
      | c :: rest => if c = close then empty rest else loop (c :: rest)) = loop tail := by
  rw [← hloop]
  cases hskip : skipWhitespace tail with
  | nil => rfl
  | cons c rest =>
    have hc : c ≠ close := by
      rintro rfl
      exact hne rest hskip
    simp only [if_neg hc]

theorem valueText_head (h : ValueText text tree) : ∃ c r, text = c :: r ∧ Solid c ∧ c ≠ 0x5D := by
  cases h with
  | null => exact ⟨0x6E, _, rfl, by decide, by decide⟩
  | true => exact ⟨0x74, _, rfl, by decide, by decide⟩
  | false => exact ⟨0x66, _, rfl, by decide, by decide⟩
  | number h =>
    obtain ⟨c, r, rfl, hc⟩ := numberText_head h
    refine ⟨c, r, rfl, ?_, ?_⟩
    · have hsolid : isWs c = false := by
        by_contra hws
        obtain rfl | rfl | rfl | rfl := isWs_cases (Bool.not_eq_false _ ▸ hws)
        all_goals exact absurd hc (by decide)
      exact hsolid
    · rintro rfl
      exact absurd hc (by decide)
  | string h =>
    obtain ⟨body, rfl, -⟩ := h
    exact ⟨0x22, _, rfl, by decide, by decide⟩
  | emptyArray => exact ⟨0x5B, _, rfl, by decide, by decide⟩
  | array => exact ⟨0x5B, _, rfl, by decide, by decide⟩
  | emptyObject => exact ⟨0x7B, _, rfl, by decide, by decide⟩
  | object => exact ⟨0x7B, _, rfl, by decide, by decide⟩

theorem items_not_closed {items : List Item} (hne : items ≠ [])
    (hspace : ∀ p ∈ items, Ws p.before ∧ Ws p.after)
    (hvalues : ∀ p ∈ items, ValueText p.text p.tree) (rest r : Str) :
    skipWhitespace (join 0x2C (items.map Item.written) ++ rest) ≠ 0x5D :: r := by
  cases items with
  | nil => exact absurd rfl hne
  | cons p items =>
    obtain ⟨c, t, htext, hsolid, hclose⟩ := valueText_head (hvalues p List.mem_cons_self)
    rw [List.map_cons, join_cons, Item.written, htext]
    simp only [List.append_assoc, List.cons_append]
    rw [skipWhitespace_append (hspace p List.mem_cons_self).1 (ends_cons hsolid _)]
    intro h
    exact hclose (List.cons.inj h).1

theorem members_not_closed (hne : members ≠ [])
    (hspace : ∀ m ∈ members, Ws m.before ∧ Ws m.gap ∧ Ws m.value.before ∧ Ws m.value.after)
    (hnames : ∀ m ∈ members, StringText m.token m.name) (rest r : Str) :
    skipWhitespace (join 0x2C (members.map Member.written) ++ rest) ≠ 0x7D :: r := by
  cases members with
  | nil => exact absurd rfl hne
  | cons m members =>
    obtain ⟨body, htoken, -⟩ := hnames m List.mem_cons_self
    rw [List.map_cons, join_cons, Member.written, htoken]
    simp only [List.append_assoc, List.cons_append]
    rw [skipWhitespace_append (hspace m List.mem_cons_self).1 (ends_cons solid_quote _)]
    intro h
    exact absurd (List.cons.inj h).1 (by decide)

theorem admitted_array {depth : Nat} (hdepth : depth ≤ maxDepth) {items : List JsonTree} :
    Admitted numberValue maxDepth depth (.array items) ↔
      ∀ t ∈ items, Admitted numberValue maxDepth (depth + 1) t := by
  have hn : maxDepth + 1 - depth = (maxDepth + 1 - (depth + 1)) + 1 := by omega
  unfold Admitted
  rw [hn]
  constructor
  · rintro ⟨hwithin, hstrict⟩ t ht
    cases hwithin with | array hwithin =>
    cases hstrict with | array hstrict =>
    exact ⟨hwithin t ht, hstrict t ht⟩
  · intro h
    exact ⟨.array (fun t ht => (h t ht).1), .array (fun t ht => (h t ht).2)⟩

theorem admitted_object {depth : Nat} (hdepth : depth ≤ maxDepth) {members : List Member} :
    Admitted numberValue maxDepth depth (.object (members.map (fun m => (m.name, m.value.tree)))) ↔
      MembersAdmitted numberValue maxDepth (depth + 1) [] members := by
  have hn : maxDepth + 1 - depth = (maxDepth + 1 - (depth + 1)) + 1 := by omega
  have hfst : (members.map (fun m => (m.name, m.value.tree))).map Prod.fst = members.map Member.name := by
    rw [List.map_map]
    rfl
  have hmem {m : Member} (hm : m ∈ members) :
      (m.name, m.value.tree) ∈ members.map (fun m => (m.name, m.value.tree)) :=
    List.mem_map_of_mem hm
  unfold Admitted MembersAdmitted
  rw [hn]
  constructor
  · rintro ⟨hwithin, hstrict⟩
    cases hwithin with | object hwithin =>
    cases hstrict with | object hnames hwf hstrict =>
    rw [hfst] at hnames
    refine ⟨?_, hnames⟩
    intro m hm
    exact ⟨hwf _ (hmem hm), List.not_mem_nil, hwithin _ (hmem hm), hstrict _ (hmem hm)⟩
  · rintro ⟨hall, hnames⟩
    rw [← hfst] at hnames
    refine ⟨.object ?_, .object hnames ?_ ?_⟩ <;>
    · intro p hp
      obtain ⟨m, hm, rfl⟩ := List.mem_map.mp hp
      obtain ⟨hwf, -, hwithin, hstrict⟩ := hall m hm
      assumption

theorem reads_of_valueText (hstack : maxDepth ≤ stackLimit) (h : ValueText text tree) :
    Reads numberValue maxDepth stackLimit text tree := by
  induction h with
  | null =>
    refine reads_scalar hstack (show lit "null" = 0x6E :: lit "ull" from rfl) (by decide) (by decide)
      (fun n => .null n) ?_
    intro rest _
    exact (Decides.pure _).of_iff (iff_of_true trivial .null)
  | true =>
    refine reads_scalar hstack (show lit "true" = 0x74 :: lit "rue" from rfl) (by decide) (by decide)
      (fun n => .bool n true) ?_
    intro rest _
    exact (Decides.pure _).of_iff (iff_of_true trivial (.bool true))
  | false =>
    refine reads_scalar hstack (show lit "false" = 0x66 :: lit "alse" from rfl) (by decide) (by decide)
      (fun n => .bool n false) ?_
    intro rest _
    exact (Decides.pure _).of_iff (iff_of_true trivial (.bool false))
  | @number s hs =>
    obtain ⟨c, r, heq, hsolid, -⟩ := valueText_head (.number hs)
    obtain ⟨c', r', heq', hc⟩ := numberText_head hs
    have hopen : c ≠ 0x22 ∧ c ≠ 0x7B ∧ c ≠ 0x5B := by
      rw [heq] at heq'
      obtain ⟨rfl, -⟩ := List.cons.inj heq'
      refine ⟨?_, ?_, ?_⟩ <;>
      · rintro rfl
        exact absurd hc (by decide)
    refine reads_scalar hstack heq hsolid hopen (fun n => .number n s) ?_
    intro rest hrest
    refine (parseScalar_number numberValue hs hrest).of_iff ?_
    constructor
    · exact fun hnum => .number hnum
    · rintro (hstrict : Strict numberValue (.number s))
      cases hstrict with | number hnum => exact hnum
  | string hs => exact reads_string hstack hs
  | @emptyArray gap hgap =>
    intro fuel depth before rest hfuel hdepth hbefore hrest
    obtain ⟨n, rfl⟩ : ∃ n, fuel = n + 1 := ⟨fuel - 1, by simp only [List.length_cons] at hfuel; omega⟩
    rw [List.cons_append, List.append_assoc, parseValue_step hstack hdepth hbefore solid_bracket.1,
      if_neg (by decide), if_neg (by decide), if_pos rfl, List.cons_append, List.nil_append,
      skipWhitespace_append hgap (ends_cons solid_bracket.2 rest)]
    exact (Decides.pure _).of_iff (by rw [admitted_array hdepth]; simp)
  | @array items hne hspace hvalues ih =>
    intro fuel depth before rest hfuel hdepth hbefore hrest
    simp only [List.length_cons, List.length_append, List.length_nil] at hfuel
    obtain ⟨n, rfl⟩ : ∃ n, fuel = n + 1 := ⟨fuel - 1, by omega⟩
    rw [List.cons_append, List.append_assoc, parseValue_step hstack hdepth hbefore solid_bracket.1,
      if_neg (by decide), if_neg (by decide), if_pos rfl, List.cons_append, List.nil_append,
      open_loop (parseItems_skip n depth [] _) (items_not_closed hne hspace hvalues _)]
    have hread := parseItems_decides hne hspace (fun p hp => valueText_length (hvalues p hp)) ih depth rest
      n [] (by omega)
    rw [jsonValue, jsonItems_eq_map, List.map_map]
    refine hread.of_iff ?_
    rw [admitted_array hdepth]
    simp
  | @emptyObject gap hgap =>
    intro fuel depth before rest hfuel hdepth hbefore hrest
    obtain ⟨n, rfl⟩ : ∃ n, fuel = n + 1 := ⟨fuel - 1, by simp only [List.length_cons] at hfuel; omega⟩
    rw [List.cons_append, List.append_assoc, parseValue_step hstack hdepth hbefore solid_brace.1,
      if_neg (by decide), if_pos rfl, List.cons_append, List.nil_append,
      skipWhitespace_append hgap (ends_cons solid_brace.2 rest)]
    refine (Decides.pure _).of_iff ?_
    have hobject := @admitted_object numberValue maxDepth depth hdepth []
    simpa [MembersAdmitted] using hobject
  | @object members hne hspace hnames hvalues ih =>
    intro fuel depth before rest hfuel hdepth hbefore hrest
    simp only [List.length_cons, List.length_append, List.length_nil] at hfuel
    obtain ⟨n, rfl⟩ : ∃ n, fuel = n + 1 := ⟨fuel - 1, by omega⟩
    rw [List.cons_append, List.append_assoc, parseValue_step hstack hdepth hbefore solid_brace.1,
      if_neg (by decide), if_pos rfl, List.cons_append, List.nil_append,
      open_loop (parseMembers_skip n depth [] [] _) (members_not_closed hne hspace hnames _)]
    have hread := parseMembers_decides hne hspace hnames (fun m hm => valueText_length (hvalues m hm)) ih
      depth rest n [] [] (by omega)
    rw [jsonValue, jsonMembers_eq_map, List.map_map]
    exact hread.of_iff (admitted_object hdepth).symm

def SoundValue (numberValue : Str → JsNumber) (maxDepth stackLimit fuel : Nat) : Prop :=
  ∀ depth s v rest, parseValue numberValue maxDepth stackLimit fuel depth s = .ok (v, rest) →
    ∃ before text tree, s = before ++ (text ++ rest) ∧ Ws before ∧ ValueText text tree ∧
      v = jsonValue numberValue tree ∧ Admitted numberValue maxDepth depth tree

def SoundItems (numberValue : Str → JsNumber) (maxDepth stackLimit fuel : Nat) : Prop :=
  ∀ depth value s v rest, parseItems numberValue maxDepth stackLimit fuel depth value s = .ok (v, rest) →
    ∃ items : List Item, items ≠ [] ∧ s = join 0x2C (items.map Item.written) ++ 0x5D :: rest ∧
      (∀ p ∈ items, Ws p.before ∧ Ws p.after) ∧ (∀ p ∈ items, ValueText p.text p.tree) ∧
      v = .arr (value ++ items.map (fun p => jsonValue numberValue p.tree)) ∧
      ∀ p ∈ items, Admitted numberValue maxDepth (depth + 1) p.tree

def SoundMembers (numberValue : Str → JsNumber) (maxDepth stackLimit fuel : Nat) : Prop :=
  ∀ depth value names s v rest,
    parseMembers numberValue maxDepth stackLimit fuel depth value names s = .ok (v, rest) →
    ∃ members : List Member, members ≠ [] ∧
      s = join 0x2C (members.map Member.written) ++ 0x7D :: rest ∧
      (∀ m ∈ members, Ws m.before ∧ Ws m.gap ∧ Ws m.value.before ∧ Ws m.value.after) ∧
      (∀ m ∈ members, StringText m.token m.name) ∧
      (∀ m ∈ members, ValueText m.value.text m.value.tree) ∧
      v = .obj (assign value (members.map (fun m => (m.name, jsonValue numberValue m.value.tree)))) ∧
      MembersAdmitted numberValue maxDepth (depth + 1) names members

theorem soundItems_succ {fuel : Nat} (hvalue : SoundValue numberValue maxDepth stackLimit fuel)
    (hitems : SoundItems numberValue maxDepth stackLimit fuel) :
    SoundItems numberValue maxDepth stackLimit (fuel + 1) := by
  intro depth value s v rest h
  rw [parseItems] at h
  obtain ⟨⟨w, s₁⟩, hw, h⟩ := bind_eq_ok.mp h
  obtain ⟨before, text, tree, rfl, hbefore, htext, rfl, hadm⟩ := hvalue _ _ _ _ hw
  obtain ⟨after, hafter, hs₁⟩ := skipWhitespace_split s₁
  let p : Item := ⟨before, text, after, tree⟩
  cases hskip : skipWhitespace s₁ with
  | nil =>
    simp only [hskip] at h
    cases h
  | cons c s₂ =>
    simp only [hskip] at h
    rw [hskip] at hs₁
    have hwritten : before ++ (text ++ s₁) = p.written ++ c :: s₂ := by
      rw [hs₁]
      simp [p, Item.written]
    split at h
    · rename_i hc
      cases h
      refine ⟨[p], by simp, ?_, ?_, ?_, by simp [p], ?_⟩
      · rw [hwritten, hc]
        rfl
      · simpa [p] using ⟨hbefore, hafter⟩
      · simpa [p] using htext
      · simpa [p] using hadm
    split at h
    · rename_i hc
      obtain ⟨items, hne, rfl, hspace, hvalues, rfl, hadms⟩ := hitems _ _ _ _ _ h
      refine ⟨p :: items, by simp, ?_, ?_, ?_, by simp [p], ?_⟩
      · obtain ⟨q, qs, rfl⟩ := List.exists_cons_of_ne_nil hne
        rw [hwritten, hc]
        simp [join]
      · exact List.forall_mem_cons.mpr ⟨⟨hbefore, hafter⟩, hspace⟩
      · exact List.forall_mem_cons.mpr ⟨htext, hvalues⟩
      · exact List.forall_mem_cons.mpr ⟨hadm, hadms⟩
    · cases h

theorem soundMembers_succ {fuel : Nat} (hvalue : SoundValue numberValue maxDepth stackLimit fuel)
    (hmembers : SoundMembers numberValue maxDepth stackLimit fuel) :
    SoundMembers numberValue maxDepth stackLimit (fuel + 1) := by
  intro depth value names s v rest h
  rw [parseMembers] at h
  obtain ⟨start, hstart, hs⟩ := skipWhitespace_split s
  cases hskip : skipWhitespace s with
  | nil =>
    simp only [hskip] at h
    cases h
  | cons quote s₁ =>
    simp only [hskip] at h
    rw [hskip] at hs
    split at h
    · cases h
    rename_i hquote
    have hquote : quote = 0x22 := not_not.mp hquote
    subst hquote
    obtain ⟨⟨name, s₂⟩, hname, hcont⟩ := bind_eq_ok.mp h
    obtain ⟨token, rfl, htoken, hwf⟩ := parseString_sound hname
    simp only at hcont
    split at hcont
    · cases hcont
    rename_i hnew
    obtain ⟨gap, hgap, hs₂⟩ := skipWhitespace_split s₂
    cases hskip₂ : skipWhitespace s₂ with
    | nil =>
      simp only [hskip₂] at hcont
      cases hcont
    | cons colon s₃ =>
      simp only [hskip₂] at hcont
      rw [hskip₂] at hs₂
      split at hcont
      · cases hcont
      rename_i hcolon
      have hcolon : colon = 0x3A := not_not.mp hcolon
      subst hcolon
      obtain ⟨⟨w, s₄⟩, hw, hend⟩ := bind_eq_ok.mp hcont
      obtain ⟨before, text, tree, rfl, hbefore, htext, rfl, hadm⟩ := hvalue _ _ _ _ hw
      obtain ⟨after, hafter, hs₄⟩ := skipWhitespace_split s₄
      let m : Member := ⟨start, 0x22 :: token, name, gap, ⟨before, text, after, tree⟩⟩
      cases hskip₄ : skipWhitespace s₄ with
      | nil =>
        simp only [hskip₄] at hend
        cases hend
      | cons c s₅ =>
        simp only [hskip₄] at hend
        rw [hskip₄] at hs₄
        have hwritten : s = m.written ++ c :: s₅ := by
          rw [hs, hs₂, hs₄]
          simp [m, Member.written, Item.written]
        split at hend
        · rename_i hc
          cases hend
          refine ⟨[m], by simp, ?_, ?_, ?_, ?_, by simp [m, assign], ?_⟩
          · rw [hwritten, hc]
            rfl
          · simpa [m] using ⟨hstart, hgap, hbefore, hafter⟩
          · simpa [m] using htoken
          · simpa [m] using htext
          · rw [membersAdmitted_cons]
            exact ⟨⟨hwf, hnew⟩, hadm, by simp [MembersAdmitted]⟩
        split at hend
        · rename_i hc
          obtain ⟨members, hne, rfl, hspace, hnames, hvalues, rfl, hadms⟩ := hmembers _ _ _ _ _ _ hend
          refine ⟨m :: members, by simp, ?_, ?_, ?_, ?_, by simp [m, assign], ?_⟩
          · obtain ⟨q, qs, rfl⟩ := List.exists_cons_of_ne_nil hne
            rw [hwritten, hc]
            simp [join]
          · exact List.forall_mem_cons.mpr ⟨⟨hstart, hgap, hbefore, hafter⟩, hspace⟩
          · exact List.forall_mem_cons.mpr ⟨htoken, hnames⟩
          · exact List.forall_mem_cons.mpr ⟨htext, hvalues⟩
          · rw [membersAdmitted_cons]
            exact ⟨⟨hwf, hnew⟩, hadm, hadms⟩
        · cases hend

theorem soundValue_succ {fuel : Nat} (hitems : SoundItems numberValue maxDepth stackLimit fuel)
    (hmembers : SoundMembers numberValue maxDepth stackLimit fuel) :
    SoundValue numberValue maxDepth stackLimit (fuel + 1) := by
  intro depth s v rest h
  rw [parseValue] at h
  split at h
  · cases h
  split at h
  · cases h
  rename_i hmax _
  have hdepth : depth ≤ maxDepth := not_lt.mp hmax
  obtain ⟨before, hbefore, hs⟩ := skipWhitespace_split s
  have hscalar : ∀ t, skipWhitespace s = t → parseScalar numberValue t = .ok (v, rest) →
      ∃ before text tree, s = before ++ (text ++ rest) ∧ Ws before ∧ ValueText text tree ∧
        v = jsonValue numberValue tree ∧ Admitted numberValue maxDepth depth tree := by
    intro t ht hparse
    obtain ⟨text, tree, htext, hvalue, hv, hstrict, hwithin⟩ := parseScalar_sound numberValue hparse
    refine ⟨before, text, tree, ?_, hbefore, hvalue, hv, (admitted_scalar hdepth hwithin).mpr hstrict⟩
    rw [← htext, ← ht]
    exact hs
  cases hskip : skipWhitespace s with
  | nil =>
    simp only [hskip] at h
    exact hscalar [] hskip h
  | cons c s₁ =>
    simp only [hskip] at h
    split at h
    · rename_i hc
      obtain ⟨⟨str, s₂⟩, hstr, hret⟩ := bind_eq_ok.mp h
      obtain ⟨token, rfl, htoken, hwf⟩ := parseString_sound hstr
      cases hret
      refine ⟨before, 0x22 :: token, .string str, ?_, hbefore, .string htoken, rfl,
        (admitted_scalar hdepth (fun n => .string n str)).mpr (.string hwf)⟩
      rw [hs, hskip, hc]
      rfl
    split at h
    · rename_i hc
      obtain ⟨gap, hgap, hs₁⟩ := skipWhitespace_split s₁
      cases hskip₁ : skipWhitespace s₁ with
      | nil =>
        simp only [hskip₁] at h
        obtain ⟨members, -, hnil, -⟩ := hmembers _ _ _ _ _ _ h
        simp at hnil
      | cons d s₂ =>
        simp only [hskip₁] at h
        rw [hskip₁] at hs₁
        split at h
        · rename_i hd
          cases h
          refine ⟨before, 0x7B :: (gap ++ [0x7D]), .object [], ?_, hbefore, .emptyObject hgap, rfl, ?_⟩
          · rw [hs, hskip, hc, hs₁, hd]
            simp
          · have hobject := @admitted_object numberValue maxDepth depth hdepth []
            exact hobject.mpr (by simp [MembersAdmitted])
        · rw [← hskip₁, parseMembers_skip] at h
          obtain ⟨members, hne, hjoin, hspace, hnames, hvalues, rfl, hadm⟩ := hmembers _ _ _ _ _ _ h
          refine ⟨before, 0x7B :: (join 0x2C (members.map Member.written) ++ [0x7D]), _, ?_, hbefore,
            .object hne hspace hnames hvalues, ?_, (admitted_object hdepth).mpr hadm⟩
          · rw [hs, hskip, hc, hjoin]
            simp
          · rw [jsonValue, jsonMembers_eq_map, List.map_map]
            rfl
    split at h
    · rename_i hc
      obtain ⟨gap, hgap, hs₁⟩ := skipWhitespace_split s₁
      cases hskip₁ : skipWhitespace s₁ with
      | nil =>
        simp only [hskip₁] at h
        obtain ⟨items, -, hnil, -⟩ := hitems _ _ _ _ _ h
        simp at hnil
      | cons d s₂ =>
        simp only [hskip₁] at h
        rw [hskip₁] at hs₁
        split at h
        · rename_i hd
          cases h
          refine ⟨before, 0x5B :: (gap ++ [0x5D]), .array [], ?_, hbefore, .emptyArray hgap, rfl, ?_⟩
          · rw [hs, hskip, hc, hs₁, hd]
            simp
          · exact (admitted_array hdepth).mpr (by simp)
        · rw [← hskip₁, parseItems_skip] at h
          obtain ⟨items, hne, hjoin, hspace, hvalues, rfl, hadm⟩ := hitems _ _ _ _ _ h
          refine ⟨before, 0x5B :: (join 0x2C (items.map Item.written) ++ [0x5D]), _, ?_, hbefore,
            .array hne hspace hvalues, ?_, (admitted_array hdepth).mpr (by simpa using hadm)⟩
          · rw [hs, hskip, hc, hjoin]
            simp
          · rw [jsonValue, jsonItems_eq_map, List.map_map]
            rfl
    · exact hscalar _ hskip h

/-- By induction on the fuel: the reader returns only values of texts it has read. -/
theorem sound_all (numberValue : Str → JsNumber) (maxDepth stackLimit fuel : Nat) :
    SoundValue numberValue maxDepth stackLimit fuel ∧ SoundItems numberValue maxDepth stackLimit fuel ∧
      SoundMembers numberValue maxDepth stackLimit fuel := by
  induction fuel with
  | zero =>
    refine ⟨?_, ?_, ?_⟩
    · intro depth s v rest h
      rw [parseValue] at h
      cases h
    · intro depth value s v rest h
      rw [parseItems] at h
      cases h
    · intro depth value names s v rest h
      rw [parseMembers] at h
      cases h
  | succ fuel ih =>
    obtain ⟨hvalue, hitems, hmembers⟩ := ih
    exact ⟨soundValue_succ hitems hmembers, soundItems_succ hvalue hitems,
      soundMembers_succ hvalue hmembers⟩

end

theorem mem_setMember {name : Str} {v : JsValue} {members : List (Str × JsValue)} {m : Str × JsValue}
    (h : m ∈ setMember name v members) : m = (name, v) ∨ m ∈ members := by
  unfold setMember at h
  split at h
  · obtain ⟨n, hn, heq⟩ := List.mem_map.mp h
    split at heq
    · exact .inl heq.symm
    · exact .inr (heq ▸ hn)
  · obtain h | h := List.mem_append.mp h
    · exact .inr (List.takeWhile_subset _ h)
    · obtain h | h := List.mem_cons.mp h
      · exact .inl h
      · exact .inr (List.dropWhile_subset _ h)

theorem mem_assign {ms : List (Str × JsValue)} {acc : List (Str × JsValue)} {m : Str × JsValue}
    (h : m ∈ assign acc ms) : m ∈ acc ∨ m ∈ ms := by
  induction ms generalizing acc with
  | nil => exact .inl h
  | cons n ms ih =>
    obtain h | h := ih h
    · obtain h | h := mem_setMember h
      · exact .inr (h ▸ List.mem_cons_self)
      · exact .inl h
    · exact .inr (List.mem_cons_of_mem n h)

theorem assertIJsonItems_ok {items : List JsValue} (h : ∀ v ∈ items, ∀ path, assertIJson path v = .ok ())
    (path : Str) : ∀ i, assertIJsonItems path i items = .ok () := by
  induction items with
  | nil =>
    intro i
    rw [assertIJsonItems]
    rfl
  | cons v rest ih =>
    intro i
    rw [assertIJsonItems, h v List.mem_cons_self]
    exact ih (fun w hw => h w (List.mem_cons_of_mem v hw)) (i + 1)

theorem assertIJsonMembers_ok {members : List (Str × JsValue)} (hwf : ∀ m ∈ members, WellFormed m.1)
    (h : ∀ m ∈ members, ∀ path, assertIJson path m.2 = .ok ()) (path : Str) :
    assertIJsonMembers path members = .ok () := by
  induction members with
  | nil =>
    rw [assertIJsonMembers]
    rfl
  | cons m rest ih =>
    have hname := (assertString_decides m.1 (path ++ lit " key")).1 (hwf m List.mem_cons_self)
    rw [assertIJson] at hname
    rw [assertIJsonMembers, hname, h m List.mem_cons_self]
    exact ih (fun w hw => hwf w (List.mem_cons_of_mem m hw)) (fun w hw => h w (List.mem_cons_of_mem m hw))

theorem assertIJson_strict {numberValue : Str → JsNumber} {tree : JsonTree} (h : Strict numberValue tree) :
    ∀ path, assertIJson path (jsonValue numberValue tree) = .ok () := by
  induction h with
  | null =>
    intro path
    rw [jsonValue, assertIJson]
    rfl
  | bool b =>
    intro path
    rw [jsonValue, assertIJson]
    rfl
  | number hnum =>
    intro path
    rw [jsonValue]
    exact (assertNumber_decides _ path).1 hnum
  | string hs =>
    intro path
    rw [jsonValue]
    exact (assertString_decides _ path).1 hs
  | array _ ih =>
    intro path
    rw [jsonValue, assertIJson, jsonItems_eq_map]
    refine assertIJsonItems_ok ?_ path 0
    intro v hv
    obtain ⟨t, ht, rfl⟩ := List.mem_map.mp hv
    exact ih t ht
  | @object members _ hwf _ ih =>
    intro path
    rw [jsonValue, assertIJson, jsonMembers_eq_map]
    have hmem : ∀ m ∈ assign [] (members.map (fun m => (m.1, jsonValue numberValue m.2))),
        ∃ n ∈ members, (n.1, jsonValue numberValue n.2) = m := by
      intro m hm
      obtain hm | hm := mem_assign hm
      · cases hm
      · exact List.mem_map.mp hm
    refine assertIJsonMembers_ok ?_ ?_ path
    · intro m hm
      obtain ⟨n, hn, rfl⟩ := hmem m hm
      exact hwf n hn
    · intro m hm
      obtain ⟨n, hn, rfl⟩ := hmem m hm
      exact ih n hn

section
variable {numberValue : Str → JsNumber} {stackLimit bytes depth : Nat} {raw : Str}
  {maxUtf8Bytes maxDepth : JsNumber}

theorem parseStrictIJson_eq (hbytes : limitOf maxUtf8Bytes = some bytes) (hsize : byteLength raw ≤ bytes)
    (hdepth : limitOf maxDepth = some depth) :
    parseStrictIJson numberValue stackLimit raw maxUtf8Bytes maxDepth = (do
      let (value, rest) ← catchRangeError
        (parseValue numberValue depth stackLimit (2 * raw.length + 1) 1 raw)
      if skipWhitespace rest ≠ [] then invalid "$: trailing JSON data"
      else do
        assertIJson (lit "$") value
        return value) := by
  simp only [parseStrictIJson, hbytes, hdepth]
  rw [if_neg (by omega)]

theorem catchRangeError_decides {α : Type} {r : Except IJsonError α} {cond : Prop} {a : α}
    (h : Decides r cond a) : Decides (catchRangeError r) cond a := by
  constructor
  · intro hc
    rw [h.1 hc]
    rfl
  · intro hc
    obtain ⟨e, rfl⟩ := h.2 hc
    cases e with
    | validation m => exact ⟨_, rfl⟩
    | resourceLimit m => exact ⟨_, rfl⟩
    | rangeError => exact ⟨_, rfl⟩
    | outOfFuel => exact ⟨_, rfl⟩

theorem catchRangeError_eq_ok {α : Type} {r : Except IJsonError α} {a : α}
    (h : catchRangeError r = .ok a) : r = .ok a := by
  unfold catchRangeError at h
  split at h
  · cases h
  · exact h

theorem parseStrictIJson_decides (hbytes : limitOf maxUtf8Bytes = some bytes)
    (hsize : byteLength raw ≤ bytes) (hdepth : limitOf maxDepth = some depth) (hstack : depth ≤ stackLimit)
    {tree : JsonTree} (h : JsonText raw tree) :
    Decides (parseStrictIJson numberValue stackLimit raw maxUtf8Bytes maxDepth)
      (Within depth tree ∧ Strict numberValue tree) (jsonValue numberValue tree) := by
  obtain ⟨before, text, after, rfl, hbefore, hafter, htext⟩ := h
  have hpos := valueText_length htext
  have hend : Ends Follow after := by
    have := follow_ws_append hafter (ends_nil Follow)
    rwa [List.append_nil] at this
  have hreads : Reads numberValue depth stackLimit text tree := reads_of_valueText hstack htext
  have hread := hreads.at_any_depth hpos (2 * (before ++ (text ++ after)).length + 1) 1
    (by simp only [List.length_append]; omega) hbefore hend
  rw [parseStrictIJson_eq hbytes hsize hdepth]
  refine ((catchRangeError_decides hread).bind (fun hadm => ?_)).of_iff (iff_of_eq (and_true _))
  simp only [skipWhitespace_ws hafter, ne_eq, not_true_eq_false, if_false,
    assertIJson_strict hadm.2]
  exact Decides.pure _

theorem parseStrictIJson_sound (hbytes : limitOf maxUtf8Bytes = some bytes)
    (hsize : byteLength raw ≤ bytes) (hdepth : limitOf maxDepth = some depth) {v : JsValue}
    (h : parseStrictIJson numberValue stackLimit raw maxUtf8Bytes maxDepth = .ok v) :
    ∃ tree, JsonText raw tree ∧ Within depth tree ∧ Strict numberValue tree := by
  rw [parseStrictIJson_eq hbytes hsize hdepth] at h
  obtain ⟨⟨value, rest⟩, hparse, h⟩ := bind_eq_ok.mp h
  obtain ⟨hsound, -, -⟩ := sound_all numberValue depth stackLimit (2 * raw.length + 1)
  obtain ⟨before, text, tree, hraw, hbefore, htext, -, hwithin, hstrict⟩ :=
    hsound _ _ _ _ (catchRangeError_eq_ok hparse)
  refine ⟨tree, ⟨before, text, rest, hraw, hbefore, ?_, htext⟩, hwithin, hstrict⟩
  obtain ⟨w, hw, hrest⟩ := skipWhitespace_split rest
  simp only at h
  split at h
  · cases h
  · rename_i hnil
    rw [not_not.mp hnil, List.append_nil] at hrest
    exact hrest ▸ hw

end

/-- The reader's language and its values: a text within the size limit is accepted exactly when
it is a JSON text nested at most `depth` values deep that keeps the restrictions, and the value
is `JSON.parse`'s. -/
theorem parseStrictIJson_language (numberValue : Str → JsNumber) {stackLimit bytes depth : Nat} (raw : Str)
    {maxUtf8Bytes maxDepth : JsNumber} (hbytes : limitOf maxUtf8Bytes = some bytes)
    (hsize : byteLength raw ≤ bytes) (hdepth : limitOf maxDepth = some depth) (hstack : depth ≤ stackLimit) :
    ((∃ v, parseStrictIJson numberValue stackLimit raw maxUtf8Bytes maxDepth = .ok v) ↔
      ∃ tree, JsonText raw tree ∧ Within depth tree ∧ Strict numberValue tree) ∧
    ∀ tree, JsonText raw tree → ∀ v,
      parseStrictIJson numberValue stackLimit raw maxUtf8Bytes maxDepth = .ok v →
        v = jsonValue numberValue tree := by
  refine ⟨⟨?_, ?_⟩, ?_⟩
  · rintro ⟨v, hv⟩
    exact parseStrictIJson_sound hbytes hsize hdepth hv
  · rintro ⟨tree, htext, hadm⟩
    exact ⟨_, (parseStrictIJson_decides hbytes hsize hdepth hstack htext).1 hadm⟩
  · intro tree htext v hv
    exact ((parseStrictIJson_decides hbytes hsize hdepth hstack htext).cond_of_ok hv).2

/-- With the default limits and an escaped name beside a nested object. -/
theorem parseStrictIJson_language_nested :
    ∃ tree, JsonText (lit " \x7b\"\\u0061\": [1, \"\\n\"] ,\"b\":\x7b\x7d\x7d\n") tree ∧ Within 128 tree ∧
      Strict (fun token => if token = lit "1" then .finite .one else .nan) tree := by
  have hbytes : limitOf (.finite ⟨false, 2 ^ 52, -32, by decide⟩) = some 1048576 := by decide +kernel
  have hdepth : limitOf (.finite ⟨false, 2 ^ 52, -45, by decide⟩) = some 128 := by decide +kernel
  have hok : (parseStrictIJson (fun token => if token = lit "1" then .finite .one else .nan) 10000
      (lit " \x7b\"\\u0061\": [1, \"\\n\"] ,\"b\":\x7b\x7d\x7d\n") (.finite ⟨false, 2 ^ 52, -32, by decide⟩)
      (.finite ⟨false, 2 ^ 52, -45, by decide⟩)).isOk = true := by decide +kernel
  exact (parseStrictIJson_language _ _ hbytes (by decide) hdepth (show 128 ≤ 10000 by decide)).1.mp
    (exists_of_isOk hok)

end AgentPassport.StrictParserCorrect
