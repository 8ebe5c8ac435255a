import AgentPassport.StrictParserCorrect
import AgentPassport.StepLoop

/-! The scan of a wire text for repeated member names (`rejectDuplicateMembers` of
`v2/authority-delegation/parse.ts`), and the grammar. The cursor is the text that remains. -/
namespace AgentPassport.DuplicateScan
open JsText JsonString SeparatedText JsonGrammar StrictParser StrictTokens StrictParserCorrect StepLoop

/-- The `SyntaxError`s, the last one `JSON.parse`'s own. -/
inductive ScanError where
  | unterminatedString | duplicateMember | syntaxError
  deriving DecidableEq

/-- An open container; of an object the names read so far. -/
inductive Frame where
  | object (names : List Str)
  | array
  deriving DecidableEq

structure Scan where
  rest : Str
  stack : List Frame
  awaitingValue : Bool

def closeString : Str → Option (Str × Str)
  | [] => none
  | [c] => if c = 0x22 then some ([c], []) else none
  | c :: d :: rest =>
    if c = 0x5C then (closeString rest).map (fun p => (c :: d :: p.1, p.2))
    else if c = 0x22 then some ([c], d :: rest)
    else (closeString (d :: rest)).map (fun p => (c :: p.1, p.2))

def readString : Str → Except ScanError (Str × Str)
  | [] => throw .unterminatedString
  | quote :: rest =>
    match closeString rest with
    | none => throw .unterminatedString
    | some (body, rest) =>
      match jsonParseString (quote :: body) with
      | none => throw .syntaxError
      | some s => return (s, rest)

def isDelimiter (c : UInt16) : Bool := isWs c || c = 0x2C || c = 0x7D || c = 0x5D

/-- The frame that was pushed, if one was. -/
def openValue : Str → Except ScanError (Option Frame × Str)
  | [] => return (none, [])
  | c :: rest =>
    if c = 0x7B then
      let rest := skipWhitespace rest
      if rest.head? = some 0x7D then return (none, rest.tail) else return (some (.object []), rest)
    else if c = 0x5B then
      let rest := skipWhitespace rest
      if rest.head? = some 0x5D then return (none, rest.tail) else return (some .array, rest)
    else if c = 0x22 then do
      let (_, rest) ← readString (c :: rest)
      return (none, rest)
    else return (none, (c :: rest).dropWhile (fun c => !isDelimiter c))

/-- The name before a member's value, which is added to the frame. -/
def readName (rest : Str) : List Frame → Except ScanError (Str × List Frame)
  | .object names :: below => do
    let (name, rest) ← readString (skipWhitespace rest)
    if name ∈ names then throw .duplicateMember
    return (skipWhitespace (skipWhitespace rest).tail, .object (name :: names) :: below)
  | stack => return (rest, stack)

/-- Opening a value, and what is awaited then. -/
def opened (rest : Str) (stack : List Frame) : Except ScanError Scan := do
  match ← openValue rest with
  | (some frame, rest) => return ⟨rest, frame :: stack, true⟩
  | (none, rest) => return ⟨rest, stack, false⟩

def Frame.close : Frame → UInt16
  | .object _ => 0x7D
  | .array => 0x5D

/-- One turn of the loop: another state, or the return, with the text that remains. -/
def turn (s : Scan) : Except ScanError (Scan ⊕ Str) :=
  if s.awaitingValue then do
    let (rest, stack) ← readName s.rest s.stack
    return .inl (← opened rest stack)
  else
    match s.stack with
    | [] => return .inr s.rest
    | top :: below =>
      let rest := skipWhitespace s.rest
      if rest.head? = some top.close then return .inl ⟨rest.tail, below, false⟩
      else return .inl ⟨skipWhitespace rest.tail, top :: below, true⟩

def rejectDuplicateMembers (fuel : Nat) (source : Str) : Option (Except ScanError Str) :=
  loop turn fuel ⟨skipWhitespace source, [], true⟩

/-- Some object at some depth has two members of one decoded name. -/
inductive Repeats : JsonTree → Prop
  | here {members : List (Str × JsonTree)} (h : ¬ (members.map Prod.fst).Nodup) : Repeats (.object members)
  | item {items : List JsonTree} {t : JsonTree} (mem : t ∈ items) (h : Repeats t) : Repeats (.array items)
  | member {members : List (Str × JsonTree)} {m : Str × JsonTree} (mem : m ∈ members) (h : Repeats m.2) :
      Repeats (.object members)

theorem repeats_array {items : List JsonTree} : Repeats (.array items) ↔ ∃ t ∈ items, Repeats t := by
  constructor
  · intro h
    cases h with | item hmem h => exact ⟨_, hmem, h⟩
  · intro h
    obtain ⟨t, hmem, h⟩ := h
    exact .item hmem h

theorem repeats_object {members : List (Str × JsonTree)} :
    Repeats (.object members) ↔ ¬ (members.map Prod.fst).Nodup ∨ ∃ m ∈ members, Repeats m.2 := by
  constructor
  · intro h
    cases h with
    | here h => exact .inl h
    | member hmem h => exact .inr ⟨_, hmem, h⟩
  · intro h
    obtain h | ⟨m, hmem, h⟩ := h
    · exact .here h
    · exact .member hmem h

variable {c : UInt16}

theorem closeString_plain (hquote : c ≠ 0x22) (hbackslash : c ≠ 0x5C) {body rest tail : Str}
    (h : closeString tail = some (body, rest)) : closeString (c :: tail) = some (c :: body, rest) := by
  cases tail with
  | nil => cases h
  | cons d tail => rw [closeString, if_neg hbackslash, if_neg hquote, h, Option.map_some]

theorem closeString_escape (d : UInt16) {body rest tail : Str} (h : closeString tail = some (body, rest)) :
    closeString (0x5C :: d :: tail) = some (0x5C :: d :: body, rest) := by
  rw [closeString, if_pos rfl, h, Option.map_some]

theorem closeString_quote (rest : Str) : closeString (0x22 :: rest) = some ([0x22], rest) := by
  cases rest with
  | nil => rfl
  | cons d rest => rw [closeString, if_neg (by decide), if_pos rfl]

theorem closeString_chars {body s : Str} (h : CharsText body s) (rest : Str) :
    closeString (body ++ 0x22 :: rest) = some (body ++ [0x22], rest) := by
  induction h with
  | nil => exact closeString_quote rest
  | @cons x xs cs c hx _ ih =>
    rw [List.append_assoc, List.append_assoc]
    cases hx with
    | plain _ _ hquote hbackslash => exact closeString_plain hquote hbackslash ih
    | escape e _ _ => exact closeString_escape e ih
    | unicode a b d e _ he =>
      have hplain := hex4_plain he
      refine closeString_escape 0x75 ?_
      refine closeString_plain (hplain a (by simp)).2.1 (hplain a (by simp)).2.2 ?_
      refine closeString_plain (hplain b (by simp)).2.1 (hplain b (by simp)).2.2 ?_
      refine closeString_plain (hplain d (by simp)).2.1 (hplain d (by simp)).2.2 ?_
      exact closeString_plain (hplain e (by simp)).2.1 (hplain e (by simp)).2.2 ih

theorem readString_token {token s : Str} (h : StringText token s) (rest : Str) :
    readString (token ++ rest) = .ok (s, rest) := by
  have hparse := (jsonParseString_iff token s).mpr h
  obtain ⟨body, rfl, hbody⟩ := h
  have hclose := closeString_chars hbody rest
  rw [List.cons_append, List.append_assoc, List.singleton_append, readString, hclose]
  simp only [hparse]
  rfl

theorem isDelimiter_iff (c : UInt16) : isDelimiter c = true ↔ Follow c := by
  simp only [isDelimiter, Follow, Bool.or_eq_true, decide_eq_true_eq]
  tauto

theorem not_delimiter_of_all {s : Str} (h : s.all (fun c => isDelimiter c == false) = true) :
    ∀ c ∈ s, isDelimiter c = false :=
  fun c hc => beq_iff_eq.mp (List.all_eq_true.mp h c hc)

theorem digits_not_delimiter {s : Str} (h : Digits s) : ∀ c ∈ s, isDelimiter c = false := by
  intro c hc
  rw [← Bool.not_eq_true, isDelimiter_iff]
  intro hfollow
  exact Bool.false_ne_true ((follow_not_number hfollow).1.symm.trans (h c hc))

theorem number_not_delimiter {s : Str} (h : NumberText s) : ∀ c ∈ s, isDelimiter c = false := by
  obtain ⟨minus, int, frac, exp, rfl, hminus, hint, hfrac, hexp⟩ := h
  have hint : ∀ c ∈ int, isDelimiter c = false := by
    obtain rfl | ⟨c, ds, rfl, hc, -, hds⟩ := hint
    · exact List.forall_mem_singleton.mpr (by decide)
    · refine digits_not_delimiter ?_
      exact List.forall_mem_cons.mpr ⟨hc, hds⟩
  have hfrac : ∀ c ∈ frac, isDelimiter c = false := by
    obtain rfl | ⟨ds, rfl, -, hds⟩ := hfrac
    · exact List.forall_mem_nil _
    · exact List.forall_mem_cons.mpr ⟨by decide, digits_not_delimiter hds⟩
  have hexp : ∀ c ∈ exp, isDelimiter c = false := by
    obtain rfl | ⟨e, sign, ds, rfl, he, hsign, -, hds⟩ := hexp
    · exact List.forall_mem_nil _
    · refine List.forall_mem_cons.mpr ⟨?_, List.forall_mem_append.mpr ⟨?_, digits_not_delimiter hds⟩⟩
      · obtain rfl | rfl := he
        · decide
        · decide
      · obtain rfl | rfl | rfl := hsign
        · exact List.forall_mem_nil _
        · exact List.forall_mem_singleton.mpr (by decide)
        · exact List.forall_mem_singleton.mpr (by decide)
  have hminus : ∀ c ∈ minus, isDelimiter c = false := by
    obtain rfl | rfl := hminus
    · exact List.forall_mem_nil _
    · exact List.forall_mem_singleton.mpr (by decide)
  rw [List.forall_mem_append, List.forall_mem_append, List.forall_mem_append]
  exact ⟨hminus, hint, hfrac, hexp⟩

theorem token_dropped {token rest : Str} (htoken : ∀ c ∈ token, isDelimiter c = false) (hrest : Ends Follow rest) :
    (token ++ rest).dropWhile (fun c => !isDelimiter c) = rest := by
  induction token with
  | nil =>
    cases rest with
    | nil => rfl
    | cons c rest =>
      have hc : isDelimiter c = true := (isDelimiter_iff c).mpr (hrest c rest rfl)
      rw [List.nil_append, List.dropWhile_cons_of_neg (by rw [hc]; decide)]
  | cons c token ih =>
    obtain ⟨hc, htoken⟩ := List.forall_mem_cons.mp htoken
    rw [List.cons_append, List.dropWhile_cons_of_pos (by rw [hc]; rfl)]
    exact ih htoken

/-- The loop scans the value, or throws at a repeated name in it. -/
def Scans (text : Str) (tree : JsonTree) : Prop :=
  ∀ rest stack, Ends Follow rest →
    Settles turn (opened (text ++ rest) stack) (Repeats tree) .duplicateMember ⟨rest, stack, false⟩

theorem opened_token {token rest : Str} (hbrace : c ≠ 0x7B) (hbracket : c ≠ 0x5B) (hquote : c ≠ 0x22)
    (htoken : ∀ d ∈ c :: token, isDelimiter d = false) (hrest : Ends Follow rest) (stack : List Frame) :
    opened ((c :: token) ++ rest) stack = .ok ⟨rest, stack, false⟩ := by
  rw [opened, List.cons_append, openValue, if_neg hbrace, if_neg hbracket, if_neg hquote, ← List.cons_append,
    token_dropped htoken hrest]
  rfl

theorem opened_string {token s : Str} (h : StringText token s) (rest : Str) (stack : List Frame) :
    opened (token ++ rest) stack = .ok ⟨rest, stack, false⟩ := by
  have hread := readString_token h rest
  obtain ⟨body, rfl, -⟩ := h
  rw [List.cons_append] at hread ⊢
  rw [opened, openValue, if_neg (by decide), if_neg (by decide), if_pos rfl, hread]
  rfl

theorem opened_brace (text : Str) (stack : List Frame) :
    opened (0x7B :: text) stack =
      if (skipWhitespace text).head? = some 0x7D then .ok ⟨(skipWhitespace text).tail, stack, false⟩
      else .ok ⟨skipWhitespace text, .object [] :: stack, true⟩ := by
  rw [opened, openValue, if_pos rfl]
  by_cases h : (skipWhitespace text).head? = some 0x7D
  · simp only [if_pos h]
    rfl
  · simp only [if_neg h]
    rfl

theorem opened_bracket (text : Str) (stack : List Frame) :
    opened (0x5B :: text) stack =
      if (skipWhitespace text).head? = some 0x5D then .ok ⟨(skipWhitespace text).tail, stack, false⟩
      else .ok ⟨skipWhitespace text, .array :: stack, true⟩ := by
  rw [opened, openValue, if_neg (by decide), if_pos rfl]
  by_cases h : (skipWhitespace text).head? = some 0x5D
  · simp only [if_pos h]
    rfl
  · simp only [if_neg h]
    rfl

theorem head_of_ne {text : Str} (h : ∀ r, text ≠ c :: r) : text.head? ≠ some c := by
  intro hhead
  cases text with
  | nil => cases hhead
  | cons d r => exact h r (by rw [Option.some.inj hhead])

theorem turn_closes {after : Str} (hafter : Ws after) (top : Frame) (hsolid : Solid top.close) (tail : Str)
    (below : List Frame) :
    turn ⟨after ++ top.close :: tail, top :: below, false⟩ = .ok (.inl ⟨tail, below, false⟩) := by
  rw [turn, if_neg Bool.false_ne_true]
  simp only [skipWhitespace_append hafter (ends_cons hsolid tail), List.head?_cons, List.tail_cons, if_true]
  rfl

theorem turn_separates {after : Str} (hafter : Ws after) (top : Frame) (htop : 0x2C ≠ top.close) (tail : Str)
    (below : List Frame) :
    turn ⟨after ++ 0x2C :: tail, top :: below, false⟩ = .ok (.inl ⟨skipWhitespace tail, top :: below, true⟩) := by
  have hclose : some 0x2C ≠ some top.close := fun h => htop (Option.some.inj h)
  rw [turn, if_neg Bool.false_ne_true]
  simp only [skipWhitespace_append hafter (ends_cons solid_comma tail), List.head?_cons, List.tail_cons, if_neg hclose]
  rfl

variable {tree : JsonTree}

theorem skip_value {before text : Str} (hbefore : Ws before) (h : ValueText text tree) (rest : Str) :
    skipWhitespace (before ++ (text ++ rest)) = text ++ rest := by
  obtain ⟨c, r, rfl, hsolid, -⟩ := valueText_head h
  exact skipWhitespace_append hbefore (ends_cons hsolid _)

theorem item_scanned {p : Item} (hspace : Ws p.before ∧ Ws p.after) (hvalue : ValueText p.text p.tree)
    (h : Scans p.text p.tree) (hfollow : Follow c) (tail : Str) (stack : List Frame) :
    Settles turn (.ok ⟨skipWhitespace (p.written ++ c :: tail), .array :: stack, true⟩) (Repeats p.tree)
      .duplicateMember ⟨p.after ++ c :: tail, .array :: stack, false⟩ := by
  have htext : p.written ++ c :: tail = p.before ++ (p.text ++ (p.after ++ c :: tail)) := by
    simp [Item.written]
  rw [htext, skip_value hspace.1 hvalue]
  exact .turned rfl (h _ _ (follow_ws_append hspace.2 (ends_cons hfollow tail)))

theorem items_scanned {items : List Item} (hne : items ≠ []) (hspace : ∀ p ∈ items, Ws p.before ∧ Ws p.after)
    (hvalues : ∀ p ∈ items, ValueText p.text p.tree) (h : ∀ p ∈ items, Scans p.text p.tree) (rest : Str)
    (stack : List Frame) :
    Settles turn (.ok ⟨skipWhitespace (join 0x2C (items.map Item.written) ++ 0x5D :: rest), .array :: stack, true⟩)
      (∃ p ∈ items, Repeats p.tree) .duplicateMember ⟨rest, stack, false⟩ := by
  induction items with
  | nil => exact absurd rfl hne
  | cons p items ih =>
    obtain ⟨hsp, hspace⟩ := List.forall_mem_cons.mp hspace
    obtain ⟨hvp, hvalues⟩ := List.forall_mem_cons.mp hvalues
    obtain ⟨hp, h⟩ := List.forall_mem_cons.mp h
    cases items with
    | nil =>
      have hlast := item_scanned hsp hvp hp (.inr (.inr (.inl rfl)) : Follow 0x5D) rest stack
      have hend : Settles turn (.ok ⟨p.after ++ 0x5D :: rest, .array :: stack, false⟩) False
          .duplicateMember ⟨rest, stack, false⟩ :=
        .moved (turn_closes hsp.2 .array solid_bracket.2 rest stack) (.here not_false)
      exact (hlast.trans hend).of_iff (by simp)
    | cons q items =>
      have hjoin : join 0x2C ((p :: q :: items).map Item.written) ++ 0x5D :: rest =
          p.written ++ 0x2C :: (join 0x2C ((q :: items).map Item.written) ++ 0x5D :: rest) := by
        simp [join]
      have hitem := item_scanned hsp hvp hp (.inr (.inl rfl) : Follow 0x2C)
        (join 0x2C ((q :: items).map Item.written) ++ 0x5D :: rest) stack
      have hrest := ih (List.cons_ne_nil q items) hspace hvalues h
      have hnext := Settles.moved (turn_separates hsp.2 .array (by decide)
        (join 0x2C ((q :: items).map Item.written) ++ 0x5D :: rest) stack) hrest
      rw [hjoin]
      exact (hitem.trans hnext).of_iff (by simp)

/-- A name that was read before, a repeated one or a repetition inside a value. -/
def Clash (names : List Str) (members : List Member) : Prop :=
  (∃ m ∈ members, m.name ∈ names) ∨ ¬ (members.map Member.name).Nodup ∨ ∃ m ∈ members, Repeats m.value.tree

theorem clash_cons {names : List Str} {m : Member} {members : List Member} :
    Clash names (m :: members) ↔ (m.name ∈ names ∨ Repeats m.value.tree) ∨ Clash (m.name :: names) members := by
  simp only [Clash, List.exists_mem_cons_iff, List.map_cons, List.nodup_cons, List.mem_map]
  simp only [List.mem_cons]
  constructor
  · intro h
    by_cases hsame : ∃ n ∈ members, n.name = m.name
    · obtain ⟨n, hn, hname⟩ := hsame
      exact .inr (.inl ⟨n, hn, .inl hname⟩)
    · obtain (h | ⟨n, hn, hname⟩) | h | h | h := h
      · exact .inl (.inl h)
      · exact .inr (.inl ⟨n, hn, .inr hname⟩)
      · exact .inr (.inr (.inl (fun hnodup => h ⟨hsame, hnodup⟩)))
      · exact .inl (.inr h)
      · exact .inr (.inr (.inr h))
  · intro h
    obtain (h | h) | ⟨n, hn, hname | hname⟩ | h | h := h
    · exact .inl (.inl h)
    · exact .inr (.inr (.inl h))
    · exact .inr (.inl (fun hnodup => hnodup.1 ⟨n, hn, hname⟩))
    · exact .inl (.inr ⟨n, hn, hname⟩)
    · exact .inr (.inl (fun hnodup => h hnodup.2))
    · exact .inr (.inr (.inr h))

theorem not_clash_nil (names : List Str) : ¬ Clash names [] := by
  simp [Clash]

theorem readName_member {m : Member} (hbefore : Ws m.before) (hgap : Ws m.gap) (hname : StringText m.token m.name)
    {value : Str} (hspace : Ws m.value.before) (hvalue : ValueText value tree) (rest : Str) (names : List Str)
    (stack : List Frame) :
    readName (skipWhitespace (m.before ++ (m.token ++ (m.gap ++ 0x3A :: (m.value.before ++ (value ++ rest))))))
        (.object names :: stack) =
      if m.name ∈ names then .error .duplicateMember
      else .ok (value ++ rest, .object (m.name :: names) :: stack) := by
  have htoken : skipWhitespace (m.before ++ (m.token ++ (m.gap ++ 0x3A :: (m.value.before ++ (value ++ rest))))) =
      m.token ++ (m.gap ++ 0x3A :: (m.value.before ++ (value ++ rest))) := by
    obtain ⟨body, heq, -⟩ := hname
    rw [heq]
    exact skipWhitespace_append hbefore (ends_cons solid_quote _)
  rw [readName, skipWhitespace_idem, htoken, readString_token hname]
  simp only [bind, Except.bind, skipWhitespace_append hgap (ends_cons solid_colon _), List.tail_cons,
    skip_value hspace hvalue]
  by_cases hseen : m.name ∈ names
  · rw [if_pos hseen, if_pos hseen]
    rfl
  · rw [if_neg hseen, if_neg hseen]
    rfl

theorem member_scanned {m : Member} (hspace : Ws m.before ∧ Ws m.gap ∧ Ws m.value.before ∧ Ws m.value.after)
    (hname : StringText m.token m.name) (hvalue : ValueText m.value.text m.value.tree)
    (h : Scans m.value.text m.value.tree) (hfollow : Follow c) (tail : Str) (names : List Str) (stack : List Frame) :
    Settles turn (.ok ⟨skipWhitespace (m.written ++ c :: tail), .object names :: stack, true⟩)
      (m.name ∈ names ∨ Repeats m.value.tree) .duplicateMember
      ⟨m.value.after ++ c :: tail, .object (m.name :: names) :: stack, false⟩ := by
  obtain ⟨hbefore, hgap, hopen, hafter⟩ := hspace
  have htext : m.written ++ c :: tail =
      m.before ++ (m.token ++ (m.gap ++ 0x3A :: (m.value.before ++ (m.value.text ++ (m.value.after ++ c :: tail))))) := by
    simp [Member.written, Item.written]
  have hread := readName_member hbefore hgap hname hopen hvalue (m.value.after ++ c :: tail) names stack
  rw [htext]
  by_cases hseen : m.name ∈ names
  · rw [if_pos hseen] at hread
    refine .turned (r := .error .duplicateMember) ?_ (.thrown (.inl hseen))
    rw [turn, if_pos rfl, hread]
    rfl
  · rw [if_neg hseen] at hread
    have hscan := h (m.value.after ++ c :: tail) (.object (m.name :: names) :: stack)
      (follow_ws_append hafter (ends_cons hfollow tail))
    refine (Settles.turned ?_ hscan).of_iff (or_iff_right hseen).symm
    rw [turn, if_pos rfl, hread]
    rfl

theorem members_scanned {members : List Member} (hne : members ≠ [])
    (hspace : ∀ m ∈ members, Ws m.before ∧ Ws m.gap ∧ Ws m.value.before ∧ Ws m.value.after)
    (hnames : ∀ m ∈ members, StringText m.token m.name) (hvalues : ∀ m ∈ members, ValueText m.value.text m.value.tree)
    (h : ∀ m ∈ members, Scans m.value.text m.value.tree) (rest : Str) (stack : List Frame) :
    ∀ names, Settles turn
      (.ok ⟨skipWhitespace (join 0x2C (members.map Member.written) ++ 0x7D :: rest), .object names :: stack, true⟩)
      (Clash names members) .duplicateMember ⟨rest, stack, false⟩ := by
  induction members with
  | nil => exact absurd rfl hne
  | cons m members ih =>
    intro names
    obtain ⟨hsm, hspace⟩ := List.forall_mem_cons.mp hspace
    obtain ⟨hnm, hnames⟩ := List.forall_mem_cons.mp hnames
    obtain ⟨hvm, hvalues⟩ := List.forall_mem_cons.mp hvalues
    obtain ⟨hm, h⟩ := List.forall_mem_cons.mp h
    cases members with
    | nil =>
      have hlast := member_scanned hsm hnm hvm hm (.inr (.inr (.inr rfl)) : Follow 0x7D) rest names stack
      have hend : Settles turn (.ok ⟨m.value.after ++ 0x7D :: rest, .object (m.name :: names) :: stack, false⟩)
          (Clash (m.name :: names) []) .duplicateMember ⟨rest, stack, false⟩ :=
        .moved (turn_closes hsm.2.2.2 (.object (m.name :: names)) solid_brace.2 rest stack) (.here (not_clash_nil _))
      exact (hlast.trans hend).of_iff clash_cons.symm
    | cons q members =>
      have hjoin : join 0x2C ((m :: q :: members).map Member.written) ++ 0x7D :: rest =
          m.written ++ 0x2C :: (join 0x2C ((q :: members).map Member.written) ++ 0x7D :: rest) := by
        simp [join]
      have hmember := member_scanned hsm hnm hvm hm (.inr (.inl rfl) : Follow 0x2C)
        (join 0x2C ((q :: members).map Member.written) ++ 0x7D :: rest) names stack
      have hrest := ih (List.cons_ne_nil q members) hspace hnames hvalues h (m.name :: names)
      have hnext := Settles.moved (turn_separates hsm.2.2.2 (.object (m.name :: names))
        (by decide : (0x2C : UInt16) ≠ 0x7D)
        (join 0x2C ((q :: members).map Member.written) ++ 0x7D :: rest) stack) hrest
      rw [hjoin]
      exact (hmember.trans hnext).of_iff clash_cons.symm

theorem not_repeats_scalar {text : Str} {stack : List Frame} {rest : Str} (h : ¬ Repeats tree)
    (hopened : opened (text ++ rest) stack = .ok ⟨rest, stack, false⟩) :
    Settles turn (opened (text ++ rest) stack) (Repeats tree) .duplicateMember ⟨rest, stack, false⟩ := by
  rw [hopened]
  exact .here h

theorem scans_of_valueText {text : Str} (h : ValueText text tree) : Scans text tree := by
  induction h with
  | null =>
    intro rest stack hrest
    have htoken : ∀ c ∈ lit "null", isDelimiter c = false := not_delimiter_of_all (by decide)
    exact not_repeats_scalar (fun h => nomatch h)
      (opened_token (by decide) (by decide) (by decide) htoken hrest stack)
  | true =>
    intro rest stack hrest
    have htoken : ∀ c ∈ lit "true", isDelimiter c = false := not_delimiter_of_all (by decide)
    exact not_repeats_scalar (fun h => nomatch h)
      (opened_token (by decide) (by decide) (by decide) htoken hrest stack)
  | false =>
    intro rest stack hrest
    have htoken : ∀ c ∈ lit "false", isDelimiter c = false := not_delimiter_of_all (by decide)
    exact not_repeats_scalar (fun h => nomatch h)
      (opened_token (by decide) (by decide) (by decide) htoken hrest stack)
  | number hnumber =>
    intro rest stack hrest
    have htoken := number_not_delimiter hnumber
    obtain ⟨c, r, rfl, hc⟩ := numberText_head hnumber
    have hne : ∀ d : UInt16, isDigit d = false ∧ d ≠ 0x2D → c ≠ d := by
      intro d hd heq
      rw [heq] at hc
      exact hc.elim (fun h => Bool.false_ne_true (hd.1.symm.trans h)) hd.2
    exact not_repeats_scalar (fun h => nomatch h)
      (opened_token (hne _ (by decide)) (hne _ (by decide)) (hne _ (by decide)) htoken hrest stack)
  | string htoken =>
    intro rest stack _
    exact not_repeats_scalar (fun h => nomatch h) (opened_string htoken rest stack)
  | @emptyArray gap hgap =>
    intro rest stack _
    have hskip : skipWhitespace ((gap ++ [0x5D]) ++ rest) = 0x5D :: rest := by
      rw [List.append_assoc]
      exact skipWhitespace_append hgap (ends_cons solid_bracket.2 rest)
    refine not_repeats_scalar ?_ ?_
    · rw [repeats_array]
      simp
    · rw [List.cons_append, opened_bracket, hskip]
      rfl
  | @array items hne hspace hvalues ih =>
    intro rest stack _
    have hopen := head_of_ne (items_not_closed hne hspace hvalues (0x5D :: rest))
    have htext : (join 0x2C (items.map Item.written) ++ [0x5D]) ++ rest =
        join 0x2C (items.map Item.written) ++ 0x5D :: rest := by simp
    rw [List.cons_append, htext, opened_bracket, if_neg hopen]
    refine (items_scanned hne hspace hvalues ih rest stack).of_iff ?_
    rw [repeats_array]
    simp
  | @emptyObject gap hgap =>
    intro rest stack _
    have hskip : skipWhitespace ((gap ++ [0x7D]) ++ rest) = 0x7D :: rest := by
      rw [List.append_assoc]
      exact skipWhitespace_append hgap (ends_cons solid_brace.2 rest)
    refine not_repeats_scalar ?_ ?_
    · rw [repeats_object]
      simp
    · rw [List.cons_append, opened_brace, hskip]
      rfl
  | @object members hne hspace hnames hvalues ih =>
    intro rest stack _
    have hopen := head_of_ne (members_not_closed hne hspace hnames (0x7D :: rest))
    have htext : (join 0x2C (members.map Member.written) ++ [0x7D]) ++ rest =
        join 0x2C (members.map Member.written) ++ 0x7D :: rest := by simp
    rw [List.cons_append, htext, opened_brace, if_neg hopen]
    refine (members_scanned hne hspace hnames hvalues ih rest stack []).of_iff ?_
    rw [repeats_object, Clash, List.map_map]
    simp [Function.comp_def]

/-- On the texts `JSON.parse` accepts, a value between white space, the scan ends: it throws exactly
where an object repeats a name, and otherwise stops behind the value. -/
theorem scan_decides {before text after : Str} {tree : JsonTree} (hbefore : Ws before) (hafter : Ws after)
    (htext : ValueText text tree) :
    ∃ turns, ∀ fuel, turns ≤ fuel →
      (Repeats tree → rejectDuplicateMembers fuel (before ++ (text ++ after)) = some (.error .duplicateMember)) ∧
      (¬ Repeats tree → rejectDuplicateMembers fuel (before ++ (text ++ after)) = some (.ok after)) := by
  have hend : Ends Follow after := by
    have hfollow := follow_ws_append hafter (ends_nil Follow)
    rwa [List.append_nil] at hfollow
  have hscan := scans_of_valueText htext after [] hend
  have hstart : Settles turn (.ok ⟨skipWhitespace (before ++ (text ++ after)), [], true⟩) (Repeats tree)
      .duplicateMember ⟨after, [], false⟩ := by
    rw [skip_value hbefore htext]
    exact .turned rfl hscan
  exact hstart.ends rfl

/-- A name and the same name escaped. -/
theorem scan_decides_escaped :
    ∃ turns, ∀ fuel, turns ≤ fuel →
      rejectDuplicateMembers fuel (lit " [\x7b\"a\":null,\"\\u0061\":[]\x7d]") = some (.error .duplicateMember) := by
  have hplain : StringText (lit "\"a\"") (lit "a") :=
    ⟨lit "a", by decide, .cons (.plain 0x61 (by decide) (by decide) (by decide)) .nil⟩
  have hescaped : StringText (lit "\"\\u0061\"") (lit "a") :=
    ⟨lit "\\u0061", by decide, .cons (.unicode 0x30 0x30 0x36 0x31 0x61 (by decide)) .nil⟩
  have hspace : Ws [] := List.forall_mem_nil _
  have hmembers : ValueText (lit "\x7b\"a\":null,\"\\u0061\":[]\x7d")
      (.object [(lit "a", .null), (lit "a", .array [])]) := by
    have hobject := @ValueText.object
      [⟨[], lit "\"a\"", lit "a", [], ⟨[], lit "null", [], .null⟩⟩,
        ⟨[], lit "\"\\u0061\"", lit "a", [], ⟨[], lit "[]", [], .array []⟩⟩]
      (List.cons_ne_nil _ _)
      (List.forall_mem_cons.mpr ⟨⟨hspace, hspace, hspace, hspace⟩,
        List.forall_mem_singleton.mpr ⟨hspace, hspace, hspace, hspace⟩⟩)
      (List.forall_mem_cons.mpr ⟨hplain, List.forall_mem_singleton.mpr hescaped⟩)
      (List.forall_mem_cons.mpr ⟨.null, List.forall_mem_singleton.mpr (@ValueText.emptyArray [] hspace)⟩)
    exact hobject
  have harray : ValueText (lit "[\x7b\"a\":null,\"\\u0061\":[]\x7d]")
      (.array [.object [(lit "a", .null), (lit "a", .array [])]]) :=
    @ValueText.array [⟨[], _, [], _⟩] (List.cons_ne_nil _ _)
      (List.forall_mem_singleton.mpr ⟨hspace, hspace⟩) (List.forall_mem_singleton.mpr hmembers)
  have hblank : Ws [0x20] := List.forall_mem_singleton.mpr (by decide)
  have hrepeats : Repeats (.array [.object [(lit "a", .null), (lit "a", .array [])]]) :=
    .item List.mem_cons_self (.here (by decide))
  obtain ⟨turns, hturns⟩ := scan_decides hblank hspace harray
  exact ⟨turns, fun fuel hfuel => (hturns fuel hfuel).1 hrepeats⟩

end AgentPassport.DuplicateScan
