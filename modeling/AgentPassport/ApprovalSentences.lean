import AgentPassport.ApprovalLexing
import AgentPassport.Outcome

/-! The compiler of approval rules accepts the sentences of the grammar, and a compiled rule matches
the actions its sentence holds of. -/
namespace AgentPassport.ApprovalSentences
open ActionRecord ApprovalRules ApprovalGrammar ApprovalLexing LongestMatch Outcome

variable {term : CompiledPredicate} {lex lex' : Lexer}

variable {first : Nat × Token}

theorem parseTerm_ok (h : parseTerm lex first = .ok (term, lex')) :
    ∃ s field opPos opTok lex₁, first.2 = .identifier s ∧ fieldFromIdent s = some field ∧
      lex.next = .ok ((opPos, opTok), lex₁) ∧
      ((∃ opStr op valPos valTok lex₂ value, opTok = .op opStr ∧ compareOpFromStr opStr = some op ∧
          (field = .operation → op = .eq ∨ op = .ne) ∧ lex₁.next = .ok ((valPos, valTok), lex₂) ∧
          resolveValueForField field valTok valPos = .ok value ∧ term = .compare field op value ∧ lex' = lex₂) ∨
        (opTok = .isIn ∧ parseSetMembership lex₁ field .isIn opPos = .ok (term, lex')) ∨
        ∃ inPos lex₂, opTok = .not ∧ lex₁.next = .ok ((inPos, .isIn), lex₂) ∧
          parseSetMembership lex₂ field .notIn opPos = .ok (term, lex')) := by
  obtain ⟨pos, tok⟩ := first
  cases tok with
  | identifier s =>
    refine ⟨s, ?_⟩
    simp only [parseTerm, pure_bind] at h
    cases hfield : fieldFromIdent s with
    | none =>
      simp only [hfield] at h
      cases h
    | some field =>
      simp only [hfield] at h
      obtain ⟨⟨⟨opPos, opTok⟩, lex₁⟩, hop, h⟩ := bind_eq_ok.mp h
      refine ⟨field, opPos, opTok, lex₁, rfl, rfl, hop, ?_⟩
      cases opTok with
      | op opStr =>
        cases hcompare : compareOpFromStr opStr with
        | none =>
          simp only [hcompare] at h
          cases h
        | some op =>
          simp only [hcompare] at h
          by_cases hunsupported : field = .operation ∧ op ≠ .eq ∧ op ≠ .ne
          · rw [if_pos hunsupported] at h
            cases h
          · rw [if_neg hunsupported] at h
            obtain ⟨⟨⟨valPos, valTok⟩, lex₂⟩, hval, h⟩ := bind_eq_ok.mp h
            obtain ⟨value, hvalue, h⟩ := bind_eq_ok.mp h
            cases h
            refine .inl ⟨opStr, op, valPos, valTok, _, value, rfl, hcompare, ?_, hval, hvalue, rfl, rfl⟩
            intro hoperation
            by_contra hne
            exact hunsupported ⟨hoperation, not_or.mp hne⟩
      | isIn => exact .inr (.inl ⟨rfl, h⟩)
      | not =>
        obtain ⟨⟨⟨inPos, t⟩, lex₂⟩, hin, h⟩ := bind_eq_ok.mp h
        by_cases ht : t = .isIn
        · subst ht
          exact .inr (.inr ⟨inPos, lex₂, rfl, hin, h⟩)
        · rw [if_pos ht] at h
          cases h
      | number n => cases h
      | identifier name => cases h
      | lBracket => cases h
      | rBracket => cases h
      | comma => cases h
      | and => cases h
      | eof => cases h
  | number n => cases h
  | op text => cases h
  | lBracket => cases h
  | rBracket => cases h
  | comma => cases h
  | and => cases h
  | not => cases h
  | isIn => cases h
  | eof => cases h

variable {field : PredicateField}

theorem parseSetMembership_ok {op : SetOp} {opPos : Nat} (h : parseSetMembership lex field op opPos = .ok (term, lex')) :
    field = .operation ∧ ∃ pos lex₁ set, lex.next = .ok ((pos, .lBracket), lex₁) ∧
      parseSetValues .operation (lex₁.rest.length + 1) [] lex₁ = .ok (set, lex') ∧ term = .setMember .operation op set := by
  by_cases hfield : field = .operation
  · subst hfield
    simp only [parseSetMembership, ne_eq, not_true, if_false] at h
    obtain ⟨⟨⟨pos, lb⟩, lex₁⟩, hlb, h⟩ := bind_eq_ok.mp h
    by_cases hbracket : lb = .lBracket
    · subst hbracket
      obtain ⟨⟨set, lex₂⟩, hset, h⟩ := bind_eq_ok.mp h
      cases hempty : set.isEmpty with
      | true =>
        simp only [hempty] at h
        cases h
      | false =>
        simp only [hempty] at h
        cases h
        exact ⟨rfl, pos, lex₁, set, hlb, hset, rfl⟩
    · rw [if_pos hbracket] at h
      cases h
  · simp only [parseSetMembership, ne_eq, hfield, not_false_eq_true, if_true] at h
    cases h

theorem parseSetValues_ok {fuel : Nat} {set set' : List UInt64}
    (h : parseSetValues field (fuel + 1) set lex = .ok (set', lex')) :
    ∃ vpos vtok val sepPos sep lex₁ lex₂, lex.next = .ok ((vpos, vtok), lex₁) ∧
      resolveValueForField field vtok vpos = .ok val ∧ lex₁.next = .ok ((sepPos, sep), lex₂) ∧
      (sep = .comma ∧ parseSetValues field fuel (set ++ [val]) lex₂ = .ok (set', lex') ∨
        sep = .rBracket ∧ set' = set ++ [val] ∧ lex' = lex₂) := by
  rw [parseSetValues] at h
  obtain ⟨⟨⟨vpos, vtok⟩, lex₁⟩, hnext, h⟩ := bind_eq_ok.mp h
  obtain ⟨val, hval, h⟩ := bind_eq_ok.mp h
  obtain ⟨⟨⟨sepPos, sep⟩, lex₂⟩, hsep, h⟩ := bind_eq_ok.mp h
  refine ⟨vpos, vtok, val, sepPos, sep, lex₁, lex₂, hnext, hval, hsep, ?_⟩
  cases sep with
  | comma => exact .inl ⟨rfl, h⟩
  | rBracket =>
    cases h
    exact .inr ⟨rfl, rfl, rfl⟩
  | identifier s => cases h
  | number n => cases h
  | op text => cases h
  | lBracket => cases h
  | and => cases h
  | not => cases h
  | isIn => cases h
  | eof => cases h

theorem parseMoreTerms_ok {fuel : Nat} {terms terms' : List CompiledPredicate} {lex : Lexer}
    (h : parseMoreTerms (fuel + 1) terms lex = .ok terms') :
    ∃ andPos t lex₁, lex.next = .ok ((andPos, t), lex₁) ∧
      (t = .eof ∧ terms' = terms ∨
        t = .and ∧ ∃ first lex₂ term lex₃, lex₁.next = .ok (first, lex₂) ∧
          parseTerm lex₂ first = .ok (term, lex₃) ∧
          parseMoreTerms fuel (terms ++ [term]) lex₃ = .ok terms') := by
  rw [parseMoreTerms] at h
  obtain ⟨⟨⟨andPos, t⟩, lex₁⟩, hnext, h⟩ := bind_eq_ok.mp h
  refine ⟨andPos, t, lex₁, hnext, ?_⟩
  cases t with
  | eof =>
    cases h
    exact .inl ⟨rfl, rfl⟩
  | and =>
    obtain ⟨⟨first, lex₂⟩, hfirst, h⟩ := bind_eq_ok.mp h
    obtain ⟨⟨term, lex₃⟩, hterm, h⟩ := bind_eq_ok.mp h
    exact .inr ⟨rfl, first, lex₂, term, lex₃, hfirst, hterm, h⟩
  | identifier s => cases h
  | number n => cases h
  | op text => cases h
  | lBracket => cases h
  | rBracket => cases h
  | comma => cases h
  | not => cases h
  | isIn => cases h

theorem keyword_of_names {s : String} {n : Nat} (h : (s, n) ∈ names field) :
    isIdentifier s.toList = true ∧ keywordToken s = .identifier s ∧
      ∀ pos, resolveValueForField field (.identifier s) pos = .ok (UInt64.ofNat n) := by
  cases field with
  | operation =>
    simp only [names, List.mem_cons, Prod.mk.injEq, List.not_mem_nil, or_false] at h
    obtain ⟨rfl, rfl⟩ | ⟨rfl, rfl⟩ | ⟨rfl, rfl⟩ | ⟨rfl, rfl⟩ | ⟨rfl, rfl⟩ | ⟨rfl, rfl⟩ | ⟨rfl, rfl⟩ := h
    all_goals exact ⟨by decide, by decide, fun pos => rfl⟩
  | riskClass =>
    simp only [names, List.mem_cons, Prod.mk.injEq, List.not_mem_nil, or_false] at h
    obtain ⟨rfl, rfl⟩ | ⟨rfl, rfl⟩ | ⟨rfl, rfl⟩ | ⟨rfl, rfl⟩ | ⟨rfl, rfl⟩ := h
    all_goals exact ⟨by decide, by decide, fun pos => rfl⟩
  | costUnits => cases h

theorem operation_named {name : String} {id : UInt16} (h : operationIdFromName name = some id) :
    (name, id.toNat) ∈ names .operation := by
  rw [operationIdFromName] at h
  obtain ⟨rfl, hid⟩ | ⟨-, h⟩ := ite_eq_iff.mp h
  · cases hid
    decide
  obtain ⟨rfl, hid⟩ | ⟨-, h⟩ := ite_eq_iff.mp h
  · cases hid
    decide
  obtain ⟨rfl, hid⟩ | ⟨-, h⟩ := ite_eq_iff.mp h
  · cases hid
    decide
  obtain ⟨rfl, hid⟩ | ⟨-, h⟩ := ite_eq_iff.mp h
  · cases hid
    decide
  obtain ⟨rfl, hid⟩ | ⟨-, h⟩ := ite_eq_iff.mp h
  · cases hid
    decide
  obtain ⟨rfl, hid⟩ | ⟨-, h⟩ := ite_eq_iff.mp h
  · cases hid
    decide
  obtain ⟨rfl, hid⟩ | ⟨-, h⟩ := ite_eq_iff.mp h
  · cases hid
    decide
  cases h

theorem riskClass_named {name : String} {value : UInt8} (h : riskClassValueFromName name = some value) :
    (name, value.toNat) ∈ names .riskClass := by
  rw [riskClassValueFromName] at h
  obtain ⟨rfl, hid⟩ | ⟨-, h⟩ := ite_eq_iff.mp h
  · cases hid
    decide
  obtain ⟨rfl, hid⟩ | ⟨-, h⟩ := ite_eq_iff.mp h
  · cases hid
    decide
  obtain ⟨rfl, hid⟩ | ⟨-, h⟩ := ite_eq_iff.mp h
  · cases hid
    decide
  obtain ⟨rfl, hid⟩ | ⟨-, h⟩ := ite_eq_iff.mp h
  · cases hid
    decide
  obtain ⟨rfl, hid⟩ | ⟨-, h⟩ := ite_eq_iff.mp h
  · cases hid
    decide
  cases h

theorem value_token (v : Value field) :
    ∃ t, IsToken v.word t ∧ ∀ pos, resolveValueForField field t pos = .ok (UInt64.ofNat v.number) := by
  obtain hname | ⟨hnumber, hdecimal, hlt⟩ := v.denotes
  · obtain ⟨hident, hkeyword, hresolve⟩ := keyword_of_names hname
    rw [String.toList_ofList] at hident
    exact ⟨_, .identifier hident, by rw [hkeyword]; exact hresolve⟩
  · refine ⟨_, .number hnumber (hdecimal.symm ▸ hlt), ?_⟩
    rw [hdecimal]
    cases field <;> exact fun pos => rfl

/-- The word can be that of the token. -/
def Spelling (w : List Char) : Token → Prop
  | .identifier s => String.ofList w = s
  | .op s => ∃ op, w = compareWord op ∧ s = String.ofList (compareWord op)
  | .lBracket => w = ['[']
  | .rBracket => w = [']']
  | .comma => w = [',']
  | .and => w = "AND".toList
  | .not => w = "NOT".toList
  | .isIn => w = "IN".toList
  | .number _ => True
  | .eof => False

variable {w : List Char} {t : Token}

theorem word_of_token (h : IsToken w t) : Spelling w t := by
  cases h with
  | number hnumber hlt => trivial
  | identifier hident =>
    have hlist : ∀ {s : String}, String.ofList w = s → w = s.toList := fun heq => heq ▸ String.toList_ofList.symm
    by_cases hand : String.ofList w = "AND"
    · rw [show keywordToken (String.ofList w) = .and by rw [keywordToken, if_pos hand]]
      exact hlist hand
    by_cases hnot : String.ofList w = "NOT"
    · rw [show keywordToken (String.ofList w) = .not by rw [keywordToken, if_neg hand, if_pos hnot]]
      exact hlist hnot
    by_cases hin : String.ofList w = "IN"
    · rw [show keywordToken (String.ofList w) = .isIn by rw [keywordToken, if_neg hand, if_neg hnot, if_pos hin]]
      exact hlist hin
    rw [show keywordToken (String.ofList w) = .identifier (String.ofList w) by
      rw [keywordToken, if_neg hand, if_neg hnot, if_neg hin]]
    rfl
  | compare op => exact ⟨op, rfl, rfl⟩
  | lBracket => rfl
  | rBracket => rfl
  | comma => rfl

theorem value_of_token {pos : Nat} {n : UInt64} (ht : IsToken w t) (h : resolveValueForField field t pos = .ok n) :
    ∃ v : Value field, v.word = w := by
  have hword := word_of_token ht
  cases t with
  | number m =>
    clear hword
    generalize htoken : Token.number m = t at ht
    cases ht with
    | number hnumber hlt => exact ⟨⟨w, decimal w, .inr ⟨hnumber, rfl, hlt⟩⟩, rfl⟩
    | identifier hident =>
      rw [keywordToken] at htoken
      split_ifs at htoken
    | compare op => cases htoken
    | lBracket => cases htoken
    | rBracket => cases htoken
    | comma => cases htoken
  | identifier name =>
    subst hword
    cases field with
    | operation =>
      simp only [resolveValueForField] at h
      cases hid : operationIdFromName (String.ofList w) with
      | some id => exact ⟨⟨w, id.toNat, .inl (operation_named hid)⟩, rfl⟩
      | none =>
        rw [hid] at h
        cases h
    | riskClass =>
      simp only [resolveValueForField] at h
      cases hid : riskClassValueFromName (String.ofList w) with
      | some value => exact ⟨⟨w, value.toNat, .inl (riskClass_named hid)⟩, rfl⟩
      | none =>
        rw [hid] at h
        cases h
    | costUnits => cases h
  | op text => cases field <;> cases h
  | lBracket => cases field <;> cases h
  | rBracket => cases field <;> cases h
  | comma => cases field <;> cases h
  | and => cases field <;> cases h
  | not => cases field <;> cases h
  | isIn => cases field <;> cases h
  | eof => cases field <;> cases h

variable {words : List (List Char)}

theorem next_reads {lex : Lexer} {text left w : List Char} (hlex : lex.rest = bytesOf text)
    (hreads : Reading text (w :: words) left) (ht : IsToken w t) :
    ∃ pos lex' mid, lex.next = .ok ((pos, t), lex') ∧ lex'.rest = bytesOf mid ∧
      Reading mid words left := by
  obtain ⟨pos, rest⟩ := lex
  subst hlex
  cases hreads with
  | cons hgap hlongest hreads => exact ⟨_, _, _, next_word pos hgap hlongest ht, rfl, hreads⟩

variable {text : List Char}

theorem reads_next {pos : Nat} (hlex : lex.rest = bytesOf text) (hnext : lex.next = .ok ((pos, t), lex'))
    (ht : t ≠ .eof) : ∃ w mid, IsToken w t ∧ lex'.rest = bytesOf mid ∧ Reading text [w] mid := by
  obtain ⟨start, rest⟩ := lex
  subst hlex
  obtain ⟨-, hr⟩ | ⟨gap, w, rest, t', rfl, hgap, hlongest, htoken, hr⟩ := next_cases start hnext
  · cases hr
    exact absurd rfl ht
  · cases hr
    exact ⟨w, rest, htoken, rfl, .single hgap hlongest⟩

theorem next_eof_iff {lex : Lexer} (hlex : lex.rest = bytesOf text) :
    (∃ pos lex', lex.next = .ok ((pos, .eof), lex')) ↔ ∀ c ∈ text, blank c = true := by
  obtain ⟨start, rest⟩ := lex
  subst hlex
  constructor
  · intro hnext
    obtain ⟨pos, lex', hnext⟩ := hnext
    obtain ⟨hblank, -⟩ | ⟨gap, w, rest, t', -, -, -, htoken, hr⟩ := next_cases start hnext
    · exact hblank
    · cases hr
      exact (word_of_token htoken).elim
  · intro hblank
    refine ⟨start + text.length, ⟨start + text.length, bytesOf []⟩, ?_⟩
    rw [← List.append_nil text, next_gap start hblank (by intro c hc; cases hc), next_eof, List.append_nil]

def compiled : Term → CompiledPredicate
  | .comparison c => .compare c.field c.op (UInt64.ofNat c.value.number)
  | .setMembership s => .setMember .operation s.op ((s.first :: s.more).map (fun v => UInt64.ofNat v.number))

theorem field_token (field : PredicateField) :
    IsToken (fieldWord field) (.identifier (String.ofList (fieldWord field))) := by
  have hkeyword : keywordToken (String.ofList (fieldWord field)) = .identifier (String.ofList (fieldWord field)) := by
    cases field <;> decide
  rw [← hkeyword]
  refine .identifier ?_
  cases field <;> decide

theorem fieldFromIdent_word (field : PredicateField) :
    fieldFromIdent (String.ofList (fieldWord field)) = some field := by
  cases field <;> decide

theorem compareOpFromStr_word (op : CompareOp) : compareOpFromStr (String.ofList (compareWord op)) = some op := by
  cases op <;> decide

theorem and_token : IsToken "AND".toList .and := .identifier (w := "AND".toList) (by decide)
theorem not_token : IsToken "NOT".toList .not := .identifier (w := "NOT".toList) (by decide)
theorem in_token : IsToken "IN".toList .isIn := .identifier (w := "IN".toList) (by decide)

theorem length_le_bytes (text : List Char) : text.length ≤ (bytesOf text).length := by
  induction text with
  | nil => exact le_rfl
  | cons c text ih =>
    by_cases hc : c.toNat < 0x80
    · rw [bytesOf_cons_low hc, List.length_cons, List.length_cons]
      omega
    · rw [bytesOf, List.flatMap_cons, List.length_append, List.length_cons]
      have hpos : 0 < (String.utf8EncodeChar c).length := by
        rw [String.length_utf8EncodeChar]
        exact Char.utf8Size_pos c
      rw [bytesOf] at ih
      omega

theorem length_le_flatMap {α β : Type*} (f : α → List β) (l : List α) (hf : ∀ x, 1 ≤ (f x).length) :
    l.length ≤ (l.flatMap f).length := by
  induction l with
  | nil => exact le_rfl
  | cons x l ih =>
    have hx := hf x
    rw [List.flatMap_cons, List.length_append, List.length_cons]
    omega

theorem words_le {text left : List Char} (h : Reading text words left) : words.length + left.length ≤ text.length := by
  induction h with
  | nil left => exact (Nat.zero_add _).le
  | @cons gap w rest left words _ longest _ ih =>
    obtain ⟨c, v, rfl, -⟩ := word_not_blank longest.word
    simp only [List.length_append, List.length_cons]
    omega

theorem parseSetValues_complete (more : List (Value .operation)) : ∀ (v : Value .operation) (set : List UInt64) (fuel : Nat)
    {text left : List Char} {lex : Lexer}, lex.rest = bytesOf text → more.length < fuel →
    Reading text (v.word :: moreWords more) left →
    ∃ lex', parseSetValues .operation fuel set lex = .ok (set ++ (v :: more).map (fun v => UInt64.ofNat v.number), lex') ∧
      lex'.rest = bytesOf left := by
  induction more with
  | nil =>
    intro v set fuel text left lex hlex hfuel hreads
    obtain ⟨fuel, rfl⟩ := Nat.exists_eq_add_of_lt hfuel
    obtain ⟨t, ht, hvalue⟩ := value_token v
    obtain ⟨pos, lex₁, mid, hnext, hlex₁, hreads⟩ := next_reads hlex hreads ht
    obtain ⟨pos₂, lex₂, mid₂, hsep, hlex₂, hreads⟩ := next_reads hlex₁ hreads .rBracket
    cases hreads
    exact ⟨lex₂, bind_eq_ok.mpr ⟨_, hnext, bind_eq_ok.mpr ⟨_, hvalue pos, bind_eq_ok.mpr ⟨_, hsep, rfl⟩⟩⟩, hlex₂⟩
  | cons v' more ih =>
    intro v set fuel text left lex hlex hfuel hreads
    cases fuel with
    | zero => exact absurd hfuel (Nat.not_lt_zero _)
    | succ fuel =>
      obtain ⟨t, ht, hvalue⟩ := value_token v
      obtain ⟨pos, lex₁, mid, hnext, hlex₁, hreads⟩ := next_reads hlex hreads ht
      obtain ⟨pos₂, lex₂, mid₂, hsep, hlex₂, hreads⟩ := next_reads hlex₁ hreads .comma
      obtain ⟨lex', hrest, hlex'⟩ :=
        ih v' (set ++ [UInt64.ofNat v.number]) fuel hlex₂ (Nat.lt_of_succ_lt_succ hfuel) hreads
      refine ⟨lex', bind_eq_ok.mpr ⟨_, hnext, bind_eq_ok.mpr ⟨_, hvalue pos, bind_eq_ok.mpr ⟨_, hsep, ?_⟩⟩⟩, hlex'⟩
      rw [List.append_assoc] at hrest
      exact hrest

theorem parseSetMembership_complete (s : SetMembership) (opPos : Nat) {text left : List Char} {lex : Lexer}
    (hlex : lex.rest = bytesOf text)
    (hreads : Reading text (['['] :: s.first.word :: moreWords s.more) left) :
    ∃ lex', parseSetMembership lex .operation s.op opPos = .ok (compiled (.setMembership s), lex') ∧
      lex'.rest = bytesOf left := by
  obtain ⟨pos, lex₁, mid, hnext, hlex₁, hreads⟩ := next_reads hlex hreads .lBracket
  have hfuel : s.more.length < lex₁.rest.length + 1 := by
    have hwords := words_le hreads
    have hbytes := length_le_bytes mid
    have hvalues := length_le_flatMap (fun v : Value .operation => [[','], v.word]) s.more (fun v => Nat.le_add_left 1 _)
    rw [List.length_cons, moreWords, List.length_append] at hwords
    rw [hlex₁]
    omega
  obtain ⟨lex', hset, hlex'⟩ := parseSetValues_complete s.more s.first [] _ hlex₁ hfuel hreads
  refine ⟨lex', ?_, hlex'⟩
  simp only [parseSetMembership, ne_eq, not_true, if_false]
  exact bind_eq_ok.mpr ⟨_, hnext, bind_eq_ok.mpr ⟨_, hset, rfl⟩⟩

theorem parseTerm_complete (t : Term) (pos : Nat) {text left : List Char} {lex : Lexer} (hlex : lex.rest = bytesOf text)
    (hreads : Reading text t.rest left) :
    ∃ lex', parseTerm lex (pos, .identifier (String.ofList (fieldWord t.field))) = .ok (compiled t, lex') ∧
      lex'.rest = bytesOf left := by
  simp only [parseTerm, pure_bind, fieldFromIdent_word]
  cases t with
  | comparison c =>
    obtain ⟨opPos, lex₁, mid, hop, hlex₁, hreads⟩ := next_reads hlex hreads (.compare c.op)
    obtain ⟨tok, htok, hvalue⟩ := value_token c.value
    obtain ⟨valPos, lex₂, mid₂, hval, hlex₂, hreads⟩ := next_reads hlex₁ hreads htok
    cases hreads
    refine ⟨lex₂, bind_eq_ok.mpr ⟨_, hop, ?_⟩, hlex₂⟩
    have hsupported : ¬ (c.field = .operation ∧ c.op ≠ .eq ∧ c.op ≠ .ne) :=
      fun h => not_or.mpr h.2 (c.unordered h.1)
    simp only [compareOpFromStr_word]
    refine (if_neg hsupported).trans ?_
    exact bind_eq_ok.mpr ⟨_, hval, bind_eq_ok.mpr ⟨_, hvalue valPos, rfl⟩⟩
  | setMembership s =>
    cases hop : s.op with
    | isIn =>
      rw [Term.rest, hop] at hreads
      obtain ⟨opPos, lex₁, mid, hnext, hlex₁, hreads⟩ := next_reads hlex hreads in_token
      obtain ⟨lex', hset, hlex'⟩ := parseSetMembership_complete s opPos hlex₁ hreads
      rw [hop] at hset
      exact ⟨lex', bind_eq_ok.mpr ⟨_, hnext, hset⟩, hlex'⟩
    | notIn =>
      rw [Term.rest, hop] at hreads
      obtain ⟨opPos, lex₁, mid, hnext, hlex₁, hreads⟩ := next_reads hlex hreads not_token
      obtain ⟨inPos, lex₂, mid₂, hin, hlex₂, hreads⟩ := next_reads hlex₁ hreads in_token
      obtain ⟨lex', hset, hlex'⟩ := parseSetMembership_complete s opPos hlex₂ hreads
      rw [hop] at hset
      exact ⟨lex', bind_eq_ok.mpr ⟨_, hnext, bind_eq_ok.mpr ⟨_, hin, hset⟩⟩, hlex'⟩

theorem start_rest (text : List Char) : (⟨0, bytesOf text⟩ : Lexer).rest = bytesOf text := rfl

def moreTerms (more : List Term) : List (List Char) := more.flatMap (fun t => "AND".toList :: t.words)

theorem parseMoreTerms_complete (more : List Term) : ∀ (terms : List CompiledPredicate) (fuel : Nat)
    {text gap : List Char} {lex : Lexer}, lex.rest = bytesOf text → more.length < fuel →
    Reading text (moreTerms more) gap → (∀ c ∈ gap, blank c = true) →
    parseMoreTerms fuel terms lex = .ok (terms ++ more.map compiled) := by
  induction more with
  | nil =>
    intro terms fuel text gap lex hlex hfuel hreads hgap
    obtain ⟨fuel, rfl⟩ := Nat.exists_eq_add_of_lt hfuel
    cases hreads
    obtain ⟨pos, lex', heof⟩ := (next_eof_iff hlex).mpr hgap
    rw [List.map_nil, List.append_nil]
    exact bind_eq_ok.mpr ⟨_, heof, rfl⟩
  | cons t more ih =>
    intro terms fuel text gap lex hlex hfuel hreads hgap
    cases fuel with
    | zero => exact absurd hfuel (Nat.not_lt_zero _)
    | succ fuel =>
      obtain ⟨pos, lex₁, mid, hand, hlex₁, hreads⟩ := next_reads hlex hreads and_token
      obtain ⟨pos₂, lex₂, mid₂, hfield, hlex₂, hreads⟩ := next_reads hlex₁ hreads (field_token t.field)
      obtain ⟨mid₃, hterm, hreads⟩ := hreads.of_append
      obtain ⟨lex₃, hparse, hlex₃⟩ := parseTerm_complete t pos₂ hlex₂ hterm
      have hrest := ih (terms ++ [compiled t]) fuel hlex₃ (Nat.lt_of_succ_lt_succ hfuel) hreads hgap
      rw [List.append_assoc] at hrest
      exact bind_eq_ok.mpr ⟨_, hand, bind_eq_ok.mpr ⟨_, hfield, bind_eq_ok.mpr ⟨_, hparse, hrest⟩⟩⟩

theorem parseConjunction_complete {c : Conjunction} (h : Spells text c) :
    parseConjunction ⟨0, bytesOf text⟩ = .ok ((c.first :: c.more).map compiled) := by
  obtain ⟨gap, hreads, hgap⟩ := h
  obtain ⟨pos, lex₁, mid, hfield, hlex₁, hreads⟩ := next_reads (start_rest text) hreads (field_token c.first.field)
  obtain ⟨mid₂, hterm, hreads⟩ := hreads.of_append
  obtain ⟨lex₂, hparse, hlex₂⟩ := parseTerm_complete c.first pos hlex₁ hterm
  have hfuel : c.more.length < lex₂.rest.length + 1 := by
    have hwords := words_le hreads
    have hbytes := length_le_bytes mid₂
    have hterms := length_le_flatMap (fun t : Term => "AND".toList :: t.words) c.more (fun t => Nat.le_add_left 1 _)
    rw [hlex₂]
    omega
  have hmore := parseMoreTerms_complete c.more [compiled c.first] _ hlex₂ hfuel hreads hgap
  refine bind_eq_ok.mpr ⟨_, hfield, ?_⟩
  refine (if_neg (by exact Token.noConfusion)).trans ?_
  exact bind_eq_ok.mpr ⟨_, hparse, hmore⟩

theorem bytes_shorter {text left w : List Char} (h : Reading text (w :: words) left) :
    (bytesOf left).length < (bytesOf text).length := by
  cases h with
  | @cons gap _ rest _ _ _ longest reads =>
    obtain ⟨read, rfl⟩ := reads.suffix
    obtain ⟨c, v, rfl, -⟩ := word_not_blank longest.word
    simp only [bytesOf_append, List.length_append]
    have hword := length_le_bytes (c :: v)
    rw [List.length_cons] at hword
    omega

theorem parseSetValues_sound (fuel : Nat) : ∀ (set : List UInt64) {set' : List UInt64} {lex lex' : Lexer} {text : List Char},
    lex.rest = bytesOf text → lex.rest.length < fuel → parseSetValues .operation fuel set lex = .ok (set', lex') →
    ∃ (v : Value .operation) (more : List (Value .operation)) (left : List Char),
      Reading text (v.word :: moreWords more) left ∧ lex'.rest = bytesOf left := by
  induction fuel with
  | zero => exact fun set set' lex lex' text _ hfuel _ => absurd hfuel (Nat.not_lt_zero _)
  | succ fuel ih =>
    intro set set' lex lex' text hlex hfuel h
    obtain ⟨vpos, vtok, val, sepPos, sep, lex₁, lex₂, hnext, hvalue, hsep, hcase⟩ := parseSetValues_ok h
    have hvtok : vtok ≠ .eof := by
      intro heof
      subst heof
      cases hvalue
    obtain ⟨w, mid, hw, hlex₁, hreads⟩ := reads_next hlex hnext hvtok
    obtain ⟨v, rfl⟩ := value_of_token hw hvalue
    obtain ⟨rfl, hrest⟩ | ⟨rfl, -, rfl⟩ := hcase
    · obtain ⟨w₂, mid₂, hw₂, hlex₂, hreads₂⟩ := reads_next hlex₁ hsep Token.noConfusion
      obtain rfl : w₂ = [','] := word_of_token hw₂
      have hshort := bytes_shorter hreads
      have hshort₂ := bytes_shorter hreads₂
      obtain ⟨v', more, left, hmore, hlex'⟩ := ih _ hlex₂ (by rw [hlex₂]; rw [hlex] at hfuel; omega) hrest
      exact ⟨v, v' :: more, left, hreads.append (hreads₂.append hmore), hlex'⟩
    · obtain ⟨w₂, mid₂, hw₂, hlex₂, hreads₂⟩ := reads_next hlex₁ hsep Token.noConfusion
      obtain rfl : w₂ = [']'] := word_of_token hw₂
      exact ⟨v, [], mid₂, hreads.append hreads₂, hlex₂⟩

theorem parseSetMembership_sound {op : SetOp} {opPos : Nat} (hlex : lex.rest = bytesOf text)
    (h : parseSetMembership lex field op opPos = .ok (term, lex')) :
    field = .operation ∧ ∃ (v : Value .operation) (more : List (Value .operation)) (left : List Char),
      Reading text (['['] :: v.word :: moreWords more) left ∧ lex'.rest = bytesOf left := by
  obtain ⟨hfield, pos, lex₁, set, hlb, hset, -⟩ := parseSetMembership_ok h
  obtain ⟨w, mid, hw, hlex₁, hreads⟩ := reads_next hlex hlb Token.noConfusion
  obtain rfl : w = ['['] := word_of_token hw
  obtain ⟨v, more, left, hmore, hlex'⟩ := parseSetValues_sound _ _ hlex₁ (Nat.lt_succ_self _) hset
  exact ⟨hfield, v, more, left, hreads.append hmore, hlex'⟩

theorem fieldWord_of_ident {s : String} (h : fieldFromIdent s = some field) : s = String.ofList (fieldWord field) := by
  simp only [fieldFromIdent] at h
  split_ifs at h with h0 h1 h2
  all_goals
    cases h
    subst_vars
    rfl

theorem parseTerm_sound (hlex : lex.rest = bytesOf text) (h : parseTerm lex first = .ok (term, lex')) :
    ∃ (t : Term) (left : List Char), first.2 = .identifier (String.ofList (fieldWord t.field)) ∧
      Reading text t.rest left ∧ lex'.rest = bytesOf left := by
  obtain ⟨s, field, opPos, opTok, lex₁, hfirst, hfield, hop, hcase⟩ := parseTerm_ok h
  rw [fieldWord_of_ident hfield] at hfirst
  obtain ⟨opStr, op, valPos, valTok, lex₂, value, rfl, hcompare, hunordered, hval, hvalue, -, rfl⟩ | ⟨rfl, hset⟩ |
    ⟨inPos, lex₂, rfl, hin, hset⟩ := hcase
  · obtain ⟨w, mid, hw, hlex₁, hreads⟩ := reads_next hlex hop Token.noConfusion
    obtain ⟨op', rfl, rfl⟩ := word_of_token hw
    rw [compareOpFromStr_word] at hcompare
    cases hcompare
    have hvaltok : valTok ≠ .eof := by
      intro heof
      subst heof
      cases field <;> cases hvalue
    obtain ⟨w₂, mid₂, hw₂, hlex₂, hreads₂⟩ := reads_next hlex₁ hval hvaltok
    obtain ⟨v, rfl⟩ := value_of_token hw₂ hvalue
    exact ⟨.comparison ⟨field, op, v, hunordered⟩, mid₂, hfirst, hreads.append hreads₂, hlex₂⟩
  · obtain ⟨w, mid, hw, hlex₁, hreads⟩ := reads_next hlex hop Token.noConfusion
    obtain rfl : w = "IN".toList := word_of_token hw
    obtain ⟨rfl, v, more, left, hmore, hlex'⟩ := parseSetMembership_sound hlex₁ hset
    exact ⟨.setMembership ⟨.isIn, v, more⟩, left, hfirst, hreads.append hmore, hlex'⟩
  · obtain ⟨w, mid, hw, hlex₁, hreads⟩ := reads_next hlex hop Token.noConfusion
    obtain rfl : w = "NOT".toList := word_of_token hw
    obtain ⟨w₂, mid₂, hw₂, hlex₂, hreads₂⟩ := reads_next hlex₁ hin Token.noConfusion
    obtain rfl : w₂ = "IN".toList := word_of_token hw₂
    obtain ⟨rfl, v, more, left, hmore, hlex'⟩ := parseSetMembership_sound hlex₂ hset
    exact ⟨.setMembership ⟨.notIn, v, more⟩, left, hfirst, hreads.append (hreads₂.append hmore), hlex'⟩

theorem term_sound {lex lex₁ lex' : Lexer} (hlex : lex.rest = bytesOf text) (hfirst : lex.next = .ok (first, lex₁))
    (h : parseTerm lex₁ first = .ok (term, lex')) :
    ∃ (t : Term) (left : List Char), Reading text t.words left ∧ lex'.rest = bytesOf left := by
  obtain ⟨pos, tok⟩ := first
  have htok : tok ≠ .eof := by
    intro heof
    subst heof
    cases h
  obtain ⟨w, mid, hw, hlex₁, hreads⟩ := reads_next hlex hfirst htok
  obtain ⟨t, left, hfield, hrest, hlex'⟩ := parseTerm_sound hlex₁ h
  subst hfield
  obtain rfl : w = fieldWord t.field := String.ofList_injective (word_of_token hw)
  exact ⟨t, left, hreads.append hrest, hlex'⟩

theorem parseMoreTerms_sound (fuel : Nat) : ∀ (terms : List CompiledPredicate) {terms' : List CompiledPredicate} {lex : Lexer}
    {text : List Char}, lex.rest = bytesOf text → lex.rest.length < fuel → parseMoreTerms fuel terms lex = .ok terms' →
    ∃ (more : List Term) (gap : List Char), Reading text (moreTerms more) gap ∧ ∀ c ∈ gap, blank c = true := by
  induction fuel with
  | zero => exact fun terms terms' lex text _ hfuel _ => absurd hfuel (Nat.not_lt_zero _)
  | succ fuel ih =>
    intro terms terms' lex text hlex hfuel h
    obtain ⟨andPos, t, lex₁, hnext, hcase⟩ := parseMoreTerms_ok h
    obtain ⟨rfl, -⟩ | ⟨rfl, first, lex₂, term, lex₃, hfirst, hterm, hrest⟩ := hcase
    · exact ⟨[], text, .nil text, (next_eof_iff hlex).mp ⟨_, _, hnext⟩⟩
    · obtain ⟨w, mid, hw, hlex₁, hreads⟩ := reads_next hlex hnext Token.noConfusion
      obtain rfl : w = "AND".toList := word_of_token hw
      obtain ⟨t, left, hwords, hlex₃⟩ := term_sound hlex₁ hfirst hterm
      have hshort := bytes_shorter hreads
      have hshort₂ := bytes_shorter hwords
      obtain ⟨more, gap, hmore, hgap⟩ := ih _ hlex₃ (by rw [hlex₃]; rw [hlex] at hfuel; omega) hrest
      exact ⟨t :: more, gap, hreads.append (hwords.append hmore), hgap⟩

theorem parseConjunction_sound {terms : List CompiledPredicate} (h : parseConjunction ⟨0, bytesOf text⟩ = .ok terms) :
    ∃ c, Spells text c := by
  obtain ⟨⟨first, lex₁⟩, hfirst, h⟩ := bind_eq_ok.mp h
  dsimp only at h
  by_cases heof : first.2 = .eof
  · rw [if_pos heof] at h
    cases h
  · rw [if_neg heof] at h
    obtain ⟨⟨term, lex₂⟩, hterm, h⟩ := bind_eq_ok.mp h
    obtain ⟨t, left, hwords, hlex₂⟩ := term_sound (start_rest text) hfirst hterm
    obtain ⟨more, gap, hmore, hgap⟩ := parseMoreTerms_sound _ _ hlex₂ (Nat.lt_succ_self _) h
    exact ⟨⟨t, more⟩, gap, hwords.append hmore, hgap⟩

theorem parseSetValues_rounds (fuel : Nat) : ∀ (fuel' : Nat) (field : PredicateField) (set : List UInt64) {lex : Lexer}
    {text : List Char}, lex.rest = bytesOf text → lex.rest.length < fuel → lex.rest.length < fuel' →
    parseSetValues field fuel set lex = parseSetValues field fuel' set lex := by
  induction fuel with
  | zero => exact fun fuel' field set lex text _ hfuel _ => absurd hfuel (Nat.not_lt_zero _)
  | succ fuel ih =>
    intro fuel' field set lex text hlex hfuel hfuel'
    cases fuel' with
    | zero => exact absurd hfuel' (Nat.not_lt_zero _)
    | succ fuel' =>
      rw [parseSetValues, parseSetValues]
      cases hnext : lex.next with
      | error e => rfl
      | ok r =>
        obtain ⟨⟨vpos, vtok⟩, lex₁⟩ := r
        show (resolveValueForField field vtok vpos >>= _) = (resolveValueForField field vtok vpos >>= _)
        cases hvalue : resolveValueForField field vtok vpos with
        | error e => rfl
        | ok val =>
          show (lex₁.next >>= _) = (lex₁.next >>= _)
          cases hsep : lex₁.next with
          | error e => rfl
          | ok r =>
            obtain ⟨⟨sepPos, sep⟩, lex₂⟩ := r
            cases sep with
            | comma =>
              have hvtok : vtok ≠ .eof := by
                intro heof
                subst heof
                cases field <;> cases hvalue
              obtain ⟨w, mid, -, hlex₁, hreads⟩ := reads_next hlex hnext hvtok
              obtain ⟨w₂, mid₂, -, hlex₂, hreads₂⟩ := reads_next hlex₁ hsep Token.noConfusion
              have hshort := bytes_shorter hreads
              have hshort₂ := bytes_shorter hreads₂
              rw [hlex] at hfuel hfuel'
              exact ih fuel' field _ hlex₂ (by rw [hlex₂]; omega) (by rw [hlex₂]; omega)
            | identifier s => rfl
            | number n => rfl
            | op text => rfl
            | lBracket => rfl
            | rBracket => rfl
            | and => rfl
            | not => rfl
            | isIn => rfl
            | eof => rfl

theorem parseMoreTerms_rounds (fuel : Nat) : ∀ (fuel' : Nat) (terms : List CompiledPredicate) {lex : Lexer}
    {text : List Char}, lex.rest = bytesOf text → lex.rest.length < fuel → lex.rest.length < fuel' →
    parseMoreTerms fuel terms lex = parseMoreTerms fuel' terms lex := by
  induction fuel with
  | zero => exact fun fuel' terms lex text _ hfuel _ => absurd hfuel (Nat.not_lt_zero _)
  | succ fuel ih =>
    intro fuel' terms lex text hlex hfuel hfuel'
    cases fuel' with
    | zero => exact absurd hfuel' (Nat.not_lt_zero _)
    | succ fuel' =>
      rw [parseMoreTerms, parseMoreTerms]
      cases hnext : lex.next with
      | error e => rfl
      | ok r =>
        obtain ⟨⟨andPos, t⟩, lex₁⟩ := r
        cases t with
        | and =>
          show (lex₁.next >>= _) = (lex₁.next >>= _)
          cases hfirst : lex₁.next with
          | error e => rfl
          | ok r =>
            obtain ⟨first, lex₂⟩ := r
            show (parseTerm lex₂ first >>= _) = (parseTerm lex₂ first >>= _)
            cases hterm : parseTerm lex₂ first with
            | error e => rfl
            | ok r =>
              obtain ⟨term, lex₃⟩ := r
              obtain ⟨w, mid, -, hlex₁, hreads⟩ := reads_next hlex hnext Token.noConfusion
              obtain ⟨t, left, hwords, hlex₃⟩ := term_sound hlex₁ hfirst hterm
              have hshort := bytes_shorter hreads
              have hshort₂ := bytes_shorter hwords
              rw [hlex] at hfuel hfuel'
              exact ih fuel' _ hlex₃ (by rw [hlex₃]; omega) (by rw [hlex₃]; omega)
        | identifier s => rfl
        | number n => rfl
        | op text => rfl
        | lBracket => rfl
        | rBracket => rfl
        | comma => rfl
        | not => rfl
        | isIn => rfl
        | eof => rfl

/-- The lexers that reading a text from its start can reach. -/
inductive Lexed (text : List Char) : Lexer → Prop
  | start : Lexed text ⟨0, bytesOf text⟩
  | next {lex lex' : Lexer} {t : Nat × Token} (h : Lexed text lex) (hnext : lex.next = .ok (t, lex')) : Lexed text lex'

def slice (lex : Lexer) : Option (Nat × Nat) :=
  let lex := lex.skipWs
  match lex.rest with
  | [] => none
  | b :: _ =>
    if isAsciiDigit b then some (lex.pos, lex.pos + (lex.rest.takeWhile isAsciiDigit).length)
    else if isIdentStart b then some (lex.pos, lex.pos + (lex.rest.takeWhile isIdentPart).length)
    else none

/-- A position between two characters, where a text may be sliced. -/
def CharBoundary (text : List Char) (pos : Nat) : Prop :=
  ∃ before after, text = before ++ after ∧ pos = (bytesOf before).length

theorem word_bytes (h : IsWord w) : (bytesOf w).length = w.length := by
  cases h with
  | number h => exact digit_class.length (List.all_eq_true.mp (Bool.and_eq_true_iff.mp h).2)
  | @identifier w h =>
    cases w with
    | nil => rfl
    | cons c w =>
      obtain ⟨hc, hw⟩ := Bool.and_eq_true_iff.mp h
      exact wordPart_class.length (List.forall_mem_cons.mpr ⟨by rw [wordPart, hc, Bool.true_or], List.all_eq_true.mp hw⟩)
  | compare op => cases op <;> rfl
  | lBracket => rfl
  | rBracket => rfl
  | comma => rfl

theorem Lexed.at_boundary {lex : Lexer} (h : Lexed text lex) :
    ∃ before after, text = before ++ after ∧ lex = ⟨(bytesOf before).length, bytesOf after⟩ := by
  induction h with
  | start => exact ⟨[], text, rfl, rfl⟩
  | next h hnext ih =>
    obtain ⟨before, after, rfl, rfl⟩ := ih
    obtain ⟨hblank, hr⟩ | ⟨gap, w, rest, t, rfl, hgap, hlongest, -, hr⟩ := next_cases _ hnext
    · refine ⟨before ++ after, [], (List.append_nil _).symm, ?_⟩
      rw [bytesOf_append, List.length_append, blank_class.length hblank]
      exact congrArg Prod.snd hr
    · refine ⟨before ++ (gap ++ w), rest, by simp only [List.append_assoc], ?_⟩
      rw [bytesOf_append, bytesOf_append, List.length_append, List.length_append, blank_class.length hgap,
        word_bytes hlongest.word, ← Nat.add_assoc]
      exact congrArg Prod.snd hr

theorem slice_class {p : Char → Bool} {P : UInt8 → Bool} (hclass : ByteClass p P) (before post : List Char) :
    CharBoundary (before ++ post) (bytesOf before).length ∧
      CharBoundary (before ++ post) ((bytesOf before).length + ((bytesOf post).takeWhile P).length) := by
  refine ⟨⟨before, post, rfl, rfl⟩, before ++ post.takeWhile p, post.dropWhile p, ?_, ?_⟩
  · rw [List.append_assoc, List.takeWhile_append_dropWhile]
  · rw [hclass.takeWhile, bytesOf_append, List.length_append]

theorem slice_boundaries {lex : Lexer} (h : Lexed text lex) {start stop : Nat} (hslice : slice lex = some (start, stop)) :
    start ≤ stop ∧ CharBoundary text start ∧ CharBoundary text stop := by
  obtain ⟨before, after, rfl, rfl⟩ := h.at_boundary
  have hgap : ∀ c ∈ after.takeWhile blank, blank c = true := fun c hc => List.mem_takeWhile_imp hc
  have hskip := skipWs_text (bytesOf before).length hgap (stops_dropWhile blank after)
  have hafter : after.takeWhile blank ++ after.dropWhile blank = after := List.takeWhile_append_dropWhile
  have hpos : (bytesOf before).length + (after.takeWhile blank).length =
      (bytesOf (before ++ after.takeWhile blank)).length := by
    rw [bytesOf_append, List.length_append, blank_class.length hgap]
  rw [hafter, hpos] at hskip
  have htext : before ++ after = (before ++ after.takeWhile blank) ++ after.dropWhile blank := by
    rw [List.append_assoc, hafter]
  simp only [slice, hskip] at hslice
  generalize hpost : bytesOf (after.dropWhile blank) = bytes at hslice
  cases bytes with
  | nil => cases hslice
  | cons b bytes =>
    rw [htext]
    by_cases hdigit : isAsciiDigit b = true
    · simp only [hdigit, if_true] at hslice
      have hclass := slice_class digit_class (before ++ after.takeWhile blank) (after.dropWhile blank)
      rw [hpost] at hclass
      cases hslice
      exact ⟨Nat.le_add_right _ _, hclass⟩
    · by_cases hletter : isIdentStart b = true
      · simp only [hdigit, hletter, if_true] at hslice
        have hclass := slice_class wordPart_class (before ++ after.takeWhile blank) (after.dropWhile blank)
        rw [hpost] at hclass
        cases hslice
        exact ⟨Nat.le_add_right _ _, hclass⟩
      · simp only [hdigit, hletter] at hslice
        cases hslice

theorem value_lt (v : Value field) : v.number < 2 ^ 64 := by
  obtain hname | ⟨-, -, hlt⟩ := v.denotes
  · have hsmall : ∀ entry ∈ names field, entry.2 < 2 ^ 64 := by
      cases field
      · simp [names]
      · simp [names]
      · simp [names]
    exact hsmall _ hname
  · exact hlt

theorem fieldValue_toNat (action : ActionDescriptor) (field : PredicateField) :
    (fieldValue action field).toNat = fieldNumber action field := by
  cases field with
  | operation => exact UInt16.toNat_toUInt64 _
  | riskClass => exact UInt8.toNat_toUInt64 _
  | costUnits => exact UInt32.toNat_toUInt64 _

theorem toNat_number (v : Value field) : (UInt64.ofNat v.number).toNat = v.number := by
  rw [UInt64.toNat_ofNat', Nat.mod_eq_of_lt (value_lt v)]

theorem fieldValue_eq (action : ActionDescriptor) (v : Value field) :
    fieldValue action field = UInt64.ofNat v.number ↔ fieldNumber action field = v.number := by
  rw [← UInt64.toNat_inj, fieldValue_toNat, toNat_number]

theorem evalTerm_compiled (t : Term) (action : ActionDescriptor) :
    evalTerm (compiled t) action = true ↔ t.Holds action := by
  cases t with
  | comparison c =>
    have hlt : fieldValue action c.field < UInt64.ofNat c.value.number ↔ fieldNumber action c.field < c.value.number := by
      rw [UInt64.lt_iff_toNat_lt, fieldValue_toNat, toNat_number]
    have hgt : UInt64.ofNat c.value.number < fieldValue action c.field ↔ c.value.number < fieldNumber action c.field := by
      rw [UInt64.lt_iff_toNat_lt, fieldValue_toNat, toNat_number]
    have hle : fieldValue action c.field ≤ UInt64.ofNat c.value.number ↔ fieldNumber action c.field ≤ c.value.number := by
      rw [UInt64.le_iff_toNat_le, fieldValue_toNat, toNat_number]
    have hge : UInt64.ofNat c.value.number ≤ fieldValue action c.field ↔ c.value.number ≤ fieldNumber action c.field := by
      rw [UInt64.le_iff_toNat_le, fieldValue_toNat, toNat_number]
    obtain ⟨field, op, value, unordered⟩ := c
    cases op with
    | eq => exact decide_eq_true_iff.trans (fieldValue_eq action value)
    | ne => exact decide_eq_true_iff.trans (not_congr (fieldValue_eq action value))
    | lt => exact decide_eq_true_iff.trans hlt
    | le => exact decide_eq_true_iff.trans hle
    | gt => exact decide_eq_true_iff.trans hgt
    | ge => exact decide_eq_true_iff.trans hge
  | setMembership s =>
    have hpresent : ((s.first :: s.more).map (fun v => UInt64.ofNat v.number)).contains
        (fieldValue action .operation) = true ↔ ∃ v ∈ s.first :: s.more, fieldNumber action .operation = v.number := by
      rw [List.contains_iff_mem, List.mem_map]
      refine exists_congr (fun v => and_congr_right (fun _ => ?_))
      rw [eq_comm, fieldValue_eq]
    obtain ⟨op, first, more⟩ := s
    cases op with
    | isIn => exact hpresent
    | notIn =>
      simp only [compiled, evalTerm, Term.Holds, Bool.not_eq_true', ← Bool.not_eq_true, hpresent]
      exact ⟨fun h v hv heq => h ⟨v, hv, heq⟩, fun h hex => by
        obtain ⟨v, hv, heq⟩ := hex
        exact h v hv heq⟩

theorem not_blank_text {c : Conjunction} (h : Spells text c) : text.all isUnicodeWhitespace = false := by
  obtain ⟨gap, hreads, -⟩ := h
  generalize hwords : c.words = words at hreads
  cases hreads with
  | nil => cases hwords
  | @cons before w rest _ words _ _ _ =>
    obtain rfl : fieldWord c.first.field = w := (List.cons.inj hwords).1
    have hfield : (fieldWord c.first.field).all isUnicodeWhitespace = false := by
      cases c.first.field <;> decide
    rw [List.all_append, List.all_append, hfield, Bool.false_and, Bool.and_false]

theorem compile_ok_iff (predicate : String) (onMatch : ApprovalAction) (rule : CompiledApprovalRule) :
    CompiledApprovalRule.compile predicate onMatch = .ok rule ↔
      ∃ c, Spells predicate.toList c ∧ rule = ⟨predicate, (c.first :: c.more).map compiled, onMatch⟩ := by
  rw [CompiledApprovalRule.compile]
  constructor
  · intro h
    by_cases hblank : predicate.toList.all isUnicodeWhitespace = true
    · rw [if_pos hblank] at h
      cases h
    · rw [if_neg hblank] at h
      obtain ⟨terms, hterms, h⟩ := bind_eq_ok.mp h
      obtain ⟨c, hc⟩ := parseConjunction_sound hterms
      cases (parseConjunction_complete hc).symm.trans hterms
      cases h
      exact ⟨c, hc, rfl⟩
  · intro h
    obtain ⟨c, hc, rfl⟩ := h
    rw [if_neg (by rw [not_blank_text hc]; exact Bool.false_ne_true)]
    exact bind_eq_ok.mpr ⟨_, parseConjunction_complete hc, rfl⟩

/-- The compiler accepts exactly the sentences, its rules match exactly the actions that the sentence
holds of, the lexer slices its text at character boundaries only, and the two loops end within as many
rounds as bytes are left. -/
theorem compile_decides (predicate : String) (onMatch : ApprovalAction) :
    ((∃ rule, CompiledApprovalRule.compile predicate onMatch = .ok rule) ↔ ∃ c, Spells predicate.toList c) ∧
    (∀ rule c, CompiledApprovalRule.compile predicate onMatch = .ok rule → Spells predicate.toList c →
      ∀ action, rule.matches action = true ↔ c.Holds action) ∧
    ∀ lex, Lexed predicate.toList lex →
      (∀ start stop, slice lex = some (start, stop) →
        start ≤ stop ∧ CharBoundary predicate.toList start ∧ CharBoundary predicate.toList stop) ∧
      (∀ field set fuel, lex.rest.length < fuel →
        parseSetValues field fuel set lex = parseSetValues field (lex.rest.length + 1) set lex) ∧
      ∀ terms fuel, lex.rest.length < fuel →
        parseMoreTerms fuel terms lex = parseMoreTerms (lex.rest.length + 1) terms lex := by
  refine ⟨?_, ?_, ?_⟩
  · constructor
    · intro h
      obtain ⟨rule, hrule⟩ := h
      obtain ⟨c, hc, -⟩ := (compile_ok_iff predicate onMatch rule).mp hrule
      exact ⟨c, hc⟩
    · intro h
      obtain ⟨c, hc⟩ := h
      exact ⟨_, (compile_ok_iff predicate onMatch _).mpr ⟨c, hc, rfl⟩⟩
  · intro rule c hrule hc action
    cases hrule.symm.trans ((compile_ok_iff predicate onMatch _).mpr ⟨c, hc, rfl⟩)
    rw [CompiledApprovalRule.matches, List.all_eq_true, List.forall_mem_map]
    exact forall_congr' (fun t => imp_congr_right (fun _ => evalTerm_compiled t action))
  · intro lex hlex
    obtain ⟨before, after, -, heq⟩ := hlex.at_boundary
    have hrest : lex.rest = bytesOf after := by rw [heq]
    exact ⟨fun start stop hslice => slice_boundaries hlex hslice,
      fun field set fuel hfuel => parseSetValues_rounds fuel _ field set hrest hfuel (Nat.lt_succ_self _),
      fun terms fuel hfuel => parseMoreTerms_rounds fuel _ terms hrest hfuel (Nat.lt_succ_self _)⟩

theorem compile_decides_set : ∃ rule c, CompiledApprovalRule.compile "operation NOT IN[read,3]" .deny = .ok rule ∧
    Spells "operation NOT IN[read,3]".toList c ∧ ∀ action, rule.matches action = true ↔ c.Holds action := by
  have hrule : CompiledApprovalRule.compile "operation NOT IN[read,3]" .deny =
      .ok ⟨"operation NOT IN[read,3]", [.setMember .operation .notIn [0, 3]], .deny⟩ := by decide
  obtain ⟨c, hc⟩ := (compile_decides "operation NOT IN[read,3]" .deny).1.mp ⟨_, hrule⟩
  exact ⟨_, c, hrule, hc, (compile_decides "operation NOT IN[read,3]" .deny).2.1 _ c hrule hc⟩

end AgentPassport.ApprovalSentences
