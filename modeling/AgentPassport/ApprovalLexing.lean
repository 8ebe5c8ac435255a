import AgentPassport.ApprovalGrammar

/-! The lexer of approval rules reads the longest word at each place. -/
namespace AgentPassport.ApprovalLexing
open ApprovalRules ApprovalGrammar LongestMatch

inductive IsToken : List Char → Token → Prop
  | number {w : List Char} (h : isNumber w = true) (hlt : decimal w < 2 ^ 64) :
      IsToken w (.number (UInt64.ofNat (decimal w)))
  | identifier {w : List Char} (h : isIdentifier w = true) : IsToken w (keywordToken (String.ofList w))
  | compare (op : CompareOp) : IsToken (compareWord op) (.op (String.ofList (compareWord op)))
  | lBracket : IsToken ['['] .lBracket
  | rBracket : IsToken [']'] .rBracket
  | comma : IsToken [','] .comma

theorem skipWs_text (pos : Nat) {gap post : List Char} (hgap : ∀ c ∈ gap, blank c = true)
    (hstop : ∀ c ∈ post.head?, blank c = false) :
    (⟨pos, bytesOf (gap ++ post)⟩ : Lexer).skipWs = ⟨pos + gap.length, bytesOf post⟩ := by
  rw [Lexer.skipWs, blank_class.takeWhile, takeWhile_append_of_stop hgap hstop, Lexer.advance,
    bytesOf_append, List.drop_left, blank_class.length hgap]

theorem skipWs_stop (pos : Nat) (post : List Char) (hstop : ∀ c ∈ post.head?, blank c = false) :
    (⟨pos, bytesOf post⟩ : Lexer).skipWs = ⟨pos, bytesOf post⟩ :=
  skipWs_text pos (List.forall_mem_nil _) hstop

theorem next_gap (pos : Nat) {gap post : List Char} (hgap : ∀ c ∈ gap, blank c = true)
    (hstop : ∀ c ∈ post.head?, blank c = false) :
    (⟨pos, bytesOf (gap ++ post)⟩ : Lexer).next = (⟨pos + gap.length, bytesOf post⟩ : Lexer).next := by
  rw [Lexer.next, Lexer.next, skipWs_text pos hgap hstop, skipWs_stop _ _ hstop]

theorem next_eof (pos : Nat) : (⟨pos, bytesOf []⟩ : Lexer).next = .ok ((pos, .eof), ⟨pos, bytesOf []⟩) := rfl

theorem head_equals (rest : List Char) : (bytesOf rest)[0]? = some 0x3D ↔ rest.head? = some '=' := by
  cases rest with
  | nil => exact iff_of_false nofun nofun
  | cons d rest =>
    by_cases hd : d.toNat < 0x80
    · rw [bytesOf_cons_low hd, List.getElem?_cons_zero, List.head?_cons, Option.some_inj, Option.some_inj,
        ← UInt8.toNat_inj, byteOf_toNat hd, ← Char.toNat_inj]
      rfl
    · obtain ⟨b, bs, heq, hb⟩ := bytesOf_cons_high (Nat.not_lt.mp hd) rest
      rw [heq, List.getElem?_cons_zero, List.head?_cons, Option.some_inj, Option.some_inj]
      refine iff_of_false ?_ ?_
      · intro hbyte
        rw [hbyte] at hb
        exact absurd hb (by decide)
      · intro hchar
        rw [hchar] at hd
        exact hd (by decide)

variable {c : Char}

theorem digit_not_letter (hc : digit c = true) : letter c = false := by
  rw [digit, char_between] at hc
  simp only [letter, char_between, char_eq, between, Bool.and_eq_true, decide_eq_true_eq] at hc ⊢
  simp only [Bool.or_eq_false_iff, Bool.and_eq_false_iff, decide_eq_false_iff_not]
  have hnine : '9'.toNat = 57 := rfl
  have hA : 'A'.toNat = 65 := rfl
  have ha : 'a'.toNat = 97 := rfl
  have hscore : '_'.toNat = 95 := rfl
  omega

variable {v : List Char}

theorem digit_word (hc : digit c = true) (h : IsWord (c :: v)) : ∀ y ∈ v, digit y = true := by
  generalize hw : c :: v = w at h
  cases h with
  | number h =>
    subst hw
    exact (List.forall_mem_cons.mp (List.all_eq_true.mp (Bool.and_eq_true_iff.mp h).2)).2
  | identifier h =>
    subst hw
    rw [isIdentifier, digit_not_letter hc] at h
    cases h
  | compare op =>
    cases op <;> (cases hw; cases hc)
  | lBracket => cases hw; cases hc
  | rBracket => cases hw; cases hc
  | comma => cases hw; cases hc

theorem letter_word (hc : letter c = true) (h : IsWord (c :: v)) : ∀ y ∈ v, wordPart y = true := by
  generalize hw : c :: v = w at h
  cases h with
  | number h =>
    subst hw
    have hdigit := (List.forall_mem_cons.mp (List.all_eq_true.mp (Bool.and_eq_true_iff.mp h).2)).1
    rw [digit_not_letter hdigit] at hc
    cases hc
  | identifier h =>
    subst hw
    exact List.all_eq_true.mp (Bool.and_eq_true_iff.mp h).2
  | compare op =>
    cases op <;> (cases hw; cases hc)
  | lBracket => cases hw; cases hc
  | rBracket => cases hw; cases hc
  | comma => cases hw; cases hc

theorem symbol_word (hdigit : digit c = false) (hletter : letter c = false) (h : IsWord (c :: v)) :
    v = [] ∨ v = ['='] ∧ c ∈ ['=', '!', '<', '>'] := by
  generalize hw : c :: v = w at h
  cases h with
  | number h =>
    subst hw
    rw [isNumber, List.all_cons, hdigit, Bool.false_and, Bool.and_false] at h
    cases h
  | identifier h =>
    subst hw
    rw [isIdentifier, hletter] at h
    cases h
  | compare op =>
    cases op <;> cases hw
    · exact .inr ⟨rfl, by decide⟩
    · exact .inr ⟨rfl, by decide⟩
    · exact .inl rfl
    · exact .inr ⟨rfl, by decide⟩
    · exact .inl rfl
    · exact .inr ⟨rfl, by decide⟩
  | lBracket => cases hw; exact .inl rfl
  | rBracket => cases hw; exact .inl rfl
  | comma => cases hw; exact .inl rfl

theorem longest_single {rest : List Char} (hword : IsWord [c]) (hdigit : digit c = false) (hletter : letter c = false)
    (hc : c ∉ ['=', '!', '<', '>']) : Longest IsWord [c] rest := by
  refine .of_length hword ?_
  intro v hv
  obtain rfl | ⟨-, hmem⟩ := symbol_word hdigit hletter hv
  · exact le_rfl
  · exact absurd hmem hc

theorem longest_compare (op : CompareOp) {rest : List Char}
    (hstop : op = .lt ∨ op = .gt → rest.head? ≠ some '=') : Longest IsWord (compareWord op) rest := by
  have hpair : ∀ c, digit c = false → letter c = false → ∀ v, IsWord (c :: v) → v.length ≤ ['='].length := by
    intro c hdigit hletter v hv
    obtain rfl | ⟨rfl, -⟩ := symbol_word hdigit hletter hv
    · exact Nat.zero_le _
    · exact le_rfl
  have hsingle : ∀ c, digit c = false → letter c = false → ∀ v, IsWord (c :: v) → ∀ y ∈ v, y = '=' := by
    intro c hdigit hletter v hv
    obtain rfl | ⟨rfl, -⟩ := symbol_word hdigit hletter hv
    · exact List.forall_mem_nil _
    · exact List.forall_mem_singleton.mpr rfl
  cases op with
  | eq => exact .of_length (.compare .eq) (hpair '=' rfl rfl)
  | ne => exact .of_length (.compare .ne) (hpair '!' rfl rfl)
  | le => exact .of_length (.compare .le) (hpair '<' rfl rfl)
  | ge => exact .of_length (.compare .ge) (hpair '>' rfl rfl)
  | lt => exact .of_kind (.compare .lt) (hsingle '<' rfl rfl) (fun y hy heq => hstop (.inl rfl) (heq ▸ hy))
  | gt => exact .of_kind (.compare .gt) (hsingle '>' rfl rfl) (fun y hy heq => hstop (.inr rfl) (heq ▸ hy))

theorem stops_number {w rest : List Char} (h : Longest IsWord w rest) (hw : isNumber w = true) :
    ∀ y ∈ rest.head?, digit y = false := by
  intro y hy
  by_contra hdigit
  obtain ⟨tail, rfl⟩ := List.head?_eq_some_iff.mp hy
  have hlonger : isNumber (w ++ [y]) = true := by
    rw [isNumber, List.all_append, (Bool.and_eq_true_iff.mp hw).2, List.all_cons, Bool.eq_true_of_not_eq_false hdigit]
    simp
  exact List.cons_ne_nil _ _ (h.not_extended (u := [y]) (List.prefix_append [y] tail) (.number hlonger))

theorem stops_identifier {w rest : List Char} (h : Longest IsWord w rest) (hw : isIdentifier w = true) :
    ∀ y ∈ rest.head?, wordPart y = false := by
  intro y hy
  by_contra hpart
  obtain ⟨tail, rfl⟩ := List.head?_eq_some_iff.mp hy
  have hlonger : isIdentifier (w ++ [y]) = true := by
    cases w with
    | nil => cases hw
    | cons c w =>
      rw [List.cons_append, isIdentifier, List.all_append, List.all_cons, Bool.eq_true_of_not_eq_false hpart]
      rw [isIdentifier] at hw
      simpa using hw
  exact List.cons_ne_nil _ _ (h.not_extended (u := [y]) (List.prefix_append [y] tail) (.identifier hlonger))

theorem stops_compare {op : CompareOp} {rest : List Char} (h : Longest IsWord (compareWord op) rest)
    (hop : op = .lt ∨ op = .gt) : rest.head? ≠ some '=' := by
  intro hy
  obtain ⟨tail, rfl⟩ := List.head?_eq_some_iff.mp hy
  have hlonger : IsWord (compareWord op ++ ['=']) := by
    obtain rfl | rfl := hop
    · exact .compare .le
    · exact .compare .ge
  exact List.cons_ne_nil _ _ (h.not_extended (u := ['=']) (List.prefix_append ['='] tail) hlonger)

section Steps
variable (pos : Nat) {rest : List Char}

theorem next_lBracket :
    (⟨pos, bytesOf ('[' :: rest)⟩ : Lexer).next = .ok ((pos, .lBracket), ⟨pos + 1, bytesOf rest⟩) := by
  have hskip := skipWs_stop pos ('[' :: rest) (fun c hc => Option.some.inj hc ▸ rfl)
  rw [bytesOf_cons_low (by decide)] at hskip ⊢
  rw [Lexer.next, hskip]
  rfl

theorem next_rBracket :
    (⟨pos, bytesOf (']' :: rest)⟩ : Lexer).next = .ok ((pos, .rBracket), ⟨pos + 1, bytesOf rest⟩) := by
  have hskip := skipWs_stop pos (']' :: rest) (fun c hc => Option.some.inj hc ▸ rfl)
  rw [bytesOf_cons_low (by decide)] at hskip ⊢
  rw [Lexer.next, hskip]
  rfl

theorem next_comma :
    (⟨pos, bytesOf (',' :: rest)⟩ : Lexer).next = .ok ((pos, .comma), ⟨pos + 1, bytesOf rest⟩) := by
  have hskip := skipWs_stop pos (',' :: rest) (fun c hc => Option.some.inj hc ▸ rfl)
  rw [bytesOf_cons_low (by decide)] at hskip ⊢
  rw [Lexer.next, hskip]
  rfl

theorem next_symbol (hc : c ∈ ['=', '!', '<', '>']) : (⟨pos, bytesOf (c :: rest)⟩ : Lexer).next =
      if rest.head? = some '=' then .ok ((pos, .op (String.ofList [c, '='])), ⟨pos + 2, (bytesOf rest).drop 1⟩)
      else if c = '=' then .error (.syntaxError pos "expected '==' (single '=' is not an operator)")
      else if c = '!' then .error (.syntaxError pos "expected '!=' (bare '!' is not an operator)")
      else .ok ((pos, .op (String.ofList [c])), ⟨pos + 1, bytesOf rest⟩) := by
  have hskip := skipWs_stop pos (c :: rest)
  simp only [List.mem_cons, List.not_mem_nil, or_false] at hc
  obtain rfl | rfl | rfl | rfl := hc
  all_goals
    have hskip := hskip (fun c hc => Option.some.inj hc ▸ rfl)
    rw [bytesOf_cons_low (by decide)] at hskip ⊢
    rw [Lexer.next, hskip]
    simp only [List.getElem?_cons_succ, head_equals]
    rfl

theorem next_pair (hc : c ∈ ['=', '!', '<', '>']) : (⟨pos, bytesOf (c :: '=' :: rest)⟩ : Lexer).next =
      .ok ((pos, .op (String.ofList [c, '='])), ⟨pos + 2, bytesOf rest⟩) := by
  rw [next_symbol pos hc, List.head?_cons, if_pos rfl, bytesOf_cons_low (by decide), List.drop_one, List.tail_cons]

theorem ne_symbols {P : UInt8 → Bool} {b : UInt8} (hb : P b = true) {a : UInt8} (ha : P a = false) : b ≠ a := by
  intro heq
  rw [heq, ha] at hb
  cases hb

theorem digit_not_blank (hc : digit c = true) : blank c = false := by
  have hbetween : between 0x30 0x39 c.toNat = true := (char_between '0' '9' c).symm.trans hc
  simp only [between, Bool.and_eq_true, decide_eq_true_eq] at hbetween
  simp only [blank, char_eq, Bool.or_eq_false_iff, decide_eq_false_iff_not]
  have hspace : ' '.toNat = 32 := rfl
  have htab : '\t'.toNat = 9 := rfl
  have hline : '\n'.toNat = 10 := rfl
  have hfeed : '\x0c'.toNat = 12 := rfl
  have hreturn : '\r'.toNat = 13 := rfl
  omega

theorem letter_not_blank (hc : letter c = true) : blank c = false := by
  simp only [letter, char_between, char_eq, between, Bool.or_eq_true, Bool.and_eq_true, decide_eq_true_eq] at hc
  simp only [blank, char_eq, Bool.or_eq_false_iff, decide_eq_false_iff_not]
  have hA : 'A'.toNat = 65 := rfl
  have ha : 'a'.toNat = 97 := rfl
  have hscore : '_'.toNat = 95 := rfl
  have hspace : ' '.toNat = 32 := rfl
  have htab : '\t'.toNat = 9 := rfl
  have hline : '\n'.toNat = 10 := rfl
  have hfeed : '\x0c'.toNat = 12 := rfl
  have hreturn : '\r'.toNat = 13 := rfl
  omega

variable {w : List Char}

theorem digitsValue_bytesOf (hw : ∀ y ∈ w, digit y = true) : digitsValue (bytesOf w) = decimal w := by
  have hfold : ∀ n, (bytesOf w).foldl (fun n b => 10 * n + (b.toNat - 0x30)) n =
      w.foldl (fun n c => 10 * n + (c.toNat - 0x30)) n := by
    induction w with
    | nil => exact fun n => rfl
    | cons c w ih =>
      intro n
      obtain ⟨hc, hrest⟩ := List.forall_mem_cons.mp hw
      have hlow := digit_class.isLow hc
      rw [bytesOf_cons_low hlow, List.foldl_cons, List.foldl_cons, byteOf_toNat hlow, ih hrest]
  exact hfold 0

theorem next_number (hw : ∀ y ∈ c :: w, digit y = true) (hstop : ∀ y ∈ rest.head?, digit y = false) :
    (⟨pos, bytesOf ((c :: w) ++ rest)⟩ : Lexer).next =
      if decimal (c :: w) < 2 ^ 64 then
        .ok ((pos, .number (UInt64.ofNat (decimal (c :: w)))), ⟨pos + (c :: w).length, bytesOf rest⟩)
      else .error (.syntaxError pos "number overflow") := by
  have hc : digit c = true := hw c List.mem_cons_self
  have hskip := skipWs_stop pos ((c :: w) ++ rest) (fun y hy => Option.some.inj hy ▸ digit_not_blank hc)
  have htake : (bytesOf ((c :: w) ++ rest)).takeWhile isAsciiDigit = bytesOf (c :: w) := by
    rw [digit_class.takeWhile, takeWhile_append_of_stop hw hstop]
  have hdrop : (bytesOf ((c :: w) ++ rest)).drop (c :: w).length = bytesOf rest := by
    rw [← digit_class.length hw, bytesOf_append, List.drop_left]
  have hbyte : isAsciiDigit (byteOf c) = true := (digit_class.low c (digit_class.isLow hc)).trans hc
  have hbytes : bytesOf ((c :: w) ++ rest) = byteOf c :: bytesOf (w ++ rest) := bytesOf_cons_low (digit_class.isLow hc) _
  rw [Lexer.next, hskip]
  simp only [htake, Lexer.advance, digitsValue_bytesOf hw, digit_class.length hw, hdrop]
  rw [hbytes]
  simp only [if_neg (ne_symbols hbyte (a := 0x5B) rfl), if_neg (ne_symbols hbyte (a := 0x5D) rfl),
    if_neg (ne_symbols hbyte (a := 0x2C) rfl), if_neg (ne_symbols hbyte (a := 0x3D) rfl),
    if_neg (ne_symbols hbyte (a := 0x21) rfl), if_neg (ne_symbols hbyte (a := 0x3C) rfl),
    if_neg (ne_symbols hbyte (a := 0x3E) rfl), hbyte, if_pos]

theorem asciiText_bytesOf (hw : ∀ y ∈ w, wordPart y = true) : asciiText (bytesOf w) = String.ofList w := by
  have hmap : (bytesOf w).map (fun b => Char.ofNat b.toNat) = w := by
    induction w with
    | nil => rfl
    | cons c w ih =>
      obtain ⟨hc, hrest⟩ := List.forall_mem_cons.mp hw
      have hlow := wordPart_class.isLow hc
      rw [bytesOf_cons_low hlow, List.map_cons, ih hrest, byteOf_toNat hlow, Char.ofNat_toNat]
  rw [asciiText, hmap]

theorem next_identifier (hc : letter c = true) (hw : ∀ y ∈ w, wordPart y = true)
    (hstop : ∀ y ∈ rest.head?, wordPart y = false) : (⟨pos, bytesOf ((c :: w) ++ rest)⟩ : Lexer).next =
      .ok ((pos, keywordToken (String.ofList (c :: w))), ⟨pos + (c :: w).length, bytesOf rest⟩) := by
  have hall : ∀ y ∈ c :: w, wordPart y = true :=
    List.forall_mem_cons.mpr ⟨by rw [wordPart, hc, Bool.true_or], hw⟩
  have hlow := letter_class.isLow hc
  have hskip := skipWs_stop pos ((c :: w) ++ rest) (fun y hy => Option.some.inj hy ▸ letter_not_blank hc)
  have htake : (bytesOf ((c :: w) ++ rest)).takeWhile isIdentPart = bytesOf (c :: w) := by
    rw [wordPart_class.takeWhile, takeWhile_append_of_stop hall hstop]
  have hdrop : (bytesOf ((c :: w) ++ rest)).drop (c :: w).length = bytesOf rest := by
    rw [← wordPart_class.length hall, bytesOf_append, List.drop_left]
  have hbyte : isIdentStart (byteOf c) = true := (letter_class.low c hlow).trans hc
  have hdigit : isAsciiDigit (byteOf c) = false := by
    rw [digit_class.low c hlow]
    cases hd : digit c with
    | false => rfl
    | true => exact absurd (digit_not_letter hd) (by simp [hc])
  have hbytes : bytesOf ((c :: w) ++ rest) = byteOf c :: bytesOf (w ++ rest) := bytesOf_cons_low hlow _
  rw [Lexer.next, hskip]
  simp only [htake, Lexer.advance, asciiText_bytesOf hall, wordPart_class.length hall, hdrop]
  rw [hbytes]
  simp only [if_neg (ne_symbols hbyte (a := 0x5B) rfl), if_neg (ne_symbols hbyte (a := 0x5D) rfl),
    if_neg (ne_symbols hbyte (a := 0x2C) rfl), if_neg (ne_symbols hbyte (a := 0x3D) rfl),
    if_neg (ne_symbols hbyte (a := 0x21) rfl), if_neg (ne_symbols hbyte (a := 0x3C) rfl),
    if_neg (ne_symbols hbyte (a := 0x3E) rfl), hdigit, hbyte, if_pos, Bool.false_eq_true, if_false]

theorem next_other (hblank : blank c = false) (hdigit : digit c = false) (hletter : letter c = false)
    (hc : c ∉ ['[', ']', ',', '=', '!', '<', '>']) : ∃ b, (⟨pos, bytesOf (c :: rest)⟩ : Lexer).next =
      .error (.syntaxError pos ("unexpected character " ++ charDebug b)) := by
  have hskip := skipWs_stop pos (c :: rest) (fun y hy => Option.some.inj hy ▸ hblank)
  have hbytes : ∃ b bs, bytesOf (c :: rest) = b :: bs ∧ isAsciiDigit b = false ∧ isIdentStart b = false ∧
      ∀ a ∈ ['[', ']', ',', '=', '!', '<', '>'], b ≠ byteOf a := by
    by_cases hlow : c.toNat < 0x80
    · refine ⟨_, _, bytesOf_cons_low hlow rest, (digit_class.low c hlow).trans hdigit,
        (letter_class.low c hlow).trans hletter, ?_⟩
      intro a ha heq
      have hnat := congrArg UInt8.toNat heq
      have halow : a.toNat < 0x80 := by
        simp only [List.mem_cons, List.not_mem_nil, or_false] at ha
        obtain rfl | rfl | rfl | rfl | rfl | rfl | rfl := ha <;> decide
      rw [byteOf_toNat hlow, byteOf_toNat halow, Char.toNat_inj] at hnat
      exact hc (hnat ▸ ha)
    · obtain ⟨b, bs, heq, hb⟩ := bytesOf_cons_high (Nat.not_lt.mp hlow) rest
      refine ⟨b, bs, heq, digit_class.byte b hb, letter_class.byte b hb, ?_⟩
      intro a ha hba
      rw [hba] at hb
      simp only [List.mem_cons, List.not_mem_nil, or_false] at ha
      obtain rfl | rfl | rfl | rfl | rfl | rfl | rfl := ha <;> exact absurd hb (by decide)
  obtain ⟨b, bs, heq, hbdigit, hbletter, hne⟩ := hbytes
  refine ⟨b, ?_⟩
  have hsymbol : ∀ a, a ∈ ['[', ']', ',', '=', '!', '<', '>'] → ∀ n, byteOf a = n → b ≠ n :=
    fun a ha n hn => hn ▸ hne a ha
  rw [Lexer.next, hskip, heq]
  simp only [if_neg (hsymbol '[' (by decide) 0x5B rfl), if_neg (hsymbol ']' (by decide) 0x5D rfl),
    if_neg (hsymbol ',' (by decide) 0x2C rfl), if_neg (hsymbol '=' (by decide) 0x3D rfl),
    if_neg (hsymbol '!' (by decide) 0x21 rfl), if_neg (hsymbol '<' (by decide) 0x3C rfl),
    if_neg (hsymbol '>' (by decide) 0x3E rfl), hbdigit, hbletter, Bool.false_eq_true, if_false]

end Steps

theorem IsToken.isWord {w : List Char} {t : Token} (h : IsToken w t) : IsWord w := by
  cases h with
  | number h _ => exact .number h
  | identifier h => exact .identifier h
  | compare op => exact .compare op
  | lBracket => exact .lBracket
  | rBracket => exact .rBracket
  | comma => exact .comma

theorem word_not_blank {w : List Char} (h : IsWord w) : ∃ c v, w = c :: v ∧ blank c = false := by
  cases h with
  | @number w h =>
    cases w with
    | nil => cases h
    | cons c v =>
      exact ⟨c, v, rfl, digit_not_blank (List.all_eq_true.mp (Bool.and_eq_true_iff.mp h).2 c List.mem_cons_self)⟩
  | @identifier w h =>
    cases w with
    | nil => cases h
    | cons c v => exact ⟨c, v, rfl, letter_not_blank (Bool.and_eq_true_iff.mp h).1⟩
  | compare op => cases op <;> exact ⟨_, _, rfl, rfl⟩
  | lBracket => exact ⟨_, _, rfl, rfl⟩
  | rBracket => exact ⟨_, _, rfl, rfl⟩
  | comma => exact ⟨_, _, rfl, rfl⟩

theorem next_compare (pos : Nat) {op : CompareOp} {rest : List Char} (h : Longest IsWord (compareWord op) rest) :
    (⟨pos, bytesOf (compareWord op ++ rest)⟩ : Lexer).next =
      .ok ((pos, .op (String.ofList (compareWord op))), ⟨pos + (compareWord op).length, bytesOf rest⟩) := by
  cases op with
  | eq => exact next_pair pos (by decide)
  | ne => exact next_pair pos (by decide)
  | le => exact next_pair pos (by decide)
  | ge => exact next_pair pos (by decide)
  | lt => exact (next_symbol pos (by decide)).trans (if_neg (stops_compare h (.inl rfl)))
  | gt => exact (next_symbol pos (by decide)).trans (if_neg (stops_compare h (.inr rfl)))

theorem next_word (pos : Nat) {gap w rest : List Char} {t : Token} (hgap : ∀ c ∈ gap, blank c = true)
    (hlongest : Longest IsWord w rest) (htoken : IsToken w t) :
    (⟨pos, bytesOf (gap ++ (w ++ rest))⟩ : Lexer).next =
      .ok ((pos + gap.length, t), ⟨pos + gap.length + w.length, bytesOf rest⟩) := by
  have hstop : ∀ c ∈ (w ++ rest).head?, blank c = false := by
    obtain ⟨c, v, rfl, hc⟩ := word_not_blank htoken.isWord
    exact fun y hy => Option.some.inj hy ▸ hc
  rw [next_gap pos hgap hstop]
  cases htoken with
  | number h hlt =>
    cases w with
    | nil => cases h
    | cons c w =>
      have hdigits := List.all_eq_true.mp (Bool.and_eq_true_iff.mp h).2
      rw [next_number _ hdigits (stops_number hlongest h), if_pos hlt]
  | identifier h =>
    cases w with
    | nil => cases h
    | cons c w =>
      obtain ⟨hc, hw⟩ := Bool.and_eq_true_iff.mp h
      exact next_identifier _ hc (List.all_eq_true.mp hw) (fun y hy => stops_identifier hlongest h y hy)
  | compare op => exact next_compare _ hlongest
  | lBracket => exact next_lBracket _
  | rBracket => exact next_rBracket _
  | comma => exact next_comma _

theorem first_word (pos : Nat) {cs : List Char} {r : (Nat × Token) × Lexer} (hblank : blank c = false)
    (h : (⟨pos, bytesOf (c :: cs)⟩ : Lexer).next = .ok r) :
    ∃ w rest t, c :: cs = w ++ rest ∧ Longest IsWord w rest ∧ IsToken w t := by
  have hspan : ∀ p : Char → Bool, c :: cs = (c :: cs.takeWhile p) ++ cs.dropWhile p := by
    intro p
    rw [List.cons_append, List.takeWhile_append_dropWhile]
  by_cases hdigit : digit c = true
  · have hall : ∀ y ∈ c :: cs.takeWhile digit, digit y = true :=
      List.forall_mem_cons.mpr ⟨hdigit, fun y hy => List.mem_takeWhile_imp hy⟩
    have hnumber : isNumber (c :: cs.takeWhile digit) = true := List.all_eq_true.mpr hall
    refine ⟨_, _, .number (UInt64.ofNat (decimal (c :: cs.takeWhile digit))), hspan digit, ?_, ?_⟩
    · refine .of_kind (.number hnumber) (fun v hv => digit_word hdigit hv) ?_
      exact fun y hy hdigit => absurd hdigit (by rw [stops_dropWhile digit cs y hy]; exact Bool.false_ne_true)
    · refine .number hnumber ?_
      by_contra hlarge
      rw [hspan digit, next_number pos hall (stops_dropWhile digit cs), if_neg hlarge] at h
      cases h
  by_cases hletter : letter c = true
  · have hall : ∀ y ∈ cs.takeWhile wordPart, wordPart y = true := fun y hy => List.mem_takeWhile_imp hy
    have hident : isIdentifier (c :: cs.takeWhile wordPart) = true :=
      Bool.and_eq_true_iff.mpr ⟨hletter, List.all_eq_true.mpr hall⟩
    refine ⟨_, _, _, hspan wordPart, ?_, .identifier hident⟩
    refine .of_kind (.identifier hident) (fun v hv => letter_word hletter hv) ?_
    exact fun y hy hpart => absurd hpart (by rw [stops_dropWhile wordPart cs y hy]; exact Bool.false_ne_true)
  have hd := Bool.eq_false_of_not_eq_true hdigit
  have hl := Bool.eq_false_of_not_eq_true hletter
  by_cases hpair : c ∈ ['=', '!', '<', '>']
  · by_cases hnext : cs.head? = some '='
    · -- the character and the `=` behind it
      obtain ⟨rest, rfl⟩ := List.head?_eq_some_iff.mp hnext
      have hop : ∃ op, compareWord op = [c, '='] := by
        simp only [List.mem_cons, List.not_mem_nil, or_false] at hpair
        obtain rfl | rfl | rfl | rfl := hpair
        · exact ⟨.eq, rfl⟩
        · exact ⟨.ne, rfl⟩
        · exact ⟨.le, rfl⟩
        · exact ⟨.ge, rfl⟩
      obtain ⟨op, hop⟩ := hop
      refine ⟨compareWord op, rest, _, by rw [hop]; rfl, longest_compare op ?_, .compare op⟩
      intro hshort
      obtain rfl | rfl := hshort <;> cases hop
    · have hop : ∃ op, compareWord op = [c] := by
        rw [next_symbol pos hpair, if_neg hnext] at h
        simp only [List.mem_cons, List.not_mem_nil, or_false] at hpair
        obtain rfl | rfl | rfl | rfl := hpair
        · cases h
        · cases h
        · exact ⟨.lt, rfl⟩
        · exact ⟨.gt, rfl⟩
      obtain ⟨op, hop⟩ := hop
      exact ⟨compareWord op, cs, _, by rw [hop]; rfl, longest_compare op (fun _ => hnext), .compare op⟩
  by_cases hsingle : c ∈ ['[', ']', ',']
  · simp only [List.mem_cons, List.not_mem_nil, or_false] at hsingle
    obtain rfl | rfl | rfl := hsingle
    · exact ⟨['['], cs, _, rfl, longest_single .lBracket hd hl hpair, .lBracket⟩
    · exact ⟨[']'], cs, _, rfl, longest_single .rBracket hd hl hpair, .rBracket⟩
    · exact ⟨[','], cs, _, rfl, longest_single .comma hd hl hpair, .comma⟩
  have hother : c ∉ ['[', ']', ',', '=', '!', '<', '>'] := by
    intro hmem
    obtain hmem | hmem := List.mem_append.mp (show c ∈ ['[', ']', ','] ++ ['=', '!', '<', '>'] from hmem)
    · exact hsingle hmem
    · exact hpair hmem
  obtain ⟨b, herror⟩ : ∃ b, (⟨pos, bytesOf (c :: cs)⟩ : Lexer).next =
      .error (.syntaxError pos ("unexpected character " ++ charDebug b)) :=
    next_other pos hblank hd hl hother
  rw [herror] at h
  cases h

theorem next_cases (pos : Nat) {text : List Char} {r : (Nat × Token) × Lexer}
    (h : (⟨pos, bytesOf text⟩ : Lexer).next = .ok r) :
    ((∀ c ∈ text, blank c = true) ∧ r = ((pos + text.length, .eof), ⟨pos + text.length, bytesOf []⟩)) ∨
    ∃ gap w rest t, text = gap ++ (w ++ rest) ∧ (∀ c ∈ gap, blank c = true) ∧ Longest IsWord w rest ∧ IsToken w t ∧
      r = ((pos + gap.length, t), ⟨pos + gap.length + w.length, bytesOf rest⟩) := by
  have hgap : ∀ c ∈ text.takeWhile blank, blank c = true := fun c hc => List.mem_takeWhile_imp hc
  have htext : text.takeWhile blank ++ text.dropWhile blank = text := List.takeWhile_append_dropWhile
  have hstop := stops_dropWhile blank text
  cases hpost : text.dropWhile blank with
  | nil =>
    rw [hpost, List.append_nil] at htext
    rw [htext] at hgap
    rw [← List.append_nil text, next_gap pos hgap (by intro c hc; cases hc), next_eof] at h
    exact .inl ⟨hgap, (Except.ok.inj h).symm⟩
  | cons c cs =>
    rw [hpost] at htext hstop
    have hskip : (⟨pos + (text.takeWhile blank).length, bytesOf (c :: cs)⟩ : Lexer).next = .ok r := by
      rw [← next_gap pos hgap hstop, htext, h]
    obtain ⟨w, rest, t, heq, hlongest, htoken⟩ := first_word _ (hstop c rfl) hskip
    rw [heq] at htext
    refine .inr ⟨text.takeWhile blank, w, rest, t, htext.symm, hgap, hlongest, htoken, ?_⟩
    have hword := next_word pos hgap hlongest htoken
    rw [htext, h] at hword
    exact Except.ok.inj hword

end AgentPassport.ApprovalLexing
