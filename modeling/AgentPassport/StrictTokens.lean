import AgentPassport.Outcome
import AgentPassport.StrictParser

/-! The tokens of the strict reader against the grammar: white space, strings and numbers. -/
namespace AgentPassport.StrictTokens
open JsText Js JsonString SeparatedText JsonGrammar StrictParser Outcome

variable {c : UInt16}

theorem isWs_cases (h : isWs c = true) : c = 0x20 ∨ c = 0x09 ∨ c = 0x0D ∨ c = 0x0A := by
  simp only [isWs, Bool.or_eq_true, decide_eq_true_eq] at h
  tauto

def Solid (c : UInt16) : Prop := isWs c = false

instance (c : UInt16) : Decidable (Solid c) := inferInstanceAs (Decidable (_ = _))

theorem solid_quote : Solid 0x22 := by decide
theorem solid_colon : Solid 0x3A := by decide
theorem solid_comma : Solid 0x2C := by decide
theorem solid_bracket : Solid 0x5B ∧ Solid 0x5D := by decide
theorem solid_brace : Solid 0x7B ∧ Solid 0x7D := by decide

theorem skipWhitespace_append {w rest : Str} (hw : Ws w) (hrest : Ends Solid rest) :
    skipWhitespace (w ++ rest) = rest := by
  induction w with
  | nil =>
    cases rest with
    | nil => rfl
    | cons c rest =>
      have hc : isWs c = false := hrest c rest rfl
      simp [skipWhitespace, hc]
  | cons c w ih =>
    have hc := hw c List.mem_cons_self
    have htail := ih (fun d hd => hw d (List.mem_cons_of_mem c hd))
    rw [List.cons_append, skipWhitespace, List.dropWhile_cons_of_pos hc]
    exact htail

theorem skipWhitespace_ws {w : Str} (hw : Ws w) : skipWhitespace w = [] := by
  rw [← List.append_nil w, skipWhitespace_append hw (ends_nil _)]

theorem skipWhitespace_split (s : Str) : ∃ w, Ws w ∧ s = w ++ skipWhitespace s :=
  ⟨s.takeWhile isWs, fun _ hc => List.mem_takeWhile_imp hc, (List.takeWhile_append_dropWhile).symm⟩

theorem hexDigit_plain {n : Nat} (h : hexDigit c = some n) : 0x20 ≤ c ∧ c ≠ 0x22 ∧ c ≠ 0x5C := by
  have hge : 0x30 ≤ c ∧ c ≠ 0x5C := by
    unfold hexDigit isDigit at h
    split at h
    · rename_i hd
      simp only [Bool.and_eq_true, decide_eq_true_eq] at hd
      exact ⟨hd.1, by rintro rfl; exact absurd hd.2 (by decide)⟩
    split at h
    · rename_i hd
      simp only [Bool.and_eq_true, decide_eq_true_eq] at hd
      exact ⟨UInt16.le_trans (by decide) hd.1, by rintro rfl; exact absurd hd.1 (by decide)⟩
    split at h
    · rename_i hd
      simp only [Bool.and_eq_true, decide_eq_true_eq] at hd
      exact ⟨UInt16.le_trans (by decide) hd.1, by rintro rfl; exact absurd hd.2 (by decide)⟩
    · cases h
  refine ⟨UInt16.le_trans (by decide) hge.1, ?_, hge.2⟩
  rintro rfl
  exact absurd hge.1 (by decide)

theorem hex4_plain {a b c d u : UInt16} (h : hex4 a b c d = some u) :
    ∀ k ∈ [a, b, c, d], 0x20 ≤ k ∧ k ≠ 0x22 ∧ k ≠ 0x5C := by
  simp only [hex4, Option.bind_eq_bind, Option.bind_eq_some_iff] at h
  obtain ⟨na, ha, nb, hb, nc, hc, nd, hd, -⟩ := h
  intro k hk
  obtain rfl | rfl | rfl | rfl : k = a ∨ k = b ∨ k = c ∨ k = d := by simpa using hk
  · exact hexDigit_plain ha
  · exact hexDigit_plain hb
  · exact hexDigit_plain hc
  · exact hexDigit_plain hd

theorem scanString_plain (hc : 0x20 ≤ c ∧ c ≠ 0x22 ∧ c ≠ 0x5C) (rest : Str) : scanString false (c :: rest) = (do
      let (token, rest) ← scanString false rest
      return (c :: token, rest)) := by
  obtain ⟨hlo, hquote, hback⟩ := hc
  have hlt : ¬ c < 0x20 := UInt16.not_lt.mpr hlo
  rw [scanString]
  simp [hquote, hback, hlt]

theorem scanString_escaped (c : UInt16) (rest : Str) :
    scanString true (c :: rest) = (do
      let (token, rest) ← scanString false rest
      return (c :: token, rest)) := by
  rw [scanString]
  simp

theorem scanString_backslash (rest : Str) :
    scanString false (0x5C :: rest) = (do
      let (token, rest) ← scanString true rest
      return (0x5C :: token, rest)) := by
  rw [scanString]
  simp

theorem scanString_chars {body s : Str} (h : CharsText body s) (rest : Str) :
    scanString false (body ++ 0x22 :: rest) = .ok (body ++ [0x22], rest) := by
  induction h with
  | nil => rfl
  | @cons x xs cs c hx _ ih =>
    cases hx with
    | plain _ hlo hquote hback =>
      rw [List.append_assoc, List.cons_append, scanString_plain ⟨hlo, hquote, hback⟩,
        List.nil_append, ih]
      rfl
    | escape e _ _ =>
      rw [List.append_assoc, List.cons_append, List.cons_append, List.nil_append,
        scanString_backslash, scanString_escaped, ih]
      rfl
    | unicode a b d e _ he =>
      have hplain := hex4_plain he
      rw [List.append_assoc]
      simp only [List.cons_append, List.nil_append]
      rw [scanString_backslash, scanString_escaped, scanString_plain (hplain a (by simp)),
        scanString_plain (hplain b (by simp)), scanString_plain (hplain d (by simp)),
        scanString_plain (hplain e (by simp)), ih]
      rfl

theorem scanString_sound {escaped : Bool} {x token rest : Str}
    (h : scanString escaped x = .ok (token, rest)) : x = token ++ rest := by
  induction x generalizing escaped token with
  | nil => cases h
  | cons c x ih =>
    rw [scanString] at h
    split at h
    · cases h
      rfl
    split at h
    · cases h
    · cases hscan : scanString (!escaped && decide (c = 0x5C)) x with
      | error e =>
        rw [hscan] at h
        cases h
      | ok p =>
        rw [hscan] at h
        cases h
        rw [List.cons_append, ← ih hscan]

theorem assertString_decides (s path : Str) :
    Decides (assertIJson path (.str s)) (WellFormed s) () := by
  rw [assertIJson, assertUnicodeScalarString]
  cases hs : loneSurrogate s with
  | some which => exact (Decides.fail _ _).of_iff (by simp [WellFormed, hs])
  | none => exact (Decides.pure _).of_iff (by simp [WellFormed, hs])

theorem parseString_decides {body s : Str} (h : CharsText body s) (rest : Str) :
    Decides (parseString (body ++ 0x22 :: rest)) (WellFormed s) (s, rest) := by
  have htoken : jsonParseString (0x22 :: (body ++ [0x22])) = some s :=
    (jsonParseString_iff _ _).mpr ⟨body, rfl, h⟩
  have hread : parseString (body ++ 0x22 :: rest) = (do
      assertIJson (lit "$") (.str s)
      return (s, rest)) := by
    rw [parseString, scanString_chars h rest]
    simp only [bind, Except.bind, htoken]
  rw [hread]
  refine (Decides.bind (f := fun _ => .ok (s, rest)) (assertString_decides s _) ?_).of_iff
    (iff_of_eq (and_true _))
  intro _
  exact Decides.pure _

theorem parseString_sound {x s rest : Str} (h : parseString x = .ok (s, rest)) :
    ∃ token, x = token ++ rest ∧ StringText (0x22 :: token) s ∧ WellFormed s := by
  rw [parseString] at h
  cases hscan : scanString false x with
  | error e =>
    rw [hscan] at h
    cases h
  | ok p =>
    obtain ⟨token, rest'⟩ := p
    rw [hscan] at h
    cases hparse : jsonParseString (0x22 :: token) with
    | none =>
      simp only [bind, Except.bind, hparse] at h
      cases h
    | some decoded =>
      obtain ⟨p, hp, h⟩ := bind_eq_ok.mp h
      cases hp
      simp only [hparse] at h
      obtain ⟨_, hassert, hret⟩ := bind_eq_ok.mp h
      have hwf := ((assertString_decides decoded (lit "$")).cond_of_ok hassert).1
      cases hret
      exact ⟨token, scanString_sound hscan, (jsonParseString_iff _ _).mp hparse, hwf⟩

theorem takeWhile_digits {ds rest : Str} (hds : Digits ds) (hrest : Ends (fun c => isDigit c = false) rest) :
    (ds ++ rest).takeWhile isDigit = ds ∧ (ds ++ rest).dropWhile isDigit = rest := by
  induction ds with
  | nil =>
    cases rest with
    | nil => exact ⟨rfl, rfl⟩
    | cons c rest =>
      have hc := hrest c rest rfl
      simp [hc]
  | cons d ds ih =>
    have hd := hds d List.mem_cons_self
    obtain ⟨htake, hdrop⟩ := ih (fun c hc => hds c (List.mem_cons_of_mem d hc))
    rw [List.cons_append, List.takeWhile_cons_of_pos hd, List.dropWhile_cons_of_pos hd, htake]
    exact ⟨rfl, hdrop⟩

theorem digits_split (s : Str) :
    Digits (s.takeWhile isDigit) ∧ s = s.takeWhile isDigit ++ s.dropWhile isDigit :=
  ⟨fun _ hc => List.mem_takeWhile_imp hc, (List.takeWhile_append_dropWhile).symm⟩

def Follow (c : UInt16) : Prop := isWs c = true ∨ c = 0x2C ∨ c = 0x5D ∨ c = 0x7D

theorem follow_not_number (h : Follow c) : isDigit c = false ∧ c ≠ 0x2E ∧ c ≠ 0x65 ∧ c ≠ 0x45 := by
  have hcases : c = 0x20 ∨ c = 0x09 ∨ c = 0x0D ∨ c = 0x0A ∨ c = 0x2C ∨ c = 0x5D ∨ c = 0x7D := by
    obtain hws | h := h
    · have := isWs_cases hws
      tauto
    · tauto
  obtain rfl | rfl | rfl | rfl | rfl | rfl | rfl := hcases <;> decide

theorem matchExp_complete {exp rest : Str} (h : ExpText exp) (hrest : Ends Follow rest) :
    matchExp (exp ++ rest) = (exp, rest) := by
  have hdigit : Ends (fun c => isDigit c = false) rest :=
    fun c r hc => (follow_not_number (hrest c r hc)).1
  obtain rfl | ⟨e, sign, ds, rfl, he, hsign, hne, hds⟩ := h
  · cases rest with
    | nil => rfl
    | cons c rest =>
      obtain ⟨-, -, he, hE⟩ := follow_not_number (hrest c rest rfl)
      simp [matchExp, he, hE]
  · obtain ⟨htake, hdrop⟩ := takeWhile_digits hds hdigit
    have hmatch : matchSign (sign ++ (ds ++ rest)) = (sign, ds ++ rest) := by
      obtain rfl | rfl | rfl := hsign
      · obtain ⟨d, ds', rfl⟩ := List.exists_cons_of_ne_nil hne
        have hd := hds d List.mem_cons_self
        have hplus : d ≠ 0x2B ∧ d ≠ 0x2D := by
          constructor
          · rintro rfl
            exact absurd hd (by decide)
          · rintro rfl
            exact absurd hd (by decide)
        simp [matchSign, hplus]
      · rfl
      · rfl
    rw [List.cons_append, List.append_assoc, matchExp, hmatch]
    simp only [htake, hdrop]
    rw [if_pos ⟨he, hne⟩]

theorem matchFrac_complete {frac rest : Str} (h : FracText frac)
    (hdigit : Ends (fun c => isDigit c = false) rest) (hpoint : Ends (fun c => c ≠ 0x2E) rest) :
    matchFrac (frac ++ rest) = (frac, rest) := by
  obtain rfl | ⟨ds, rfl, hne, hds⟩ := h
  · cases rest with
    | nil => rfl
    | cons c rest =>
      have hc := hpoint c rest rfl
      simp [matchFrac, hc]
  · obtain ⟨htake, hdrop⟩ := takeWhile_digits hds hdigit
    rw [List.cons_append, matchFrac, htake, hdrop]
    rw [if_pos ⟨rfl, hne⟩]

theorem matchInt_complete {int rest : Str} (h : IntText int)
    (hdigit : Ends (fun c => isDigit c = false) rest) : matchInt (int ++ rest) = some (int, rest) := by
  obtain rfl | ⟨c, ds, rfl, hc, hzero, hds⟩ := h
  · rfl
  · obtain ⟨htake, hdrop⟩ := takeWhile_digits hds hdigit
    rw [List.cons_append, matchInt, if_neg hzero, if_pos hc, htake, hdrop]

theorem exp_head {exp rest : Str} (h : ExpText exp) (hrest : Ends Follow rest) :
    Ends (fun c => isDigit c = false ∧ c ≠ 0x2E) (exp ++ rest) := by
  intro c r hc
  obtain rfl | ⟨e, sign, ds, rfl, he, -⟩ := h
  · obtain ⟨hdigit, hpoint, -⟩ := follow_not_number (hrest c r hc)
    exact ⟨hdigit, hpoint⟩
  · cases hc
    obtain rfl | rfl := he <;> decide

theorem frac_head {frac rest : Str} (h : FracText frac) (hrest : Ends (fun c => isDigit c = false) rest) :
    Ends (fun c => isDigit c = false) (frac ++ rest) := by
  intro c r hc
  obtain rfl | ⟨ds, rfl, -, -⟩ := h
  · exact hrest c r hc
  · cases hc
    decide

theorem int_head {int : Str} (h : IntText int) : ∃ c r, int = c :: r ∧ isDigit c = true := by
  obtain rfl | ⟨c, ds, rfl, hc, -, -⟩ := h
  · exact ⟨0x30, [], rfl, by decide⟩
  · exact ⟨c, ds, rfl, hc⟩

theorem matchNumber_complete {s rest : Str} (h : NumberText s) (hrest : Ends Follow rest) :
    matchNumber (s ++ rest) = some (s, rest) := by
  obtain ⟨minus, int, frac, exp, rfl, hminus, hint, hfrac, hexp⟩ := h
  have hexpHead := exp_head hexp hrest
  have hexpDigit : Ends (fun c => isDigit c = false) (exp ++ rest) := fun c r hc => (hexpHead c r hc).1
  have hexpPoint : Ends (fun c => c ≠ 0x2E) (exp ++ rest) := fun c r hc => (hexpHead c r hc).2
  have hmatch : matchMinus (minus ++ (int ++ (frac ++ (exp ++ rest)))) =
      (minus, int ++ (frac ++ (exp ++ rest))) := by
    obtain rfl | rfl := hminus
    · obtain ⟨c, r, rfl, hc⟩ := int_head hint
      have hne : c ≠ 0x2D := by
        rintro rfl
        exact absurd hc (by decide)
      simp [matchMinus, hne]
    · rfl
  simp only [List.append_assoc]
  simp only [matchNumber, hmatch, matchInt_complete hint (frac_head hfrac hexpDigit),
    Option.bind_eq_bind, Option.bind_some, matchFrac_complete hfrac hexpDigit hexpPoint,
    matchExp_complete hexp hrest]
  rfl

theorem matchExp_sound (s : Str) : ExpText (matchExp s).1 ∧ s = (matchExp s).1 ++ (matchExp s).2 := by
  cases s with
  | nil => exact ⟨.inl rfl, rfl⟩
  | cons c rest =>
    have hsign : ((matchSign rest).1 = [] ∨ (matchSign rest).1 = [0x2B] ∨ (matchSign rest).1 = [0x2D]) ∧
        rest = (matchSign rest).1 ++ (matchSign rest).2 := by
      cases rest with
      | nil => exact ⟨.inl rfl, rfl⟩
      | cons d rest =>
        simp only [matchSign]
        split
        · rename_i hd
          obtain rfl | rfl := hd <;> simp
        · simp
    obtain ⟨hsign, hrest⟩ := hsign
    simp only [matchExp]
    split
    · rename_i hcond
      obtain ⟨hds, hsplit⟩ := digits_split (matchSign rest).2
      refine ⟨.inr ⟨c, _, _, rfl, hcond.1, hsign, hcond.2, hds⟩, ?_⟩
      rw [List.cons_append, List.append_assoc, ← hsplit, ← hrest]
    · exact ⟨.inl rfl, rfl⟩

theorem matchFrac_sound (s : Str) : FracText (matchFrac s).1 ∧ s = (matchFrac s).1 ++ (matchFrac s).2 := by
  cases s with
  | nil => exact ⟨.inl rfl, rfl⟩
  | cons c rest =>
    simp only [matchFrac]
    split
    · rename_i hcond
      obtain ⟨hds, hsplit⟩ := digits_split rest
      refine ⟨.inr ⟨_, by rw [hcond.1], hcond.2, hds⟩, ?_⟩
      rw [List.cons_append, ← hsplit]
    · exact ⟨.inl rfl, rfl⟩

theorem matchInt_sound {s int rest : Str} (h : matchInt s = some (int, rest)) :
    IntText int ∧ s = int ++ rest := by
  cases s with
  | nil => cases h
  | cons c s =>
    rw [matchInt] at h
    split at h
    · rename_i hc
      cases h
      exact ⟨.inl (by rw [hc]), rfl⟩
    split at h
    · rename_i hzero hc
      cases h
      obtain ⟨hds, hsplit⟩ := digits_split s
      exact ⟨.inr ⟨c, _, rfl, hc, hzero, hds⟩, by rw [List.cons_append, ← hsplit]⟩
    · cases h

theorem matchMinus_sound (s : Str) :
    ((matchMinus s).1 = [] ∨ (matchMinus s).1 = [0x2D]) ∧ s = (matchMinus s).1 ++ (matchMinus s).2 := by
  cases s with
  | nil => exact ⟨.inl rfl, rfl⟩
  | cons c rest =>
    simp only [matchMinus]
    split
    · rename_i hc
      exact ⟨.inr (by rw [hc]), rfl⟩
    · exact ⟨.inl rfl, rfl⟩

theorem matchNumber_sound {s token rest : Str} (h : matchNumber s = some (token, rest)) :
    NumberText token ∧ s = token ++ rest := by
  have heq : matchNumber s = (matchInt (matchMinus s).2).bind (fun p =>
      some ((matchMinus s).1 ++ (p.1 ++ ((matchFrac p.2).1 ++ (matchExp (matchFrac p.2).2).1)),
        (matchExp (matchFrac p.2).2).2)) := rfl
  rw [heq] at h
  obtain ⟨hminus, hs⟩ := matchMinus_sound s
  obtain ⟨⟨int, s₁⟩, hint, h⟩ := Option.bind_eq_some_iff.mp h
  obtain ⟨hinttext, hs₁⟩ := matchInt_sound hint
  obtain ⟨hfrac, hs₂⟩ := matchFrac_sound s₁
  obtain ⟨hexp, hs₃⟩ := matchExp_sound (matchFrac s₁).2
  rw [Option.some.injEq, Prod.mk.injEq] at h
  obtain ⟨rfl, rfl⟩ := h
  refine ⟨⟨_, _, _, _, rfl, hminus, hinttext, hfrac, hexp⟩, ?_⟩
  rw [List.append_assoc, List.append_assoc, List.append_assoc, ← hs₃, ← hs₂, ← hs₁, ← hs]

theorem numberText_head {s : Str} (h : NumberText s) :
    ∃ c r, s = c :: r ∧ (isDigit c = true ∨ c = 0x2D) := by
  obtain ⟨minus, int, frac, exp, rfl, rfl | rfl, hint, -, -⟩ := h
  · obtain ⟨c, r, rfl, hc⟩ := int_head hint
    exact ⟨c, _, rfl, .inl hc⟩
  · exact ⟨0x2D, _, rfl, .inr rfl⟩

theorem assertNumber_decides (n : JsNumber) (path : Str) :
    Decides (assertIJson path (.num n)) (Interoperable n) () := by
  rw [assertIJson]
  cases n with
  | nan => exact (Decides.fail _ _).of_iff (by simp [Interoperable])
  | infinite neg => exact (Decides.fail _ _).of_iff (by simp [Interoperable])
  | finite d =>
    rw [assertNumber]
    have hsafe : (d.isInteger && !d.isSafeInteger) = true ↔ ¬ Interoperable (.finite d) := by
      simp only [Interoperable, JsNumber.finite.injEq, exists_eq_left', Double.isSafeInteger]
      cases d.isInteger <;> simp
    split
    · rename_i hcond
      exact (Decides.fail _ _).of_iff (by simp [hsafe.mp hcond])
    · rename_i hcond
      exact (Decides.pure _).of_iff (by simpa using fun h => hcond (hsafe.mpr h))

end AgentPassport.StrictTokens
