import AgentPassport.JsText

/-! JSON string tokens: the `char` production of RFC 8259 over code units, what
`JSON.stringify` writes and what `JSON.parse` reads. -/
namespace AgentPassport.JsonString
open JsText

/-- The two-character escapes, by the character after the backslash. -/
def simpleEscape (c : UInt16) : Option UInt16 :=
  if c = 0x22 then some 0x22
  else if c = 0x5C then some 0x5C
  else if c = 0x2F then some 0x2F
  else if c = 0x62 then some 0x08
  else if c = 0x66 then some 0x0C
  else if c = 0x6E then some 0x0A
  else if c = 0x72 then some 0x0D
  else if c = 0x74 then some 0x09
  else none

def hex4 (a b c d : UInt16) : Option UInt16 := do
  let a ← hexDigit a
  let b ← hexDigit b
  let c ← hexDigit c
  let d ← hexDigit d
  return UInt16.ofNat (((a * 16 + b) * 16 + c) * 16 + d)

/-- The production `char`, with the code unit it stands for. -/
inductive CharText : Str → UInt16 → Prop
  | plain (c : UInt16) (control : 0x20 ≤ c) (quote : c ≠ 0x22) (backslash : c ≠ 0x5C) :
      CharText [c] c
  | escape (c u : UInt16) (h : simpleEscape c = some u) : CharText [0x5C, c] u
  | unicode (a b c d u : UInt16) (h : hex4 a b c d = some u) :
      CharText [0x5C, 0x75, a, b, c, d] u

inductive CharsText : Str → Str → Prop
  | nil : CharsText [] []
  | cons {x xs cs : Str} {c : UInt16} (head : CharText x c) (tail : CharsText xs cs) :
      CharsText (x ++ xs) (c :: cs)

/-- The production `string`: a token and the string it denotes. -/
def StringText (token s : Str) : Prop :=
  ∃ body, token = 0x22 :: (body ++ [0x22]) ∧ CharsText body s

theorem simpleEscape_u : simpleEscape 0x75 = none := by decide

theorem charText_unique {x y p q : Str} {c d : UInt16} (hx : CharText x c) (hy : CharText y d)
    (h : x ++ p = y ++ q) : c = d ∧ x = y ∧ p = q := by
  cases hx with
  | plain _ _ _ hb =>
    cases hy with
    | plain => simp_all
    | escape => simp_all
    | unicode => simp_all
  | escape e _ he =>
    cases hy with
    | plain _ _ _ hb => simp_all
    | escape f _ hf =>
      simp only [List.cons_append, List.nil_append, List.cons.injEq, true_and] at h
      obtain ⟨rfl, rfl⟩ := h
      rw [he] at hf
      cases hf
      exact ⟨rfl, rfl, rfl⟩
    | unicode =>
      simp only [List.cons_append, List.nil_append, List.cons.injEq, true_and] at h
      obtain ⟨rfl, -⟩ := h
      rw [simpleEscape_u] at he
      cases he
  | unicode a b c' d' _ he =>
    cases hy with
    | plain _ _ _ hb => simp_all
    | escape f _ hf =>
      simp only [List.cons_append, List.nil_append, List.cons.injEq, true_and] at h
      obtain ⟨rfl, -⟩ := h
      rw [simpleEscape_u] at hf
      cases hf
    | unicode _ _ _ _ _ hf =>
      simp only [List.cons_append, List.nil_append, List.cons.injEq, true_and] at h
      obtain ⟨rfl, rfl, rfl, rfl, rfl⟩ := h
      rw [he] at hf
      cases hf
      exact ⟨rfl, rfl, rfl⟩

variable {c : UInt16}

theorem charText_head {x p q : Str} (hx : CharText x c) : x ++ p ≠ 0x22 :: q := by
  cases hx <;> simp_all

theorem charsText_unique {xs ys p q s t : Str} (hx : CharsText xs s) (hy : CharsText ys t)
    (h : xs ++ 0x22 :: p = ys ++ 0x22 :: q) : s = t ∧ xs = ys ∧ p = q := by
  induction hx generalizing ys t with
  | nil =>
    cases hy with
    | nil => simpa using h
    | cons hc _ =>
      rw [List.nil_append, List.append_assoc] at h
      exact absurd h.symm (charText_head hc)
  | cons hc _ ih =>
    cases hy with
    | nil =>
      rw [List.nil_append, List.append_assoc] at h
      exact absurd h (charText_head hc)
    | cons hd htail =>
      rw [List.append_assoc, List.append_assoc] at h
      obtain ⟨rfl, rfl, hrest⟩ := charText_unique hc hd h
      obtain ⟨rfl, rfl, hpq⟩ := ih htail hrest
      exact ⟨rfl, rfl, hpq⟩

theorem stringText_unique {a b p q s t : Str} (ha : StringText a s) (hb : StringText b t)
    (h : a ++ p = b ++ q) : s = t ∧ a = b ∧ p = q := by
  obtain ⟨xs, rfl, hx⟩ := ha
  obtain ⟨ys, rfl, hy⟩ := hb
  simp only [List.cons_append, List.append_assoc, List.cons.injEq, true_and, List.nil_append] at h
  obtain ⟨rfl, rfl, rfl⟩ := charsText_unique hx hy h
  exact ⟨rfl, rfl, rfl⟩

/-- What `JSON.stringify` writes for one code unit that is not an unpaired surrogate. -/
def escapeUnit (c : UInt16) : Str :=
  if c = 0x08 then lit "\\b"
  else if c = 0x09 then lit "\\t"
  else if c = 0x0A then lit "\\n"
  else if c = 0x0C then lit "\\f"
  else if c = 0x0D then lit "\\r"
  else if c = 0x22 then lit "\\\""
  else if c = 0x5C then lit "\\\\"
  else if c < 0x20 then lit "\\u00" ++ [hexChar (c.toNat / 16), hexChar (c.toNat % 16)]
  else [c]

/-- `JSON.stringify` on a string without unpaired surrogates. -/
def stringifyString (s : Str) : Str := 0x22 :: (s.flatMap escapeUnit ++ [0x22])

theorem hex4_control : ∀ n : Fin 32,
    hex4 0x30 0x30 (hexChar (n.val / 16)) (hexChar (n.val % 16)) = some (UInt16.ofNat n.val) := by
  decide

theorem charText_escapeUnit (c : UInt16) : CharText (escapeUnit c) c := by
  unfold escapeUnit
  split
  · rename_i h
    exact h ▸ .escape 0x62 0x08 rfl
  split
  · rename_i h
    exact h ▸ .escape 0x74 0x09 rfl
  split
  · rename_i h
    exact h ▸ .escape 0x6E 0x0A rfl
  split
  · rename_i h
    exact h ▸ .escape 0x66 0x0C rfl
  split
  · rename_i h
    exact h ▸ .escape 0x72 0x0D rfl
  split
  · rename_i h
    exact h ▸ .escape 0x22 0x22 rfl
  split
  · rename_i h
    exact h ▸ .escape 0x5C 0x5C rfl
  split
  · rename_i h
    have hlt : c.toNat < 32 := UInt16.lt_iff_toNat_lt.mp h
    have hhex := hex4_control ⟨c.toNat, hlt⟩
    rw [UInt16.ofNat_toNat] at hhex
    exact .unicode 0x30 0x30 _ _ c hhex
  · rename_i hquote hbackslash hcontrol
    exact .plain c (UInt16.not_lt.mp hcontrol) hquote hbackslash

theorem stringText_stringify (s : Str) : StringText (stringifyString s) s := by
  refine ⟨s.flatMap escapeUnit, rfl, ?_⟩
  induction s with
  | nil => exact .nil
  | cons c s ih =>
    rw [List.flatMap_cons]
    exact .cons (charText_escapeUnit c) ih

/-- One `char` off the front. -/
def decodeUnit : Str → Option (UInt16 × Str)
  | [] => none
  | c :: rest =>
    if c = 0x5C then
      match rest with
      | [] => none
      | e :: rest =>
        if e = 0x75 then
          match rest with
          | a :: b :: c :: d :: rest => (hex4 a b c d).map (·, rest)
          | _ => none
        else (simpleEscape e).map (·, rest)
    else if c < 0x20 ∨ c = 0x22 then none
    else some (c, rest)

/-- The characters up to a closing quote that ends the text. -/
def decodeChars : Nat → Str → Option Str
  | 0, _ => none
  | _+1, [] => none
  | fuel+1, c :: rest =>
    if c = 0x22 then (if rest = [] then some [] else none)
    else match decodeUnit (c :: rest) with
      | none => none
      | some (u, rest) => (decodeChars fuel rest).map (u :: ·)

/-- `JSON.parse` on a text that is one string token; `none` is a `SyntaxError`. -/
def jsonParseString : Str → Option Str
  | 0x22 :: rest => decodeChars rest.length rest
  | _ => none

theorem decodeUnit_charText {x : Str} (h : CharText x c) (p : Str) : decodeUnit (x ++ p) = some (c, p) := by
  cases h with
  | plain _ hcontrol hquote hbackslash =>
    have hctl : ¬ (c < 0x20 ∨ c = 0x22) := by
      rintro (hlt | heq)
      · exact UInt16.not_lt.mpr hcontrol hlt
      · exact hquote heq
    simp only [List.cons_append, List.nil_append, decodeUnit, if_neg hbackslash, if_neg hctl]
  | escape e _ he =>
    have hu : e ≠ 0x75 := by
      rintro rfl
      rw [simpleEscape_u] at he
      cases he
    simp only [List.cons_append, List.nil_append, decodeUnit, if_true, if_neg hu, he, Option.map_some]
  | unicode a b d e _ he =>
    simp only [List.cons_append, List.nil_append, decodeUnit, if_true, he, Option.map_some]

theorem charText_decodeUnit {s p : Str} (h : decodeUnit s = some (c, p)) : ∃ x, s = x ++ p ∧ CharText x c := by
  unfold decodeUnit at h
  split at h
  · cases h
  · rename_i k rest
    split at h
    · rename_i hk
      subst hk
      split at h
      · cases h
      · rename_i e rest
        split at h
        · rename_i he
          subst he
          split at h
          · rename_i a b c' d rest
            obtain ⟨u, hu, heq⟩ := Option.map_eq_some_iff.mp h
            cases heq
            exact ⟨[0x5C, 0x75, a, b, c', d], rfl, .unicode a b c' d c hu⟩
          · cases h
        · obtain ⟨u, hu, heq⟩ := Option.map_eq_some_iff.mp h
          cases heq
          exact ⟨[0x5C, e], rfl, .escape e c hu⟩
    · rename_i hk
      split at h
      · cases h
      · rename_i hctl
        obtain ⟨hlt, hq⟩ := not_or.mp hctl
        cases h
        exact ⟨[c], rfl, .plain c (UInt16.not_lt.mp hlt) hq hk⟩

theorem charText_ne_nil {x : Str} (h : CharText x c) : 0 < x.length := by
  cases h <;> simp

theorem decodeChars_of_charsText {body s : Str} (h : CharsText body s) :
    ∀ fuel, body.length < fuel → decodeChars fuel (body ++ [0x22]) = some s := by
  induction h with
  | nil =>
    intro fuel hf
    obtain ⟨n, rfl⟩ : ∃ n, fuel = n + 1 := ⟨fuel - 1, by omega⟩
    simp [decodeChars]
  | @cons x xs cs c hx _ ih =>
    intro fuel hf
    obtain ⟨n, rfl⟩ : ∃ n, fuel = n + 1 := ⟨fuel - 1, by omega⟩
    have hpos := charText_ne_nil hx
    have hdec := decodeUnit_charText hx (xs ++ [0x22])
    have hrest := ih n (by rw [List.length_append] at hf; omega)
    rw [List.append_assoc]
    cases hcase : x ++ (xs ++ [0x22]) with
    | nil => simp at hcase
    | cons k rest =>
      have hk : k ≠ 0x22 := by
        rintro rfl
        exact charText_head hx hcase
      rw [hcase] at hdec
      simp only [decodeChars, if_neg hk, hdec, hrest, Option.map_some]

theorem charsText_of_decodeChars (fuel : Nat) :
    ∀ {rest s : Str}, decodeChars fuel rest = some s →
      ∃ body, rest = body ++ [0x22] ∧ CharsText body s := by
  induction fuel with
  | zero =>
    intro rest s h
    cases h
  | succ fuel ih =>
    intro rest s h
    cases rest with
    | nil => cases h
    | cons c rest =>
      rw [decodeChars] at h
      split at h
      · rename_i hc
        split at h
        · rename_i hr
          cases h
          exact ⟨[], by rw [hc, hr]; rfl, .nil⟩
        · cases h
      · split at h
        · cases h
        · rename_i u p hd
          obtain ⟨cs, hcs, rfl⟩ := Option.map_eq_some_iff.mp h
          obtain ⟨x, hx, hchar⟩ := charText_decodeUnit hd
          obtain ⟨body, rfl, hbody⟩ := ih hcs
          exact ⟨x ++ body, by rw [hx, List.append_assoc], .cons hchar hbody⟩

theorem jsonParseString_iff (token s : Str) : jsonParseString token = some s ↔ StringText token s := by
  constructor
  · intro h
    unfold jsonParseString at h
    split at h
    · obtain ⟨body, rfl, hbody⟩ := charsText_of_decodeChars _ h
      exact ⟨body, rfl, hbody⟩
    · cases h
  · rintro ⟨body, rfl, hbody⟩
    exact decodeChars_of_charsText hbody _ (by simp)

end AgentPassport.JsonString
