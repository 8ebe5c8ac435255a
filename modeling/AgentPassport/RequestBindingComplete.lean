import AgentPassport.FixedDigits
import AgentPassport.Outcome
import AgentPassport.RequestBinding

/-! Which signed requests verify. The verifier looks for the algorithm and the expiry in the text of
the parameters, so a key id, a nonce or a tag that reads like one of them is taken for it. -/
namespace AgentPassport.RequestBinding
open JsText Js SeparatedText Sha256 TextSearch Outcome CanonicalInjective
open DelegationSchema (isLowerHexOf)

theorem expiresHere_begins : BeginsWith expiresHere 0x3B := by
  intro c rest hc
  have hprefix : (lit ";expires=").isPrefixOf (c :: rest) = false := by
    rw [show lit ";expires=" = 0x3B :: lit "expires=" from rfl, List.isPrefixOf, beq_false_of_ne hc.symm,
      Bool.false_and]
  rw [expiresHere, hprefix]
  rfl

theorem algHere_begins : BeginsWith algHere 0x3B := by
  intro c rest hc
  have hprefix : (lit ";alg=\"").isPrefixOf (c :: rest) = false := by
    rw [show lit ";alg=\"" = 0x3B :: lit "alg=\"" from rfl, List.isPrefixOf, beq_false_of_ne hc.symm, Bool.false_and]
  rw [algHere, hprefix]
  rfl

theorem expiresHere_cut {q : UInt16} (hdigit : isDigit q = false) (hq : (lit ";expires=").all (· ≠ q) = true) :
    Cut expiresHere q := by
  have hmem : q ∉ lit ";expires=" := fun h => forall_of_all hq q h rfl
  refine ⟨rfl, ?_⟩
  intro a b
  rw [expiresHere, expiresHere, isPrefixOf_cut hmem]
  by_cases hprefix : (lit ";expires=").isPrefixOf a = true
  · have hlength : 9 ≤ a.length := (List.isPrefixOf_iff_prefix.mp hprefix).length_le
    rw [List.drop_append_of_le_length hlength, takeWhile_cut hdigit]
  · rw [if_neg hprefix, if_neg hprefix]

theorem expires_sfString (v b : Str) :
    firstMatch expiresHere (sfString v ++ b) =
      (firstMatch expiresHere v).orElse (fun _ => firstMatch expiresHere b) := by
  have hquote : Cut expiresHere 0x22 := expiresHere_cut (by decide) (by decide)
  have hslash : Cut expiresHere 0x5C := expiresHere_cut (by decide) (by decide)
  have hsplit : sfString v ++ b = 0x22 :: (escape 0x5C 0x22 (escape 0x5C 0x5C v) ++ 0x22 :: b) := by
    rw [sfString, quoted, List.cons_append, List.append_assoc]
    rfl
  rw [hsplit, hquote.next, hquote.firstMatch_append, hquote.firstMatch_escape hslash, hslash.firstMatch_escape hslash]

theorem takeWhile_free {a : Str} {q : UInt16} (ha : q ∉ a) : a.takeWhile (· ≠ q) = a := by
  rw [List.takeWhile_eq_self_iff]
  intro c hc
  exact decide_eq_true (fun h => ha (h ▸ hc))

theorem takeWhile_shorter_iff (b : Str) (q : UInt16) : (b.takeWhile (· ≠ q)).length < b.length ↔ q ∈ b := by
  constructor
  · intro h
    by_contra hmem
    rw [takeWhile_free hmem] at h
    exact Nat.lt_irrefl _ h
  · intro hmem
    obtain ⟨x, y, rfl, -⟩ := List.eq_append_cons_of_mem hmem
    have hle := (List.takeWhile_prefix (p := fun c => decide (c ≠ q)) (l := x)).length_le
    rw [takeWhile_cut (by simp), List.length_append, List.length_cons]
    omega

theorem algHere_piece {a : Str} (ha : 0x22 ∉ a) (b : Str) :
    algHere (a ++ 0x22 :: b) = if a = lit ";alg=" ∧ 0x22 ∈ b then some (b.takeWhile (· ≠ 0x22)) else none := by
  by_cases hname : a = lit ";alg="
  · subst hname
    have hprefix : (lit ";alg=\"").isPrefixOf (lit ";alg=" ++ 0x22 :: b) = true :=
      List.isPrefixOf_iff_prefix.mpr ⟨b, rfl⟩
    have hdrop : (lit ";alg=" ++ 0x22 :: b).drop 6 = b := rfl
    rw [algHere, if_pos hprefix, hdrop]
    by_cases hmem : 0x22 ∈ b
    · rw [if_pos ((takeWhile_shorter_iff b 0x22).mpr hmem), if_pos ⟨rfl, hmem⟩]
    · rw [if_neg (fun h => hmem ((takeWhile_shorter_iff b 0x22).mp h)), if_neg (fun h => hmem h.2)]
  · rw [if_neg (fun h => hname h.1), algHere, if_neg]
    intro hprefix
    obtain ⟨t, ht⟩ := List.isPrefixOf_iff_prefix.mp hprefix
    have hshape : lit ";alg=" ++ 0x22 :: t = a ++ 0x22 :: b := ht
    have htake : (lit ";alg=" ++ 0x22 :: t).takeWhile (· ≠ 0x22) = (a ++ 0x22 :: b).takeWhile (· ≠ 0x22) := by
      rw [hshape]
    rw [takeWhile_cut (by decide), takeWhile_cut (by decide), takeWhile_free ha] at htake
    exact hname (htake.symm.trans rfl)

theorem alg_piece {a : Str} (ha : 0x22 ∉ a) (b : Str) :
    firstMatch algHere (a ++ 0x22 :: b) =
      if lit ";alg=" <:+ a ∧ 0x22 ∈ b then some (b.takeWhile (· ≠ 0x22)) else firstMatch algHere b := by
  induction a with
  | nil =>
    have hsuffix : ¬ lit ";alg=" <:+ [] := by decide
    rw [if_neg (fun h => hsuffix h.1), List.nil_append, firstMatch_next (algHere_begins _ _ (by decide))]
  | cons c a ih =>
    have htail : 0x22 ∉ a := fun h => ha (List.mem_cons_of_mem c h)
    have hhere := algHere_piece ha b
    rw [List.cons_append] at hhere ⊢
    by_cases hfound : c :: a = lit ";alg=" ∧ 0x22 ∈ b
    · rw [if_pos hfound] at hhere
      rw [firstMatch_found hhere, if_pos ⟨hfound.1 ▸ List.suffix_rfl, hfound.2⟩]
    · rw [if_neg hfound] at hhere
      rw [firstMatch_next hhere, ih htail]
      refine if_congr ?_ rfl rfl
      rw [List.suffix_cons_iff]
      constructor
      · rintro ⟨hsuffix, hmem⟩
        exact ⟨.inr hsuffix, hmem⟩
      · rintro ⟨hname | hsuffix, hmem⟩
        · exact absurd ⟨hname.symm, hmem⟩ hfound
        · exact ⟨hsuffix, hmem⟩

theorem alg_escaped {a : Str} (ha : 0x22 ∉ a) (v b : Str) :
    firstMatch algHere (a ++ escape 0x5C 0x22 v ++ 0x22 :: b) =
      if lit ";alg=" <:+ a ++ escape 0x5C 0x22 v ∧ 0x22 ∈ b then some (b.takeWhile (· ≠ 0x22))
      else firstMatch algHere b := by
  induction v generalizing a with
  | nil =>
    rw [show escape 0x5C 0x22 ([] : Str) = [] from rfl, List.append_nil]
    exact alg_piece ha b
  | cons c v ih =>
    rw [escape_cons]
    by_cases hc : c = 0x22
    · subst hc
      have hfront : 0x22 ∉ a ++ [0x5C] := by
        rw [List.mem_append, not_or]
        exact ⟨ha, by decide⟩
      have hlast : ¬ lit ";alg=" <:+ a ++ [0x5C] := by
        rw [List.suffix_concat_iff]
        rintro (h | ⟨t, ht, -⟩)
        · exact absurd h (by decide)
        · have hend := congrArg List.getLast? ht
          rw [List.getLast?_concat] at hend
          exact absurd hend (by decide)
      have hshape : a ++ (([0x5C, 0x22] : Str) ++ escape 0x5C 0x22 v) =
          (a ++ [0x5C]) ++ 0x22 :: escape 0x5C 0x22 v := by
        rw [List.append_assoc]
        rfl
      have hsuffix : lit ";alg=" <:+ (a ++ [0x5C]) ++ 0x22 :: escape 0x5C 0x22 v ↔
          lit ";alg=" <:+ escape 0x5C 0x22 v := suffix_after (by decide)
      have hrest := ih (a := []) List.not_mem_nil
      rw [List.nil_append] at hrest
      rw [if_pos rfl, hshape, List.append_assoc, List.cons_append, alg_piece hfront, if_neg (fun h => hlast h.1), hrest]
      exact if_congr (and_congr_left' hsuffix.symm) rfl rfl
    · have hfront : 0x22 ∉ a ++ [c] := by
        rw [List.mem_append, not_or, List.mem_singleton]
        exact ⟨ha, fun h => hc h.symm⟩
      have hnext := ih hfront
      rw [if_neg hc, ← List.append_assoc]
      exact hnext

theorem alg_sfString (v b : Str) :
    firstMatch algHere (sfString v ++ b) =
      if lit ";alg=" <:+ v ∧ 0x22 ∈ b then some (b.takeWhile (· ≠ 0x22)) else firstMatch algHere b := by
  have hsplit : sfString v ++ b = 0x22 :: (escape 0x5C 0x22 (escape 0x5C 0x5C v) ++ 0x22 :: b) := by
    rw [sfString, quoted, List.cons_append, List.append_assoc]
    rfl
  have hescaped := alg_escaped (a := []) List.not_mem_nil (escape 0x5C 0x5C v) b
  have hsuffix : lit ";alg=" <:+ escape 0x5C 0x22 (escape 0x5C 0x5C v) ↔ lit ";alg=" <:+ v := by
    rw [suffix_escape (by decide) (by decide), suffix_escape (by decide) (by decide)]
  rw [List.nil_append] at hescaped
  rw [hsplit, firstMatch_next (algHere_begins _ _ (by decide)), hescaped]
  exact if_congr (and_congr_left' hsuffix) rfl rfl

/-- What is used of the text of a number: that it is a rendering of numbers, that an integer from zero
up to `10 ^ 21` is written in digits which read back as the number, and that a larger one begins
with a single digit. -/
structure IntegerText (numText : Double → Str) : Prop where
  rendering : NumberRendering numText
  digits : ∀ d, d.isInteger = true → 0 ≤ d.scaled → d.toInt < 10 ^ 21 →
    (∀ c ∈ numText d, isDigit c = true) ∧ (numberOf (numText d)).eq (.finite d) = true
  exponent : ∀ d, d.isInteger = true → 10 ^ 21 ≤ d.toInt →
    ∃ c rest, numText d = c :: rest ∧ isDigit c = true ∧ ∀ u, rest.head? = some u → isDigit u = false

section Params
variable {R : Runtime}

theorem numberUnit_ne {c : UInt16} (h : NumberUnit c) : c ≠ 0x3B ∧ c ≠ 0x22 ∧ c ≠ 0x49 ∧ c ≠ 0x4E := by
  refine ⟨?_, ?_, ?_, ?_⟩
  all_goals
    rintro rfl
    revert h
    unfold NumberUnit
    decide

theorem text_plain (hnum : NumberRendering R.numText) (n : JsNumber) : ∀ c ∈ R.text n, c ≠ 0x3B ∧ c ≠ 0x22 := by
  cases n with
  | finite d =>
    intro c hc
    have hne := numberUnit_ne (hnum.units d c hc)
    exact ⟨hne.1, hne.2.1⟩
  | nan => exact forall_of_all (s := lit "NaN") (by decide)
  | infinite neg =>
    cases neg with
    | false => exact forall_of_all (s := lit "Infinity") (by decide)
    | true => exact forall_of_all (s := lit "-Infinity") (by decide)

theorem text_eq_iff (hnum : NumberRendering R.numText) (n : JsNumber) (d : Double) :
    R.text n = R.text (.finite d) ↔ n.eq (.finite d) = true := by
  have hother : ∀ s : Str, s.any (fun c => c = 0x49 ∨ c = 0x4E) = true → s ≠ R.numText d := by
    intro s hs heq
    obtain ⟨c, hc, hletter⟩ := List.any_eq_true.mp hs
    have hne := numberUnit_ne (hnum.units d c (heq ▸ hc))
    obtain h | h := of_decide_eq_true hletter
    · exact hne.2.2.1 h
    · exact hne.2.2.2 h
  cases n with
  | finite e =>
    rw [show (JsNumber.finite e).eq (.finite d) = decide (e.scaled = d.scaled) from rfl, decide_eq_true_eq]
    exact hnum.same e d
  | nan => exact iff_of_false (hother (lit "NaN") (by decide)) Bool.false_ne_true
  | infinite neg =>
    refine iff_of_false ?_ Bool.false_ne_true
    cases neg with
    | false => exact hother (lit "Infinity") (by decide)
    | true => exact hother (lit "-Infinity") (by decide)

theorem mem_join {sep c : UInt16} {parts : List Str} (h : c ∈ join sep parts) : c = sep ∨ ∃ part ∈ parts, c ∈ part := by
  induction parts with
  | nil => exact absurd h List.not_mem_nil
  | cons x rest ih =>
    cases rest with
    | nil => exact .inr ⟨x, List.mem_cons_self, h⟩
    | cons y rest =>
      rw [join, List.mem_append, List.mem_cons] at h
      obtain hx | hsep | hrest := h
      · exact .inr ⟨x, List.mem_cons_self, hx⟩
      · exact .inl hsep
      · obtain hsep | ⟨part, hpart, hc⟩ := ih hrest
        · exact .inl hsep
        · exact .inr ⟨part, List.mem_cons_of_mem x hpart, hc⟩

theorem innerList_no_mark (covered : List CoveredComponent) : ∀ c ∈ serializeInnerList covered, c ≠ 0x3B := by
  have hcomponent : ∀ component : CoveredComponent, (quoted component.text).all (· ≠ 0x3B) = true := by
    intro component
    cases component
    all_goals decide
  intro c hc
  rw [serializeInnerList, List.mem_append, List.mem_append] at hc
  obtain (hopen | hitems) | hclose := hc
  · rintro rfl
    revert hopen
    decide
  · obtain rfl | ⟨part, hpart, hc⟩ := mem_join hitems
    · decide
    · obtain ⟨component, -, rfl⟩ := List.mem_map.mp hpart
      exact forall_of_all (hcomponent component) c hc
  · rintro rfl
    revert hclose
    decide

def optionalText (R : Runtime) (alg : Option Str) (expires : Option JsNumber) : Str :=
  (match alg with
    | some alg => lit ";alg=" ++ sfString alg
    | none => []) ++
  (match expires with
    | some expires => lit ";expires=" ++ R.text expires
    | none => [])

/-- The parameters up to the optional ones, and a text behind them. -/
def withRequired (R : Runtime) (created : JsNumber) (keyid nonce tag rest : Str) : Str :=
  0x3B :: ((lit "created=" ++ R.text created) ++ 0x3B :: (lit "keyid=" ++ (sfString keyid ++ 0x3B :: (lit "nonce=" ++
    (sfString nonce ++ 0x3B :: (lit "tag=" ++ (sfString tag ++ rest)))))))

theorem serializeParams_eq (params : SignatureParams) :
    serializeParams R params = withRequired R params.created params.keyid params.nonce params.tag
      (optionalText R params.alg params.expires) := by
  have hcreated : lit ";created=" = 0x3B :: lit "created=" := rfl
  have hkeyid : lit ";keyid=" = 0x3B :: lit "keyid=" := rfl
  have hnonce : lit ";nonce=" = 0x3B :: lit "nonce=" := rfl
  have htag : lit ";tag=" = 0x3B :: lit "tag=" := rfl
  obtain ⟨created, keyid, nonce, tag, alg, expires⟩ := params
  cases alg <;> cases expires <;>
    simp only [serializeParams, withRequired, optionalText, hcreated, hkeyid, hnonce, htag, List.append_assoc,
      List.cons_append]

theorem alg_withRequired (hnum : IntegerText R.numText) (created : JsNumber) (keyid nonce tag rest : Str) :
    firstMatch algHere (withRequired R created keyid nonce tag rest) =
      if lit ";alg=" <:+ keyid then some (lit ";nonce=")
      else if lit ";alg=" <:+ nonce then some (lit ";tag=")
      else if lit ";alg=" <:+ tag ∧ 0x22 ∈ rest then some (rest.takeWhile (· ≠ 0x22))
      else firstMatch algHere rest := by
  have hcreated : ∀ c ∈ lit "created=" ++ R.text created, c ≠ 0x3B :=
    List.forall_mem_append.mpr ⟨forall_of_all (by decide), fun c hc => (text_plain hnum.rendering created c hc).1⟩
  have hquote : ∀ (name v b : Str), 0x22 ∈ 0x3B :: (name ++ (sfString v ++ b)) := by
    intro name v b
    rw [sfString, quoted]
    simp
  rw [withRequired, algHere_begins.skip_mark hcreated _ rfl, algHere_begins.skip_mark (forall_of_all (by decide)) _ rfl,
    alg_sfString, algHere_begins.skip_mark (forall_of_all (by decide)) _ rfl, alg_sfString,
    algHere_begins.skip_mark (forall_of_all (by decide)) _ rfl, alg_sfString]
  refine if_congr ⟨fun h => h.1, fun h => ⟨h, hquote _ _ _⟩⟩ rfl ?_
  exact if_congr ⟨fun h => h.1, fun h => ⟨h, hquote _ _ _⟩⟩ rfl rfl

theorem expires_withRequired (hnum : IntegerText R.numText) (created : JsNumber) (keyid nonce tag rest : Str) :
    firstMatch expiresHere (withRequired R created keyid nonce tag rest) =
      (firstMatch expiresHere keyid).orElse (fun _ => (firstMatch expiresHere nonce).orElse (fun _ =>
        (firstMatch expiresHere tag).orElse (fun _ => firstMatch expiresHere rest))) := by
  have hcreated : ∀ c ∈ lit "created=" ++ R.text created, c ≠ 0x3B :=
    List.forall_mem_append.mpr ⟨forall_of_all (by decide), fun c hc => (text_plain hnum.rendering created c hc).1⟩
  rw [withRequired, expiresHere_begins.skip_mark hcreated _ rfl,
    expiresHere_begins.skip_mark (forall_of_all (by decide)) _ rfl, expires_sfString,
    expiresHere_begins.skip_mark (forall_of_all (by decide)) _ rfl, expires_sfString,
    expiresHere_begins.skip_mark (forall_of_all (by decide)) _ rfl, expires_sfString]

theorem alg_absent {b : Str} (h : 0x22 ∉ b) : firstMatch algHere b = none := by
  have hhere : ∀ text : Str, 0x22 ∉ text → algHere text = none := by
    intro text htext
    rw [algHere, if_neg]
    intro hprefix
    exact htext ((List.isPrefixOf_iff_prefix.mp hprefix).subset (by decide))
  induction b with
  | nil => exact hhere [] h
  | cons c b ih => rw [firstMatch_next (hhere _ h), ih (fun hmem => h (List.mem_cons_of_mem c hmem))]

theorem optional_none_quote (hnum : IntegerText R.numText) (expires : Option JsNumber) :
    0x22 ∉ optionalText R none expires := by
  cases expires with
  | none => exact List.not_mem_nil
  | some e =>
    have hplain : ∀ c ∈ lit ";expires=" ++ R.text e, c ≠ 0x22 :=
      List.forall_mem_append.mpr ⟨forall_of_all (by decide), fun c hc => (text_plain hnum.rendering e c hc).2⟩
    intro hmem
    exact hplain 0x22 hmem rfl

theorem alg_found (hnum : IntegerText R.numText) (created : JsNumber) (keyid nonce tag : Str)
    (alg : Option SignatureAlgorithm) (expires : Option JsNumber) :
    firstMatch algHere (withRequired R created keyid nonce tag
        (optionalText R (alg.map SignatureAlgorithm.text) expires)) =
      if lit ";alg=" <:+ keyid then some (lit ";nonce=")
      else if lit ";alg=" <:+ nonce then some (lit ";tag=")
      else if lit ";alg=" <:+ tag ∧ alg ≠ none then some (lit ";alg=")
      else alg.map SignatureAlgorithm.text := by
  rw [alg_withRequired hnum]
  refine if_congr Iff.rfl rfl (if_congr Iff.rfl rfl ?_)
  cases alg with
  | none =>
    rw [Option.map_none, if_neg (fun h => optional_none_quote hnum expires h.2), if_neg (fun h => h.2 rfl),
      alg_absent (optional_none_quote hnum expires)]
  | some alg =>
    cases alg
    have hname : ∃ b, optionalText R (some (lit "ed25519")) expires = lit ";alg=" ++ 0x22 :: (lit "ed25519" ++ 0x22 :: b) :=
      ⟨_, rfl⟩
    obtain ⟨b, hb⟩ := hname
    have hquote : 0x22 ∈ lit ";alg=" ++ 0x22 :: (lit "ed25519" ++ 0x22 :: b) := by simp
    have htake : (lit ";alg=" ++ 0x22 :: (lit "ed25519" ++ 0x22 :: b)).takeWhile (· ≠ 0x22) = lit ";alg=" := rfl
    have hvalue : (lit "ed25519" ++ 0x22 :: b).takeWhile (· ≠ 0x22) = lit "ed25519" := rfl
    have hinner : 0x22 ∈ lit "ed25519" ++ 0x22 :: b := by simp
    have hown : firstMatch algHere (lit ";alg=" ++ 0x22 :: (lit "ed25519" ++ 0x22 :: b)) = some (lit "ed25519") := by
      rw [alg_piece (by decide), if_pos ⟨List.suffix_rfl, hinner⟩, hvalue]
    rw [show (some SignatureAlgorithm.ed25519).map SignatureAlgorithm.text = some (lit "ed25519") from rfl, hb, htake,
      hown]
    exact if_congr (and_congr_right' (iff_of_true hquote (Option.some_ne_none _))) rfl rfl

theorem optional_alg_ne (found : Str) (expires expires' : Option JsNumber) (alg : Option SignatureAlgorithm) :
    optionalText R (some (0x3B :: found)) expires' ≠ optionalText R (alg.map SignatureAlgorithm.text) expires := by
  intro h
  have htake := congrArg (List.take 7) h
  have hfound : (optionalText R (some (0x3B :: found)) expires').take 7 = lit ";alg=\";" := rfl
  rw [hfound] at htake
  cases alg with
  | some alg =>
    cases alg
    have hgiven : (optionalText R (some (lit "ed25519")) expires).take 7 = lit ";alg=\"e" := rfl
    exact absurd (htake.trans hgiven) (by decide)
  | none =>
    cases expires with
    | none =>
      have hgiven : (optionalText R none none).take 7 = [] := rfl
      exact absurd (htake.trans hgiven) (by decide)
    | some e =>
      have hgiven : (optionalText R none (some e)).take 7 = lit ";expire" := rfl
      exact absurd (htake.trans hgiven) (by decide)

theorem expires_optional (alg : Option SignatureAlgorithm) (expires : Option JsNumber) :
    firstMatch expiresHere (optionalText R (alg.map SignatureAlgorithm.text) expires) =
      firstMatch expiresHere (optionalText R none expires) := by
  cases alg with
  | none => rfl
  | some alg =>
    cases alg
    have hsplit : optionalText R (some (lit "ed25519")) expires =
        0x3B :: (lit "alg=" ++ (sfString (lit "ed25519") ++ optionalText R none expires)) := rfl
    have hname : firstMatch expiresHere (lit "ed25519") = none := by decide
    rw [show (some SignatureAlgorithm.ed25519).map SignatureAlgorithm.text = some (lit "ed25519") from rfl, hsplit,
      expiresHere_begins.skip_mark (forall_of_all (by decide)) _ rfl, expires_sfString, hname]
    rfl

theorem expires_own {e : JsNumber} {digits : Str} (h : (R.text e).takeWhile isDigit = digits) (hne : digits ≠ []) :
    firstMatch expiresHere (optionalText R none (some e)) = some digits := by
  have hhere : expiresHere (lit ";expires=" ++ R.text e) = some digits := by
    have hprefix : (lit ";expires=").isPrefixOf (lit ";expires=" ++ R.text e) = true :=
      List.isPrefixOf_iff_prefix.mpr (List.prefix_append _ _)
    have hdrop : (lit ";expires=" ++ R.text e).drop 9 = R.text e := rfl
    rw [expiresHere, if_pos hprefix, hdrop, h, if_neg hne]
  exact firstMatch_found hhere

/-- The first digits that a string before the optional parameters offers as an expiry. -/
def strayExpiry (keyid nonce tag : Str) : Option Str :=
  (firstMatch expiresHere keyid).orElse (fun _ =>
    (firstMatch expiresHere nonce).orElse (fun _ => firstMatch expiresHere tag))

theorem expires_found (hnum : IntegerText R.numText) (created : JsNumber) (keyid nonce tag : Str)
    (alg : Option SignatureAlgorithm) (expires : Option JsNumber) :
    firstMatch expiresHere (withRequired R created keyid nonce tag
        (optionalText R (alg.map SignatureAlgorithm.text) expires)) =
      (strayExpiry keyid nonce tag).orElse (fun _ => firstMatch expiresHere (optionalText R none expires)) := by
  rw [expires_withRequired hnum, expires_optional, strayExpiry]
  cases firstMatch expiresHere keyid with
  | some found => rfl
  | none =>
    cases firstMatch expiresHere nonce with
    | some found => rfl
    | none => rfl

def IsExpiry (expires : Option JsNumber) : Prop :=
  ∀ e, expires = some e → ∃ d : Double, e = .finite d ∧ d.isInteger = true ∧ 0 ≤ d.scaled

variable {expires : Option JsNumber}

theorem IsExpiry.finite (h : IsExpiry expires) : ∀ e, expires = some e → ∃ d, e = .finite d := by
  intro e he
  obtain ⟨d, hd, -⟩ := h e he
  exact ⟨d, hd⟩

/-- The expiry that is found is the one that was given: what a string offers is the expiry itself, and
without that the expiry is below `10 ^ 21`. -/
def ExpiryRecovered (keyid nonce tag : Str) (expires : Option JsNumber) : Prop :=
  match strayExpiry keyid nonce tag, expires with
  | none, none => True
  | none, some e => ∃ d : Double, e = .finite d ∧ d.toInt < 10 ^ 21
  | some _, none => False
  | some digits, some e => (numberOf digits).eq e = true

def SameExpiry : Option JsNumber → Option JsNumber → Prop
  | none, none => True
  | some n, some e => n.eq e = true
  | _, _ => False

theorem optional_expires_iff (hnum : NumberRendering R.numText) (alg : Option Str)
    (hexpires : ∀ e, expires = some e → ∃ d, e = .finite d) (found : Option JsNumber) :
    optionalText R alg found = optionalText R alg expires ↔ SameExpiry found expires := by
  have hne : ∀ n : JsNumber, lit ";expires=" ++ R.text n ≠ [] := by
    intro n hnil
    exact absurd (List.append_eq_nil_iff.mp hnil).1 (by decide)
  cases found with
  | none =>
    cases expires with
    | none => exact iff_of_true rfl trivial
    | some e => exact iff_of_false (fun h => hne e (List.append_cancel_left h).symm) id
  | some n =>
    cases expires with
    | none => exact iff_of_false (fun h => hne n (List.append_cancel_left h)) id
    | some e =>
      obtain ⟨d, rfl⟩ := hexpires e rfl
      rw [SameExpiry, ← text_eq_iff hnum]
      constructor
      · intro h
        exact List.append_cancel_left (List.append_cancel_left h)
      · intro h
        unfold optionalText
        simp only [h]

def foundExpiry (R : Runtime) (keyid nonce tag : Str) (expires : Option JsNumber) : Option JsNumber :=
  ((strayExpiry keyid nonce tag).orElse (fun _ => firstMatch expiresHere (optionalText R none expires))).map numberOf

theorem digit_value_lt {c : UInt16} (h : isDigit c = true) : digitsValue [c] < 10 :=
  FixedDigits.digitsValue_lt (fun _ hu => List.mem_singleton.mp hu ▸ h)

theorem large_not_found {d : Double} {c : UInt16} (hlarge : 10 ^ 21 ≤ d.toInt) (hc : isDigit c = true) :
    (numberOf [c]).eq (.finite d) = false := by
  have hlt := digit_value_lt hc
  obtain ⟨e, he, hscaled⟩ := ofInt_exact (n := digitsValue [c]) (by omega)
  rw [numberOf, he]
  refine decide_eq_false ?_
  intro hsame
  have hvalue : d.toInt = digitsValue [c] := by
    rw [Double.toInt, ← hsame, hscaled]
    exact Int.mul_ediv_cancel _ scaleOne_pos.ne'
  omega

theorem sameExpiry_found (hnum : IntegerText R.numText) (keyid nonce tag : Str) (hexpires : IsExpiry expires) :
    SameExpiry (foundExpiry R keyid nonce tag expires) expires ↔ ExpiryRecovered keyid nonce tag expires := by
  unfold foundExpiry ExpiryRecovered
  cases strayExpiry keyid nonce tag with
  | some digits =>
    cases expires with
    | none => rfl
    | some e => rfl
  | none =>
    cases expires with
    | none => exact Iff.rfl
    | some e =>
      obtain ⟨d, rfl, hinteger, hpos⟩ := hexpires e rfl
      by_cases hsmall : d.toInt < 10 ^ 21
      · obtain ⟨hdigits, hread⟩ := hnum.digits d hinteger hpos hsmall
        have htake : (R.text (.finite d)).takeWhile isDigit = R.numText d := List.takeWhile_eq_self_iff.mpr hdigits
        have hne : R.numText d ≠ [] := by
          obtain ⟨c, rest, hfirst, -⟩ := hnum.rendering.first d
          rw [hfirst]
          exact List.cons_ne_nil c rest
        have hown := expires_own htake hne
        simp only [Option.orElse, hown]
        exact iff_of_true hread ⟨d, rfl, hsmall⟩
      · obtain ⟨c, rest, htext, hc, hstop⟩ := hnum.exponent d hinteger (Int.not_lt.mp hsmall)
        have htake : (R.text (.finite d)).takeWhile isDigit = [c] := by
          rw [show R.text (.finite d) = c :: rest from htext, List.takeWhile_cons, hc]
          cases rest with
          | nil => rfl
          | cons u rest => rw [List.takeWhile_cons, hstop u rfl]; rfl
        have hown := expires_own htake (List.cons_ne_nil c [])
        simp only [Option.orElse, hown]
        refine iff_of_false ?_ ?_
        · rw [Option.map_some, SameExpiry, large_not_found (Int.not_lt.mp hsmall) hc]
          exact Bool.false_ne_true
        · rintro ⟨e, he, hlt⟩
          cases he
          exact hsmall hlt

end Params

section Verify
variable {R : Runtime}

theorem buildSignatureBase_ok {covered : List CoveredComponent} {ctx : RequestContext} {params : SignatureParams}
    {base : Str} {digest : Option Str} (h : buildSignatureBase R covered ctx params = .ok (base, digest)) :
    coveredDigest R covered ctx = .ok digest ∧ ∃ lead, base = lead ++ buildSignatureParamsValue R covered params ∧
      ∀ params', buildSignatureBase R covered ctx params' =
        .ok (lead ++ buildSignatureParamsValue R covered params', digest) := by
  obtain ⟨found, hfound, h⟩ := bind_eq_ok.mp h
  obtain ⟨lines, hlines, h⟩ := bind_eq_ok.mp h
  cases h
  have hlast : ∀ params, join 0x0A (lines ++ [quoted (lit "@signature-params") ++ lit ": " ++
      buildSignatureParamsValue R covered params]) =
      (lines.flatMap (· ++ [0x0A]) ++ (quoted (lit "@signature-params") ++ lit ": ")) ++
        buildSignatureParamsValue R covered params := by
    intro params
    rw [join_concat, List.append_assoc (lines.flatMap _)]
  refine ⟨hfound, _, hlast params, ?_⟩
  intro params'
  refine bind_eq_ok.mpr ⟨digest, hfound, bind_eq_ok.mpr ⟨lines, hlines, ?_⟩⟩
  rw [← hlast params']
  rfl

theorem stripLabel_append (label x : Str) : stripLabel (label ++ lit "=" ++ x) label = some x := by
  have hprefix : (label ++ lit "=").isPrefixOf (label ++ lit "=" ++ x) = true :=
    List.isPrefixOf_iff_prefix.mpr (List.prefix_append _ _)
  rw [stripLabel, if_pos hprefix, List.drop_left]

theorem trim_colons (text : Str) : trim (0x3A :: (text ++ [0x3A])) = 0x3A :: (text ++ [0x3A]) := by
  have hkeep : isTrimmed 0x3A = false := by decide
  rw [trim, List.dropWhile_cons, hkeep, if_neg Bool.false_ne_true, List.reverse_cons, List.reverse_append,
    List.reverse_singleton, List.append_assoc, List.singleton_append, List.dropWhile_cons, hkeep,
    if_neg Bool.false_ne_true]
  simp

theorem hex_of_buffer {n : Nat} {sigHex : Str} (heven : n % 2 = 0) (h : isLowerHexOf n sigHex = true) :
    Multibase.bytesToHex (bufferFromHex sigHex) = sigHex := by
  rw [isLowerHexOf, Bool.and_eq_true, decide_eq_true_eq, List.all_eq_true] at h
  have hback := Multibase.bytesToHex_hexToBytes sigHex (by rw [h.1, heven]) h.2
  rw [← hback, bufferFromHex_bytesToHex]

theorem extractSignatureHex_signed (label : Str) {sigHex : Str} (h : isLowerHexOf 128 sigHex = true) :
    extractSignatureHex (label ++ lit "=" ++ toByteSequence sigHex) label = some sigHex := by
  have hbytes : toByteSequence sigHex = 0x3A :: (Base64.encode (bufferFromHex sigHex) ++ [0x3A]) := rfl
  rw [extractSignatureHex, stripLabel_append, Option.bind_some, hbytes, fromByteSequence, trim_colons, if_neg]
  · rw [List.drop_one, List.tail_cons, List.dropLast_concat, Base64.decode_encode, hex_of_buffer rfl h]
  · rw [← List.cons_append, List.getLast?_concat]
    simp

theorem digestFailure_signed {covered : List CoveredComponent} {ctx : RequestContext} {digest : Option Str}
    {profile : RequestBindingProfile} (h : coveredDigest R covered ctx = .ok digest) (hcovered : profile.covered = covered)
    (hdigest : profile.inner.contentDigest = digest) : digestFailure R profile ctx = none := by
  rw [digestFailure, hcovered, hdigest]
  rw [coveredDigest] at h
  split at h
  · rename_i hmem
    rw [if_pos hmem]
    cases hbody : ctx.body with
    | none =>
      rw [hbody] at h
      cases h
    | some body =>
      rw [hbody] at h
      cases h
      exact if_neg (not_not.mpr rfl)
  · rename_i hmem
    rw [if_neg hmem]

theorem signRequest_ok {input : SignRequestInput} {profile : RequestBindingProfile}
    (h : signRequest R input = .ok profile) :
    ∃ base digest sigHex, input.coveredList ≠ [] ∧
      buildSignatureBase R input.coveredList input.request input.signedParams = .ok (base, digest) ∧
      R.sign base input.signer.privateKeyHex = some sigHex ∧
      profile = boundProfile R input base digest sigHex := by
  obtain ⟨hcovered, h⟩ := bind_unit_eq_ok.mp h
  obtain ⟨⟨base, digest⟩, hbase, h⟩ := bind_eq_ok.mp h
  obtain ⟨sigHex, hsig, h⟩ := bind_eq_ok.mp h
  refine ⟨base, digest, sigHex, ?_, hbase, ?_, ?_⟩
  · rintro hempty
    rw [hempty] at hcovered
    cases hcovered
  · rw [signBase] at hsig
    split at hsig
    · rename_i hsome
      cases hsig
      exact hsome
    · cases hsig
  · cases h
    rfl

section Fields
variable (input : SignRequestInput) (base : Str) (digest : Option Str) (sigHex : Str)

@[simp] theorem boundProfile_covered : (boundProfile R input base digest sigHex).covered = input.coveredList := rfl
@[simp] theorem boundProfile_tag : (boundProfile R input base digest sigHex).tag = input.tagText := rfl
@[simp] theorem boundProfile_created : (boundProfile R input base digest sigHex).created = input.params.created := rfl
@[simp] theorem boundProfile_base : (boundProfile R input base digest sigHex).inner.signatureBase = base := rfl

theorem stripLabel_bound :
    stripLabel (boundProfile R input base digest sigHex).inner.signatureInput
        (boundProfile R input base digest sigHex).inner.label =
      some (buildSignatureParamsValue R input.coveredList input.signedParams) :=
  stripLabel_append _ _

end Fields

/-- What is used of the signature scheme: signatures are 64 bytes in hexadecimal, and verify under
the public key. -/
structure KeyPair (R : Runtime) (privateKey publicKey : Str) : Prop where
  hex : ∀ m s, R.sign m privateKey = some s → isLowerHexOf 128 s = true
  verifies : ∀ m s, R.sign m privateKey = some s → R.verify m s publicKey = true

/-- The strings of a request that its optional parameters are recovered behind: no string before the
algorithm ends like its name, and the expiry that is found is the one given. -/
structure Recoverable (input : SignRequestInput) : Prop where
  keyid : ¬ lit ";alg=" <:+ input.keyidText
  nonce : ¬ lit ";alg=" <:+ input.params.nonce
  tag : input.params.alg ≠ none → ¬ lit ";alg=" <:+ input.tagText
  expires : ExpiryRecovered input.keyidText input.params.nonce input.tagText input.params.expires

theorem optional_recovered_iff (hnum : IntegerText R.numText) {input : SignRequestInput}
    (hexpires : IsExpiry input.params.expires) :
    optionalText R
        (firstMatch algHere (withRequired R input.params.created input.keyidText input.params.nonce input.tagText
          (optionalText R (input.params.alg.map SignatureAlgorithm.text) input.params.expires)))
        (foundExpiry R input.keyidText input.params.nonce input.tagText input.params.expires) =
      optionalText R (input.params.alg.map SignatureAlgorithm.text) input.params.expires ↔ Recoverable input := by
  rw [alg_found hnum]
  by_cases hkeyid : lit ";alg=" <:+ input.keyidText
  · rw [if_pos hkeyid]
    exact iff_of_false (optional_alg_ne (lit "nonce=") _ _ _) (fun h => h.keyid hkeyid)
  by_cases hnonce : lit ";alg=" <:+ input.params.nonce
  · rw [if_neg hkeyid, if_pos hnonce]
    exact iff_of_false (optional_alg_ne (lit "tag=") _ _ _) (fun h => h.nonce hnonce)
  by_cases htag : lit ";alg=" <:+ input.tagText ∧ input.params.alg ≠ none
  · rw [if_neg hkeyid, if_neg hnonce, if_pos htag]
    exact iff_of_false (optional_alg_ne (lit "alg=") _ _ _) (fun h => h.tag htag.2 htag.1)
  · rw [if_neg hkeyid, if_neg hnonce, if_neg htag, optional_expires_iff hnum.rendering _ hexpires.finite,
      sameExpiry_found hnum _ _ _ hexpires]
    constructor
    · intro h
      exact ⟨hkeyid, hnonce, fun halg hsuffix => htag ⟨hsuffix, halg⟩, h⟩
    · intro h
      exact h.expires

theorem withRequired_inj {created : JsNumber} {keyid nonce tag a b : Str} :
    withRequired R created keyid nonce tag a = withRequired R created keyid nonce tag b ↔ a = b := by
  rw [withRequired, withRequired]
  simp only [List.cons.injEq, List.append_cancel_left_eq, true_and]

theorem paramsValue_eq (input : SignRequestInput) :
    buildSignatureParamsValue R input.coveredList input.signedParams = serializeInnerList input.coveredList ++
      withRequired R input.params.created input.keyidText input.params.nonce input.tagText
        (optionalText R (input.params.alg.map SignatureAlgorithm.text) input.params.expires) := by
  rw [buildSignatureParamsValue, serializeParams_eq]
  rfl

theorem expires_read (hnum : IntegerText R.numText) (input : SignRequestInput) :
    (firstMatch expiresHere (buildSignatureParamsValue R input.coveredList input.signedParams)).map numberOf =
      foundExpiry R input.keyidText input.params.nonce input.tagText input.params.expires := by
  rw [paramsValue_eq, expiresHere_begins.skip (innerList_no_mark _), expires_found hnum, foundExpiry]

variable {input : SignRequestInput} {profile : RequestBindingProfile}

theorem reconstructBase_iff (hnum : IntegerText R.numText) (hsigned : signRequest R input = .ok profile)
    (hexpires : IsExpiry input.params.expires) :
    reconstructBase R profile input.request = some profile.inner.signatureBase ↔ Recoverable input := by
  obtain ⟨base, digest, sigHex, -, hbase, -, rfl⟩ := signRequest_ok hsigned
  obtain ⟨-, lead, rfl, hbuild⟩ := buildSignatureBase_ok hbase
  rw [← optional_recovered_iff hnum hexpires, reconstructBase, stripLabel_bound]
  simp only [boundProfile_covered, boundProfile_base, hbuild, Except.toOption, Option.map_some, Option.some.injEq,
    List.append_cancel_left_eq]
  rw [buildSignatureParamsValue, buildSignatureParamsValue, List.append_cancel_left_eq, serializeParams_eq,
    serializeParams_eq]
  simp only [recoveredParams, SignRequestInput.signedParams, boundProfile]
  rw [withRequired_inj]
  have halg : firstMatch algHere (buildSignatureParamsValue R input.coveredList input.signedParams) =
      firstMatch algHere (withRequired R input.params.created input.keyidText input.params.nonce input.tagText
        (optionalText R (input.params.alg.map SignatureAlgorithm.text) input.params.expires)) := by
    rw [paramsValue_eq, algHere_begins.skip (innerList_no_mark _)]
  rw [← halg, ← expires_read hnum, paramsValue_eq]

theorem lt_of_sameNumber {n e : JsNumber} (h : n.eq e = true) (now : JsNumber) : n.lt now = e.lt now := by
  cases n with
  | nan => cases h
  | finite a =>
    cases e with
    | finite b =>
      have hscaled : a.scaled = b.scaled := of_decide_eq_true h
      cases now with
      | finite c => rw [JsNumber.lt, JsNumber.lt, hscaled]
      | nan => rfl
      | infinite neg => cases neg <;> rfl
    | nan => cases h
    | infinite neg => cases h
  | infinite a =>
    cases e with
    | infinite b =>
      have hsign : a = b := of_decide_eq_true h
      rw [hsign]
    | nan => cases h
    | finite b => cases h

theorem isPast_false {n now : JsNumber} (h : n.lt now = false) : isPast n now = false := by
  cases n with
  | finite d => exact h
  | nan => rfl
  | infinite neg => rfl

theorem hasExpired_signed (hnum : IntegerText R.numText) (hsigned : signRequest R input = .ok profile)
    (hexpires : IsExpiry input.params.expires) {now : JsNumber}
    (hnow : ∀ e, input.params.expires = some e → e.lt now = false) (h : Recoverable input) :
    hasExpired profile now = false := by
  have hsame := (sameExpiry_found hnum input.keyidText input.params.nonce input.tagText hexpires).mpr h.expires
  obtain ⟨base, digest, sigHex, -, -, -, rfl⟩ := signRequest_ok hsigned
  rw [← expires_read hnum] at hsame
  rw [hasExpired, stripLabel_bound, Option.bind_some]
  cases hfound : firstMatch expiresHere (buildSignatureParamsValue R input.coveredList input.signedParams) with
  | none => rfl
  | some digits =>
    rw [hfound, Option.map_some] at hsame
    cases hgiven : input.params.expires with
    | none =>
      rw [hgiven] at hsame
      exact hsame.elim
    | some e =>
      rw [hgiven] at hsame
      have hlt := (lt_of_sameNumber hsame now).trans (hnow e hgiven)
      exact isPast_false hlt

theorem policyFailure_signed (hnum : IntegerText R.numText) (hsigned : signRequest R input = .ok profile)
    (hexpires : IsExpiry input.params.expires) {policy : VerifyPolicy} {now : JsNumber}
    (hrequired : ∀ c ∈ policy.required, c ∈ input.coveredList) (htag : input.tagText = policy.expectedTag)
    (hskew : policy.maxSkewSeconds.lt (jsAbs (now.sub input.params.created)) = false)
    (hnow : ∀ e, input.params.expires = some e → e.lt now = false) (h : Recoverable input) :
    policyFailure profile policy now = none := by
  have hpast := hasExpired_signed hnum hsigned hexpires hnow h
  obtain ⟨base, digest, sigHex, hcovered, -, -, rfl⟩ := signRequest_ok hsigned
  have hpresent : policy.required.any (fun req => !input.coveredList.any (· = req)) = false := by
    rw [List.any_eq_false]
    intro req hreq
    rw [Bool.not_eq_true', Bool.not_eq_false, List.any_eq_true]
    exact ⟨req, hrequired req hreq, decide_eq_true rfl⟩
  rw [policyFailure, boundProfile_covered, boundProfile_tag, boundProfile_created,
    if_neg (fun h => hcovered (List.length_eq_zero_iff.mp h)), hpresent, if_neg Bool.false_ne_true, if_neg (not_not.mpr htag), hskew, if_neg Bool.false_ne_true, hpast, if_neg Bool.false_ne_true]

theorem keyFailure_iff (hnum : IntegerText R.numText) (hsigned : signRequest R input = .ok profile)
    (hexpires : IsExpiry input.params.expires) {publicKey : Str} (hkey : KeyPair R input.signer.privateKeyHex publicKey)
    {keys : List VerifierKey}
    (hregistered : keys.find? (fun k => k.verificationMethod = input.keyidText) = some ⟨publicKey, input.keyidText⟩) :
    keyFailure R profile input.request keys = none ↔ Recoverable input := by
  have hiff := reconstructBase_iff hnum hsigned hexpires
  obtain ⟨base, digest, sigHex, -, hbase, hsig, rfl⟩ := signRequest_ok hsigned
  have hdigest : digestFailure R (boundProfile R input base digest sigHex) input.request = none :=
    digestFailure_signed (buildSignatureBase_ok hbase).1 rfl rfl
  have hextract : extractSignatureHex (boundProfile R input base digest sigHex).inner.signature
      (boundProfile R input base digest sigHex).inner.label = some sigHex :=
    extractSignatureHex_signed _ (hkey.hex _ _ hsig)
  rw [← hiff]
  have hfind : keys.find? (fun k => k.verificationMethod = (boundProfile R input base digest sigHex).verificationMethod) =
      some ⟨publicKey, input.keyidText⟩ := hregistered
  rw [keyFailure, hfind]
  simp only
  rw [hdigest, Option.orElse_none, baseFailure]
  cases hbuilt : reconstructBase R _ input.request with
  | none => exact iff_of_false (fun h => nomatch h) (fun h => nomatch h)
  | some reconstructed =>
    simp only [Option.some.injEq, hextract, boundProfile_base]
    by_cases hsame : reconstructed = base
    · rw [if_neg (not_not.mpr hsame), hsame, if_pos (hkey.verifies _ _ hsig)]
      exact iff_of_true rfl rfl
    · rw [if_pos hsame]
      exact iff_of_false (fun h => nomatch h) hsame

theorem orElse_eq_none {α : Type} {a b : Option α} : a.orElse (fun _ => b) = none ↔ a = none ∧ b = none := by
  cases a with
  | none => exact ⟨fun h => ⟨rfl, h⟩, fun h => h.2⟩
  | some x => exact ⟨fun h => (nomatch h), fun h => (nomatch h.1)⟩

/-- The verifier holds the signer's key under the key id and asks for no more than the signer gave:
the components, the tag, a fresh date, an expiry that has not passed and a nonce it has not seen. -/
structure Admissible {σ : Type} (R : Runtime) (S : NonceStore σ) (input : SignRequestInput) (publicKey : Str)
    (clockSeconds : JsNumber) (keys : List VerifierKey) (policy : VerifyPolicy) (nonceStore : Option σ) : Prop where
  expiry : IsExpiry input.params.expires
  keyPair : KeyPair R input.signer.privateKeyHex publicKey
  registered : keys.find? (fun k => k.verificationMethod = input.keyidText) = some ⟨publicKey, input.keyidText⟩
  required : ∀ c ∈ policy.required, c ∈ input.coveredList
  tag : input.tagText = policy.expectedTag
  fresh : policy.maxSkewSeconds.lt (jsAbs ((policy.nowSeconds.getD clockSeconds).sub input.params.created)) = false
  unexpired : ∀ e, input.params.expires = some e → e.lt (policy.nowSeconds.getD clockSeconds) = false
  unseen : ∀ store, nonceStore = some store → S.seen store input.params.nonce = false

/-- A request is accepted as it was signed exactly if the verifier recovers its optional parameters. -/
theorem signed_request_accepted_iff {σ : Type} {S : NonceStore σ} (hnum : IntegerText R.numText)
    (hsigned : signRequest R input = .ok profile) {publicKey : Str} {clockSeconds : JsNumber} {keys : List VerifierKey}
    {policy : VerifyPolicy} {nonceStore : Option σ}
    (h : Admissible R S input publicKey clockSeconds keys policy nonceStore) :
    (verifyRequest R S clockSeconds profile input.request keys policy nonceStore).1.isValid = true ↔
      Recoverable input := by
  have hkeys := keyFailure_iff hnum hsigned h.expiry h.keyPair h.registered
  have hnonce : profile.nonce = input.params.nonce := by
    obtain ⟨base, digest, sigHex, -, -, -, rfl⟩ := signRequest_ok hsigned
    rfl
  unfold verifyRequest
  constructor
  · intro hvalid
    cases hfailure : (policyFailure profile policy (policy.nowSeconds.getD clockSeconds)).orElse
        (fun _ => keyFailure R profile input.request keys) with
    | none => exact hkeys.mp (orElse_eq_none.mp hfailure).2
    | some reason =>
      rw [hfailure] at hvalid
      cases hvalid
  · intro hrecoverable
    have hpolicy := policyFailure_signed hnum hsigned h.expiry h.required h.tag h.fresh h.unexpired hrecoverable
    rw [orElse_eq_none.mpr ⟨hpolicy, hkeys.mpr hrecoverable⟩]
    cases nonceStore with
    | none => rfl
    | some store =>
      simp only [hnonce, h.unseen store rfl]
      rfl

end Verify

/-- Agrees with the text of a number on the integers from zero up to `10 ^ 21`. -/
def plainText (d : Double) : Str :=
  if d.isInteger = true ∧ 0 ≤ d.scaled ∧ d.toInt < 10 ^ 21 then decimal d.toInt.toNat
  else lit "0.e" ++ intText d.scaled

theorem plainText_units (d : Double) : ∀ c ∈ plainText d, NumberUnit c := by
  intro c hc
  unfold plainText at hc
  split at hc
  · exact .inl (decimal_digits hc)
  · obtain hc | hc := List.mem_append.mp hc
    · have hlead : ∀ c ∈ lit "0.e", isDigit c = true ∨ c = 0x2E ∨ c = 0x65 := forall_of_all (by decide)
      obtain hdigit | hpoint | hmark := hlead c hc
      · exact .inl hdigit
      · exact .inr (.inr (.inr (.inl hpoint)))
      · exact .inr (.inr (.inr (.inr hmark)))
    · obtain hdigit | hminus := intText_units hc
      · exact .inl hdigit
      · exact .inr (.inr (.inl hminus))

theorem toInt_nonneg {d : Double} (h : 0 ≤ d.scaled) : 0 ≤ d.toInt := Int.ediv_nonneg h scaleOne_pos.le

theorem plainText_same (d e : Double) : plainText d = plainText e ↔ d.scaled = e.scaled := by
  constructor
  · intro h
    have hpoint : ∀ (n : Nat) (z : Int), decimal n ≠ lit "0.e" ++ intText z := by
      intro n z heq
      have hdigit : isDigit 0x2E = true := decimal_digits (n := n) (by
        rw [heq]
        exact List.mem_append_left _ (List.mem_cons_of_mem _ List.mem_cons_self))
      revert hdigit
      decide
    unfold plainText at h
    split at h
    · rename_i hd
      split at h
      · rename_i he
        have hvalue := decimal_injective h
        have hdpos := toInt_nonneg hd.2.1
        have hepos := toInt_nonneg he.2.1
        rw [toInt_scaled hd.1, toInt_scaled he.1, show d.toInt = e.toInt by omega]
      · exact absurd h (hpoint _ _)
    · split at h
      · exact absurd h.symm (hpoint _ _)
      · exact intText_injective (List.append_cancel_left h)
  · intro h
    have hint : d.toInt = e.toInt := by rw [Double.toInt, Double.toInt, h]
    have hinteger : d.isInteger = e.isInteger := by rw [Double.isInteger, Double.isInteger, h]
    rw [plainText, plainText, h, hint, hinteger]

theorem plainText_rendering : IntegerText plainText := by
  refine ⟨⟨plainText_same, plainText_units, ?_⟩, ?_, ?_⟩
  · intro d
    unfold plainText
    split
    · obtain ⟨c, rest, hc⟩ := List.exists_cons_of_ne_nil (decimal_ne_nil d.toInt.toNat)
      exact ⟨c, rest, hc, .inl (decimal_digits (hc ▸ List.mem_cons_self))⟩
    · exact ⟨_, _, rfl, .inl (by decide)⟩
  · intro d hinteger hpos hsmall
    have htext : plainText d = decimal d.toInt.toNat := if_pos ⟨hinteger, hpos, hsmall⟩
    rw [htext]
    refine ⟨fun c hc => decimal_digits hc, ?_⟩
    have hvalue : ((digitsValue (decimal d.toInt.toNat) : Nat) : Int) * scaleOne = d.scaled := by
      rw [digitsValue_decimal, Int.toNat_of_nonneg (toInt_nonneg hpos), ← toInt_scaled hinteger]
    obtain ⟨e, he, hscaled⟩ := nearest_scaled d
    rw [numberOf, JsNumber.ofInt, hvalue, he]
    exact decide_eq_true hscaled
  · intro d hinteger hlarge
    have htext : plainText d = lit "0.e" ++ intText d.scaled := if_neg (fun h => absurd h.2.2 (Int.not_lt.mpr hlarge))
    refine ⟨0x30, lit ".e" ++ intText d.scaled, htext, by decide, ?_⟩
    intro u hu
    cases hu
    decide

/-- A runtime that signs the bases that are listed, under one key, and digests the bodies that are. -/
def tableRuntime (bodies : List (List UInt8 × Str)) (signatures : List (Str × Str)) (privateKey publicKey : Str) :
    Runtime where
  numText := plainText
  sha256 := ofTable bodies
  sign m key := if key = privateKey then (signatures.find? (fun row => row.1 = m)).map Prod.snd else none
  verify m sigHex key := key = publicKey && signatures.any (fun row => row.1 = m && row.2 = sigHex)
  parseUrl url :=
    if url = lit "https://example.com/foo?param=Value" then some ⟨lit "example.com", [], lit "https:", lit "/foo"⟩
    else none
  toUpperCase s := s.map (fun c => if 0x61 ≤ c && c ≤ 0x7A then c - 0x20 else c)
  toLowerCase := toLowerCase

theorem tableRuntime_keyPair {bodies : List (List UInt8 × Str)} {signatures : List (Str × Str)}
    {privateKey publicKey : Str} (hhex : signatures.all (fun row => isLowerHexOf 128 row.2) = true) :
    KeyPair (tableRuntime bodies signatures privateKey publicKey) privateKey publicKey := by
  have hrow : ∀ m s, (tableRuntime bodies signatures privateKey publicKey).sign m privateKey = some s →
      (m, s) ∈ signatures := by
    intro m s h
    have hsign : (signatures.find? (fun row => row.1 = m)).map Prod.snd = some s := (if_pos rfl).symm.trans h
    obtain ⟨row, hfind, rfl⟩ := Option.map_eq_some_iff.mp hsign
    have hm := List.find?_some hfind
    rw [decide_eq_true_eq] at hm
    rw [← hm]
    exact List.mem_of_find?_eq_some hfind
  constructor
  · intro m s h
    exact List.all_eq_true.mp hhex (m, s) (hrow m s h)
  · intro m s h
    have hany : signatures.any (fun row => row.1 = m && row.2 = s) = true :=
      List.any_eq_true.mpr ⟨(m, s), hrow m s h, by simp⟩
    exact Bool.and_eq_true_iff.mpr ⟨decide_eq_true rfl, hany⟩

def plainInput (privateKey verificationMethod : Str) (created : JsNumber) (body : Option (List UInt8))
    (covered : Option (List CoveredComponent)) (nonce : Str) (alg : Option SignatureAlgorithm)
    (expires : Option JsNumber) : SignRequestInput where
  request := ⟨lit "post", lit "https://example.com/foo?param=Value", body⟩
  signer := ⟨privateKey, verificationMethod⟩
  params := ⟨created, nonce, none, none, alg, expires⟩
  covered := covered
  label := none
  receiptHash := none
  scopeOfClaim := none

def plainPolicy (maxSkewSeconds now : JsNumber) : VerifyPolicy :=
  ⟨APS_REQUEST_BINDING_TAG, maxSkewSeconds, none, some now⟩

theorem plainInput_admissible {bodies : List (List UInt8 × Str)} {signatures : List (Str × Str)}
    {privateKey publicKey verificationMethod nonce : Str} {body : Option (List UInt8)}
    {covered : Option (List CoveredComponent)} (hcovered : DEFAULT_COVERED ⊆ covered.getD DEFAULT_COVERED)
    (hhex : signatures.all (fun row => isLowerHexOf 128 row.2) = true)
    {created maxSkewSeconds now clockSeconds : JsNumber}
    {alg : Option SignatureAlgorithm} {expires : Option JsNumber} (hexpiry : IsExpiry expires)
    (hfresh : maxSkewSeconds.lt (jsAbs (now.sub created)) = false) (hnow : ∀ e, expires = some e → e.lt now = false) :
    Admissible (tableRuntime bodies signatures privateKey publicKey) InMemoryNonceStore
      (plainInput privateKey verificationMethod created body covered nonce alg expires) publicKey clockSeconds
      [⟨publicKey, verificationMethod⟩] (plainPolicy maxSkewSeconds now) (some []) where
  expiry := hexpiry
  keyPair := tableRuntime_keyPair hhex
  registered := List.find?_cons_of_pos (decide_eq_true rfl)
  required _ hc := hcovered hc
  tag := rfl
  fresh := hfresh
  unexpired := hnow
  unseen store hstore := by
    rw [← Option.some.inj hstore]
    rfl

theorem isExpiry_ofInt {n : Nat} (h : n < 2 ^ 53) : IsExpiry (some (.ofInt n)) := by
  intro e he
  obtain ⟨d, hd, hscaled⟩ := ofInt_exact h
  refine ⟨d, (Option.some.inj he).symm.trans hd, ?_, ?_⟩
  · rw [Double.isInteger, decide_eq_true_eq, hscaled]
    exact Int.mul_emod_left _ _
  · rw [hscaled]
    exact Int.mul_nonneg (Int.natCast_nonneg n) scaleOne_pos.le

theorem recovered_ofInt {keyid nonce tag : Str} (hstray : strayExpiry keyid nonce tag = none) {n : Nat}
    (h : n < 2 ^ 53) : ExpiryRecovered keyid nonce tag (some (.ofInt n)) := by
  obtain ⟨d, hd, hscaled⟩ := ofInt_exact h
  have hvalue : d.toInt = n := by
    rw [Double.toInt, hscaled]
    exact Int.mul_ediv_cancel _ scaleOne_pos.ne'
  unfold ExpiryRecovered
  rw [hstray]
  exact ⟨d, hd, by omega⟩

def samplePrivateKey : Str := lit "0101010101010101010101010101010101010101010101010101010101010101"
def samplePublicKey : Str := lit "8a88e3dd7409f195fd52db2d3cba5d72ca6709bf1d94121bf3748801b40f6f5c"

def sampleSignatures : List (Str × Str) :=
  [(lit "\"@method\": POST\n\"@authority\": example.com\n\"@path\": /foo\n\"content-digest\": sha-256=:foTL8PenySwDcFhmXWYVL464WAqyU05SyHe8zOucx78=:\n\"@signature-params\": (\"@method\" \"@authority\" \"@path\" \"content-digest\");created=1618884475;keyid=\"did:key:z6Mk#z6Mk\";nonce=\"b3k2\";tag=\"aps-rfc9421-request-binding-v1\";alg=\"ed25519\";expires=1618884775",
    lit "fa653b781f3df3bcd4e06f22c2df32d83cd457f34d6d926795d495f2b6cdcb8ccab842dd8ee080fc9fd9a6da02aea359ceec1e94630ce11618cc38d9dc1e4106"),
   (lit "\"@method\": POST\n\"@authority\": example.com\n\"@path\": /foo\n\"@signature-params\": (\"@method\" \"@authority\" \"@path\");created=1618884475;keyid=\"did:key:z6Mk#z6Mk\";nonce=\"b3k2;expires=1\";tag=\"aps-rfc9421-request-binding-v1\"",
    lit "b02387152db5ce85ddc3cb8d5ebb381c63e4fb980ea88ed99eaf2f5627592f9529ea8ef749a321b0603a1b6eb251260fffe86ab394d90843cda9a13ff845c40b"),
   (lit "\"@method\": POST\n\"@path\": /foo\n\"@signature-params\": (\"@method\" \"@path\");created=1618884475;keyid=\"did:key:z6Mk#z6Mk\";nonce=\"a\\\";expires=1\";tag=\"aps-rfc9421-request-binding-v1\";expires=1618884775",
    lit "0c4fa9c80ae547ac24cf7a325d8cd458ab0261818dbba3e0de843ad6cd4eb61b2153600670cb3dd2e334ddd417bd414cf1bf72fb3c574d8db33865b7f3e7f800")]

def sampleBody : List UInt8 := ascii "\x7b\"amount\":5\x7d"

def sampleRuntime : Runtime := tableRuntime
  [(sampleBody, lit "7e84cbf0f7a7c92c037058665d66152f8eb8580ab2534e52c877bccceb9cc7bf")]
  sampleSignatures samplePrivateKey samplePublicKey

def sampleInput (body : Option (List UInt8)) (covered : Option (List CoveredComponent)) (nonce : Str)
    (alg : Option SignatureAlgorithm) (expires : Option JsNumber) : SignRequestInput :=
  plainInput samplePrivateKey (lit "did:key:z6Mk#z6Mk") (.ofInt (1618884475 : Nat)) body covered nonce alg expires

def bodyCovered : List CoveredComponent := DEFAULT_COVERED ++ [.contentDigest]

def bodyInput : SignRequestInput :=
  sampleInput (some sampleBody) (some bodyCovered) (lit "b3k2") (some .ed25519) (some (.ofInt (1618884775 : Nat)))

def strayInput : SignRequestInput := sampleInput none none (lit "b3k2;expires=1") none none

theorem sample_admissible (body : Option (List UInt8)) (covered : Option (List CoveredComponent))
    (hcovered : DEFAULT_COVERED ⊆ covered.getD DEFAULT_COVERED) (nonce : Str) (alg : Option SignatureAlgorithm)
    {expires : Option JsNumber} (hexpiry : IsExpiry expires)
    (hnow : ∀ e, expires = some e → e.lt (.ofInt (1618884500 : Nat)) = false) :
    Admissible sampleRuntime InMemoryNonceStore (sampleInput body covered nonce alg expires) samplePublicKey .nan
      [⟨samplePublicKey, lit "did:key:z6Mk#z6Mk"⟩] (plainPolicy (.ofInt (300 : Nat)) (.ofInt (1618884500 : Nat)))
      (some []) := by
  have hhex : sampleSignatures.all (fun row => isLowerHexOf 128 row.2) = true := by decide +kernel
  have hskew : (JsNumber.ofInt (300 : Nat)).lt
      (jsAbs ((JsNumber.ofInt (1618884500 : Nat)).sub (.ofInt (1618884475 : Nat)))) = false := by
    decide +kernel
  exact plainInput_admissible hcovered hhex hexpiry hskew hnow

/-- A request with a body, an algorithm and an expiry is accepted. -/
theorem plain_request_accepted :
    ∃ profile, signRequest sampleRuntime bodyInput = .ok profile ∧
      (verifyRequest sampleRuntime InMemoryNonceStore .nan profile bodyInput.request
        [⟨samplePublicKey, lit "did:key:z6Mk#z6Mk"⟩] (plainPolicy (.ofInt (300 : Nat)) (.ofInt (1618884500 : Nat)))
        (some [])).1.isValid = true := by
  have hok : (signRequest sampleRuntime bodyInput).isOk = true := by decide +kernel
  obtain ⟨profile, hsigned⟩ := exists_of_isOk hok
  have hunexpired : (JsNumber.ofInt (1618884775 : Nat)).lt (.ofInt (1618884500 : Nat)) = false := by decide +kernel
  have hadmissible := sample_admissible (some sampleBody) (some bodyCovered) (List.subset_append_left _ _)
    (lit "b3k2") (some .ed25519) (isExpiry_ofInt (by decide)) (fun e he => Option.some.inj he ▸ hunexpired)
  have hstray : strayExpiry (lit "did:key:z6Mk#z6Mk") (lit "b3k2") APS_REQUEST_BINDING_TAG = none := by decide
  refine ⟨profile, hsigned, (signed_request_accepted_iff plainText_rendering hsigned hadmissible).mpr ?_⟩
  exact ⟨by decide, by decide, fun _ => by decide, recovered_ofInt hstray (by decide)⟩

/-- The nonce ends in what reads as an expiry long past: the request is rejected as expired. -/
theorem stray_expiry_rejected :
    IntegerText sampleRuntime.numText ∧
    Admissible sampleRuntime InMemoryNonceStore strayInput samplePublicKey .nan
      [⟨samplePublicKey, lit "did:key:z6Mk#z6Mk"⟩] (plainPolicy (.ofInt (300 : Nat)) (.ofInt (1618884500 : Nat)))
      (some []) ∧
    (signRequest sampleRuntime strayInput).toOption.map (fun profile =>
      (verifyRequest sampleRuntime InMemoryNonceStore .nan profile strayInput.request
        [⟨samplePublicKey, lit "did:key:z6Mk#z6Mk"⟩] (plainPolicy (.ofInt (300 : Nat)) (.ofInt (1618884500 : Nat)))
        (some [])).1) = some (.invalid .expired) := by
  refine ⟨plainText_rendering, sample_admissible none none (List.Subset.refl DEFAULT_COVERED) (lit "b3k2;expires=1") none
    (fun e he => nomatch he) (fun e he => nomatch he), ?_⟩
  decide +kernel

end AgentPassport.RequestBinding
