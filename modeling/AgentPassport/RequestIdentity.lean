import AgentPassport.RequestBindingComplete

/-! The signature base identifies the request that it was built for. A line is read up to its line
feed, and a quoted string of the parameters up to the first quote that nothing escapes. -/
namespace AgentPassport.RequestIdentity
open JsText Js SeparatedText TextSearch Outcome CanonicalInjective Utf8 RequestBinding

def isTokenUnit (c : UInt16) : Bool :=
  isDigit c || (0x41 ≤ c && c ≤ 0x5A) || (0x61 ≤ c && c ≤ 0x7A) || (lit "!#$%&'*+-.^_`|~").any (· = c)

def IsToken (s : Str) : Prop := s ≠ [] ∧ ∀ c ∈ s, isTokenUnit c = true

def upper (c : UInt16) : UInt16 := if 0x61 ≤ c && c ≤ 0x7A then c - 0x20 else c

section Runtime
variable (R : Runtime)

/-- `toUpperCase` on a token. -/
def TokenUpper : Prop := ∀ s, IsToken s → R.toUpperCase s = s.map upper

def UrlLines : Prop :=
  ∀ text url, R.parseUrl text = some url → 0x0A ∉ deriveAuthority R url ∧ 0x0A ∉ derivePath url

/-- What is read of a URL is made of Unicode scalar values. -/
def UrlScalars : Prop :=
  ∀ text url, R.parseUrl text = some url → WellFormed (deriveAuthority R url) ∧ WellFormed (derivePath url)

/-- The signature does not verify over the bytes of both messages when these differ. -/
def MessageBound (m m' sigHex key : Str) : Prop :=
  R.verify m sigHex key = true → R.verify m' sigHex key = true → utf8 m = utf8 m'

/-- The same components are covered, and each has the same value. -/
structure SameRequest (covered covered' : List CoveredComponent) (ctx ctx' : RequestContext) : Prop where
  components : covered = covered'
  method : .method ∈ covered → R.toUpperCase ctx.method = R.toUpperCase ctx'.method
  authority : .authority ∈ covered → ∃ url url', R.parseUrl ctx.url = some url ∧ R.parseUrl ctx'.url = some url' ∧
    deriveAuthority R url = deriveAuthority R url'
  path : .path ∈ covered → ∃ url url', R.parseUrl ctx.url = some url ∧ R.parseUrl ctx'.url = some url' ∧
    derivePath url = derivePath url'
  contentDigest : .contentDigest ∈ covered → ∃ body body', ctx.body = some body ∧ ctx'.body = some body' ∧
    computeContentDigest R body = computeContentDigest R body'

end Runtime

structure IntegerDates (params : SignatureParams) : Prop where
  created : ∃ d : Double, params.created = .finite d ∧ d.isInteger = true
  expires : ∀ e, params.expires = some e → ∃ d : Double, e = .finite d ∧ d.isInteger = true

structure SameParams (params params' : SignatureParams) : Prop where
  created : params.created.eq params'.created = true
  keyid : params.keyid = params'.keyid
  nonce : params.nonce = params'.nonce
  tag : params.tag = params'.tag
  alg : params.alg = params'.alg
  expires : SameExpiry params.expires params'.expires

def bytesParams (params : SignatureParams) : SignatureParams where
  created := params.created
  keyid := toWellFormed params.keyid
  nonce := toWellFormed params.nonce
  tag := toWellFormed params.tag
  alg := params.alg.map toWellFormed
  expires := params.expires

def baseText (R : Runtime) (covered : List CoveredComponent) (value : CoveredComponent → Str)
    (params : SignatureParams) : Str :=
  covered.flatMap (fun c => quoted c.text ++ lit ": " ++ value c ++ [0x0A]) ++
    (quoted (lit "@signature-params") ++ lit ": " ++ buildSignatureParamsValue R covered params)

section Lines
variable {R : Runtime}

theorem buildSignatureBase_text {covered : List CoveredComponent} {ctx : RequestContext} {params : SignatureParams}
    {base : Str} {digest : Option Str} (h : buildSignatureBase R covered ctx params = .ok (base, digest)) :
    coveredDigest R covered ctx = .ok digest ∧ ∃ value, base = baseText R covered value params ∧
      ∀ c ∈ covered, resolveComponentValue R ctx digest c = .ok (value c) := by
  obtain ⟨found, hfound, h⟩ := bind_eq_ok.mp h
  obtain ⟨lines, hlines, h⟩ := bind_eq_ok.mp h
  cases h
  obtain ⟨value, rfl, hvalue⟩ := mapM_values hlines
  refine ⟨hfound, value, ?_, hvalue⟩
  rw [join_concat, List.flatMap_map]
  rfl

theorem quoted_unique {s t a b : Str} (hs : 0x22 ∉ s) (ht : 0x22 ∉ t) (h : quoted s ++ a = quoted t ++ b) :
    s = t ∧ a = b := by
  rw [quoted, quoted, List.cons_append, List.cons_append, List.append_assoc, List.append_assoc] at h
  exact mark_unique hs ht (List.cons.inj h).2

theorem text_quote (c : CoveredComponent) : 0x22 ∉ c.text := by
  cases c
  all_goals decide

theorem text_ne_params (c : CoveredComponent) : c.text ≠ lit "@signature-params" := by
  cases c
  all_goals decide

theorem text_injective : Function.Injective CoveredComponent.text := by
  intro c d h
  cases c <;> cases d <;> first | rfl | exact absurd h (by decide)

theorem lines_unique {covered covered' : List CoveredComponent} {value value' : CoveredComponent → Str}
    (hvalue : ∀ c ∈ covered, 0x0A ∉ value c) (hvalue' : ∀ c ∈ covered', 0x0A ∉ value' c) {a b : Str}
    (h : covered.flatMap (fun c => quoted c.text ++ lit ": " ++ value c ++ [0x0A]) ++
        (quoted (lit "@signature-params") ++ a) =
      covered'.flatMap (fun c => quoted c.text ++ lit ": " ++ value' c ++ [0x0A]) ++
        (quoted (lit "@signature-params") ++ b)) :
    covered = covered' ∧ (∀ c ∈ covered, value c = value' c) ∧ a = b := by
  have hname : 0x22 ∉ lit "@signature-params" := by decide
  induction covered generalizing covered' with
  | nil =>
    cases covered' with
    | nil => exact ⟨rfl, List.forall_mem_nil _, (quoted_unique hname hname h).2⟩
    | cons d rest' =>
      rw [List.flatMap_nil, List.nil_append, List.flatMap_cons] at h
      simp only [List.append_assoc] at h
      exact absurd (quoted_unique hname (text_quote d) h).1.symm (text_ne_params d)
  | cons c rest ih =>
    obtain ⟨hc, hrest⟩ := List.forall_mem_cons.mp hvalue
    cases covered' with
    | nil =>
      rw [List.flatMap_nil, List.nil_append, List.flatMap_cons] at h
      simp only [List.append_assoc] at h
      exact absurd (quoted_unique (text_quote c) hname h).1 (text_ne_params c)
    | cons d rest' =>
      obtain ⟨hd, hrest'⟩ := List.forall_mem_cons.mp hvalue'
      rw [List.flatMap_cons, List.flatMap_cons] at h
      simp only [List.append_assoc] at h
      obtain ⟨htext, hbehind⟩ := quoted_unique (text_quote c) (text_quote d) h
      obtain ⟨hline, hnext⟩ := mark_unique hc hd (List.append_cancel_left hbehind)
      have hcd : c = d := text_injective htext
      simp only [← List.append_assoc] at hnext ih
      obtain ⟨rfl, hall, hab⟩ := ih hrest hrest' hnext
      subst hcd
      exact ⟨rfl, List.forall_mem_cons.mpr ⟨hline, hall⟩, hab⟩

end Lines

section Params
variable {R : Runtime}

theorem sfString_unique {v w a b : Str} (h : sfString v ++ a = sfString w ++ b) : v = w ∧ a = b := by
  rw [sfString, sfString, quoted, quoted, List.cons_append, List.cons_append, List.append_assoc, List.append_assoc] at h
  exact escape_unique (by decide) (List.cons.inj h).2

theorem optionalText_unique (hnum : NumberRendering R.numText) {alg alg' : Option Str}
    {expires expires' : Option JsNumber} (hexpires : ∀ e, expires' = some e → ∃ d, e = .finite d)
    (h : optionalText R alg expires = optionalText R alg' expires') : alg = alg' ∧ SameExpiry expires expires' := by
  have hbegin : ∀ (v : Str) (e e' : Option JsNumber), optionalText R (some v) e ≠ optionalText R none e' := by
    intro v e e' heq
    have htake := congrArg (List.take 3) heq
    cases e' with
    | none => cases htake
    | some n =>
      have hleft : (optionalText R (some v) e).take 3 = lit ";al" := rfl
      have hright : (optionalText R none (some n)).take 3 = lit ";ex" := rfl
      rw [hleft, hright] at htake
      exact absurd htake (by decide)
  cases alg with
  | none =>
    cases alg' with
    | none => exact ⟨rfl, (optional_expires_iff hnum none hexpires expires).mp h⟩
    | some w => exact absurd h.symm (hbegin w _ _)
  | some v =>
    cases alg' with
    | none => exact absurd h (hbegin v _ _)
    | some w =>
      have hsplit : ∀ (u : Str) (e : Option JsNumber),
          optionalText R (some u) e = lit ";alg=" ++ (sfString u ++ optionalText R none e) := fun u e => rfl
      rw [hsplit, hsplit] at h
      obtain ⟨hvw, hrest⟩ := sfString_unique (List.append_cancel_left h)
      exact ⟨congrArg some hvw, (optional_expires_iff hnum none hexpires expires).mp hrest⟩

theorem serializeParams_unique (hnum : NumberRendering R.numText) {params params' : SignatureParams}
    (hdates : IntegerDates params') (h : serializeParams R params = serializeParams R params') :
    SameParams params params' := by
  have hplain : ∀ n, 0x3B ∉ R.text n := fun n hmem => (text_plain hnum n 0x3B hmem).1 rfl
  rw [serializeParams_eq, serializeParams_eq, withRequired, withRequired, List.append_assoc, List.append_assoc] at h
  obtain ⟨hcreated, h⟩ := mark_unique (hplain params.created) (hplain params'.created)
    (List.append_cancel_left (List.cons.inj h).2)
  obtain ⟨hkeyid, h⟩ := sfString_unique (List.append_cancel_left h)
  obtain ⟨hnonce, h⟩ := sfString_unique (List.append_cancel_left (List.cons.inj h).2)
  obtain ⟨htag, h⟩ := sfString_unique (List.append_cancel_left (List.cons.inj h).2)
  have hexpires : ∀ e, params'.expires = some e → ∃ d, e = .finite d := by
    intro e he
    obtain ⟨d, hd, -⟩ := hdates.expires e he
    exact ⟨d, hd⟩
  obtain ⟨halg, hsame⟩ := optionalText_unique hnum hexpires h
  obtain ⟨d, hd, -⟩ := hdates.created
  rw [hd] at hcreated
  have hnumber : params.created.eq params'.created = true := hd ▸ (text_eq_iff hnum params.created d).mp hcreated
  exact ⟨hnumber, hkeyid, hnonce, htag, halg, hsame⟩

theorem baseText_unique (hnum : NumberRendering R.numText) {covered covered' : List CoveredComponent}
    {value value' : CoveredComponent → Str} {params params' : SignatureParams} (hdates : IntegerDates params')
    (hvalue : ∀ c ∈ covered, 0x0A ∉ value c) (hvalue' : ∀ c ∈ covered', 0x0A ∉ value' c)
    (h : baseText R covered value params = baseText R covered' value' params') :
    covered = covered' ∧ (∀ c ∈ covered, value c = value' c) ∧ SameParams params params' := by
  rw [baseText, baseText, List.append_assoc (quoted _), List.append_assoc (quoted _)] at h
  obtain ⟨rfl, hsame, hbehind⟩ := lines_unique hvalue hvalue' h
  have hparams := List.append_cancel_left hbehind
  rw [buildSignatureParamsValue, buildSignatureParamsValue] at hparams
  exact ⟨rfl, hsame, serializeParams_unique hnum hdates (List.append_cancel_left hparams)⟩

end Params

variable {s : Str}

theorem toWellFormed_plain (h : Plain s) (t : Str) : toWellFormed (s ++ t) = s ++ toWellFormed t :=
  toWellFormed_append h.wellFormed t

theorem toWellFormed_cons {c : UInt16} (hc : c.toNat < 0x80) (t : Str) : toWellFormed (c :: t) = c :: toWellFormed t :=
  toWellFormed_at [] hc t

theorem toWellFormed_escape {mark unit : UInt16} (hmark : mark.toNat < 0x80) (hunit : unit.toNat < 0x80) (v : Str) :
    toWellFormed (escape mark unit v) = escape mark unit (toWellFormed v) := by
  -- the part up to the next symbol that is escaped is carried along
  have hlead : ∀ lead : Str, unit ∉ lead →
      toWellFormed (lead ++ escape mark unit v) = escape mark unit (toWellFormed (lead ++ v)) := by
    induction v with
    | nil =>
      intro lead hlead
      rw [show escape mark unit ([] : Str) = [] from rfl, List.append_nil,
        escape_free (notMem_toWellFormed hunit hlead)]
    | cons c v ih =>
      intro lead hlead
      rw [escape_cons]
      by_cases hc : c = unit
      · subst hc
        have hnext := ih [] List.not_mem_nil
        rw [List.nil_append, List.nil_append] at hnext
        rw [if_pos rfl, List.cons_append, List.cons_append, List.nil_append, toWellFormed_at lead hmark,
          toWellFormed_cons hunit, hnext, toWellFormed_at lead hunit, escape_append,
          escape_free (notMem_toWellFormed hunit hlead), escape_cons, if_pos rfl]
        rfl
      · have hfront : unit ∉ lead ++ [c] := by
          rw [List.mem_append, not_or, List.mem_singleton]
          exact ⟨hlead, fun h => hc h.symm⟩
        have hnext := ih (lead ++ [c]) hfront
        rw [List.append_assoc, List.append_assoc] at hnext
        rw [if_neg hc]
        exact hnext
  exact hlead [] List.not_mem_nil

theorem toWellFormed_sfString (v rest : Str) :
    toWellFormed (sfString v ++ rest) = sfString (toWellFormed v) ++ toWellFormed rest := by
  have hsplit : ∀ w x : Str, sfString w ++ x = 0x22 :: (escape 0x5C 0x22 (escape 0x5C 0x5C w) ++ 0x22 :: x) := by
    intro w x
    rw [sfString, quoted, List.cons_append, List.append_assoc]
    rfl
  rw [hsplit, toWellFormed_cons (by decide), toWellFormed_at _ (by decide), toWellFormed_escape (by decide) (by decide),
    toWellFormed_escape (by decide) (by decide), hsplit]

section Bytes
variable {R : Runtime}

theorem text_ascii (hnum : NumberRendering R.numText) (n : JsNumber) : Plain (R.text n) := by
  have hunit : ∀ c, NumberUnit c → c.toNat < 0x80 := by
    rintro c (hdigit | rfl | rfl | rfl | rfl)
    · rw [isDigit, Bool.and_eq_true, decide_eq_true_eq, decide_eq_true_eq, UInt16.le_iff_toNat_le,
        UInt16.le_iff_toNat_le] at hdigit
      exact Nat.lt_of_le_of_lt hdigit.2 (by decide)
    all_goals decide
  cases n with
  | finite d => exact fun c hc => hunit c (hnum.units d c hc)
  | nan => exact forall_of_all (s := lit "NaN") (by decide)
  | infinite neg =>
    cases neg with
    | false => exact forall_of_all (s := lit "Infinity") (by decide)
    | true => exact forall_of_all (s := lit "-Infinity") (by decide)

theorem toWellFormed_optional (hnum : NumberRendering R.numText) (alg : Option Str) (expires : Option JsNumber) :
    toWellFormed (optionalText R alg expires) = optionalText R (alg.map toWellFormed) expires := by
  have hexpires : Plain (optionalText R none expires) := by
    cases expires with
    | none => exact fun c hc => absurd hc List.not_mem_nil
    | some e =>
      have htext : Plain (lit ";expires=" ++ R.text e) :=
        List.forall_mem_append.mpr ⟨forall_of_all (by decide), text_ascii hnum e⟩
      exact htext
  cases alg with
  | none => exact toWellFormed_eq hexpires.wellFormed
  | some v =>
    have hsplit : ∀ u : Str,
        optionalText R (some u) expires = lit ";alg=" ++ (sfString u ++ optionalText R none expires) := fun u => rfl
    rw [Option.map_some, hsplit, hsplit, toWellFormed_plain (forall_of_all (by decide)), toWellFormed_sfString,
      toWellFormed_eq hexpires.wellFormed]

theorem toWellFormed_params (hnum : NumberRendering R.numText) (params : SignatureParams) :
    toWellFormed (serializeParams R params) = serializeParams R (bytesParams params) := by
  have hmark : (0x3B : UInt16).toNat < 0x80 := by decide
  have hcreated : Plain (lit "created=" ++ R.text params.created) :=
    List.forall_mem_append.mpr ⟨forall_of_all (by decide), text_ascii hnum _⟩
  rw [serializeParams_eq, serializeParams_eq, withRequired, withRequired, toWellFormed_cons hmark,
    toWellFormed_plain hcreated, toWellFormed_cons hmark, toWellFormed_plain (forall_of_all (by decide)),
    toWellFormed_sfString, toWellFormed_cons hmark, toWellFormed_plain (forall_of_all (by decide)),
    toWellFormed_sfString, toWellFormed_cons hmark, toWellFormed_plain (forall_of_all (by decide)),
    toWellFormed_sfString, toWellFormed_optional hnum]
  rfl

theorem innerList_ascii (covered : List CoveredComponent) : Plain (serializeInnerList covered) := by
  have hcomponent : ∀ component : CoveredComponent, (quoted component.text).all (·.toNat < 0x80) = true := by
    intro component
    cases component
    all_goals decide
  refine List.forall_mem_append.mpr ⟨List.forall_mem_append.mpr ⟨forall_of_all (by decide), ?_⟩,
    forall_of_all (by decide)⟩
  intro c hc
  obtain rfl | ⟨part, hpart, hc⟩ := mem_join hc
  · decide
  · obtain ⟨component, -, rfl⟩ := List.mem_map.mp hpart
    exact forall_of_all (hcomponent component) c hc

theorem toWellFormed_lines (covered : List CoveredComponent) (value : CoveredComponent → Str) (rest : Str) :
    toWellFormed (covered.flatMap (fun c => quoted c.text ++ lit ": " ++ value c ++ [0x0A]) ++ rest) =
      covered.flatMap (fun c => quoted c.text ++ lit ": " ++ toWellFormed (value c) ++ [0x0A]) ++ toWellFormed rest := by
  have hname : ∀ component : CoveredComponent, (quoted component.text ++ lit ": ").all (·.toNat < 0x80) = true := by
    intro component
    cases component
    all_goals decide
  induction covered with
  | nil => rfl
  | cons c covered ih =>
    have hline : ∀ v a b : Str, (quoted c.text ++ lit ": " ++ v ++ [0x0A]) ++ a ++ b =
        (quoted c.text ++ lit ": ") ++ (v ++ 0x0A :: (a ++ b)) := by
      intro v a b
      simp only [List.append_assoc, List.cons_append, List.nil_append]
    rw [List.flatMap_cons, List.flatMap_cons, hline, hline, toWellFormed_plain (forall_of_all (hname c)),
      toWellFormed_at _ (by decide), ih]

theorem toWellFormed_baseText (hnum : NumberRendering R.numText) (covered : List CoveredComponent)
    (value : CoveredComponent → Str) (params : SignatureParams) :
    toWellFormed (baseText R covered value params) =
      baseText R covered (fun c => toWellFormed (value c)) (bytesParams params) := by
  have hname : Plain (quoted (lit "@signature-params") ++ lit ": ") := forall_of_all (by decide)
  rw [baseText, toWellFormed_lines, toWellFormed_plain hname, buildSignatureParamsValue,
    toWellFormed_plain (innerList_ascii covered), toWellFormed_params hnum]
  rfl

end Bytes

/-- Characters of ASCII that are neither blank nor control characters. -/
def IsVisible (s : Str) : Prop := ∀ c ∈ s, 0x20 < c.toNat ∧ c.toNat < 0x7F

theorem IsVisible.line (h : IsVisible s) : 0x0A ∉ s := by
  intro hmem
  exact absurd (h 0x0A hmem).1 (by decide)

theorem IsVisible.plain (h : IsVisible s) : Plain s := fun c hc => Nat.lt_trans (h c hc).2 (by decide)

theorem token_visible (h : IsToken s) : IsVisible (s.map upper) := by
  have hunit : ∀ c, isTokenUnit c = true → 0x20 < (upper c).toNat ∧ (upper c).toNat < 0x7F := by
    intro c hc
    have hother : ∀ d ∈ lit "!#$%&'*+-.^_`|~", 0x20 < d.toNat ∧ d.toNat < 0x7F := forall_of_all (by decide)
    have hrange : 0x20 < c.toNat ∧ c.toNat < 0x7F := by
      simp only [isTokenUnit, isDigit, Bool.or_eq_true, Bool.and_eq_true, decide_eq_true_eq, UInt16.le_iff_toNat_le,
        List.any_eq_true] at hc
      obtain ((hdigit | hletter) | hletter) | ⟨d, hd, rfl⟩ := hc
      · exact ⟨Nat.lt_of_lt_of_le (by decide) hdigit.1, Nat.lt_of_le_of_lt hdigit.2 (by decide)⟩
      · exact ⟨Nat.lt_of_lt_of_le (by decide) hletter.1, Nat.lt_of_le_of_lt hletter.2 (by decide)⟩
      · exact ⟨Nat.lt_of_lt_of_le (by decide) hletter.1, Nat.lt_of_le_of_lt hletter.2 (by decide)⟩
      · exact hother d hd
    rw [upper]
    split
    · rename_i hlower
      rw [Bool.and_eq_true, decide_eq_true_eq, decide_eq_true_eq, UInt16.le_iff_toNat_le,
        UInt16.le_iff_toNat_le] at hlower
      have hle : (0x20 : UInt16) ≤ c := UInt16.le_iff_toNat_le.mpr (Nat.le_trans (by decide) hlower.1)
      have hlo : (0x61 : UInt16).toNat = 0x61 := rfl
      have hsub : (0x20 : UInt16).toNat = 0x20 := rfl
      rw [UInt16.toNat_sub_of_le _ _ hle, hsub]
      omega
    · exact hrange
  intro c hc
  obtain ⟨d, hd, rfl⟩ := List.mem_map.mp hc
  exact hunit d (h.2 d hd)

section Values
variable {R : Runtime} {ctx : RequestContext} {digest : Option Str}

theorem digest_visible (body : List UInt8) : IsVisible (computeContentDigest R body) := by
  have hsextet : ∀ n < 64, 0x20 < (Base64.sextetChar n).toNat ∧ (Base64.sextetChar n).toNat < 0x7F := by decide
  refine List.forall_mem_append.mpr ⟨List.forall_mem_append.mpr ⟨forall_of_all (by decide), ?_⟩,
    forall_of_all (by decide)⟩
  refine List.forall_mem_append.mpr ⟨?_, ?_⟩
  · intro c hc
    obtain ⟨n, hn, rfl⟩ := List.mem_map.mp hc
    exact hsextet n (Base64.toSextets_lt _ n hn)
  · intro c hc
    rw [List.eq_of_mem_replicate hc]
    decide

variable {covered : List CoveredComponent}

theorem coveredDigest_value {d : Str} (h : coveredDigest R covered ctx = .ok digest) (hd : digest = some d) :
    ∃ body, ctx.body = some body ∧ d = computeContentDigest R body := by
  rw [coveredDigest] at h
  split at h
  · cases hbody : ctx.body with
    | none =>
      rw [hbody] at h
      cases h
    | some body =>
      rw [hbody] at h
      cases h
      exact ⟨body, rfl, (Option.some.inj hd).symm⟩
  · cases h
    cases hd

variable {value : Str}

theorem method_value (h : resolveComponentValue R ctx digest .method = .ok value) :
    value = R.toUpperCase ctx.method := (Except.ok.inj h).symm

theorem url_value {read : Url → Str} (h : (parsedUrl R ctx).map read = .ok value) :
    ∃ url, R.parseUrl ctx.url = some url ∧ value = read url := by
  rw [parsedUrl] at h
  cases hurl : R.parseUrl ctx.url with
  | none =>
    rw [hurl] at h
    cases h
  | some url =>
    rw [hurl] at h
    exact ⟨url, rfl, (Except.ok.inj h).symm⟩

theorem digest_value (hdigest : coveredDigest R covered ctx = .ok digest)
    (h : resolveComponentValue R ctx digest .contentDigest = .ok value) :
    ∃ body, ctx.body = some body ∧ value = computeContentDigest R body := by
  cases hfound : digest with
  | none =>
    rw [hfound] at h
    cases h
  | some d =>
    rw [hfound] at h
    rw [← Except.ok.inj h]
    exact coveredDigest_value hdigest hfound

theorem value_of_visible {p : Str → Prop} (hvisible : ∀ s, IsVisible s → p s) (hupper : TokenUpper R)
    (hurl : ∀ text url, R.parseUrl text = some url → p (deriveAuthority R url) ∧ p (derivePath url))
    (hmethod : IsToken ctx.method) (hdigest : coveredDigest R covered ctx = .ok digest) {c : CoveredComponent}
    (h : resolveComponentValue R ctx digest c = .ok value) : p value := by
  cases c with
  | method =>
    rw [method_value h, hupper ctx.method hmethod]
    exact hvisible _ (token_visible hmethod)
  | authority =>
    obtain ⟨url, hparsed, rfl⟩ := url_value h
    exact (hurl ctx.url url hparsed).1
  | path =>
    obtain ⟨url, hparsed, rfl⟩ := url_value h
    exact (hurl ctx.url url hparsed).2
  | contentDigest =>
    obtain ⟨body, -, rfl⟩ := digest_value hdigest h
    exact hvisible _ (digest_visible body)

theorem sameRequest_of_values {ctx' : RequestContext} {digest' : Option Str} {value value' : CoveredComponent → Str}
    (hdigest : coveredDigest R covered ctx = .ok digest) (hdigest' : coveredDigest R covered ctx' = .ok digest')
    (hvalue : ∀ c ∈ covered, resolveComponentValue R ctx digest c = .ok (value c))
    (hvalue' : ∀ c ∈ covered, resolveComponentValue R ctx' digest' c = .ok (value' c))
    (hsame : ∀ c ∈ covered, value c = value' c) : SameRequest R covered covered ctx ctx' where
  components := rfl
  method hc := by
    rw [← method_value (hvalue _ hc), ← method_value (hvalue' _ hc), hsame _ hc]
  authority hc := by
    obtain ⟨url, hurl, hread⟩ := url_value (hvalue _ hc)
    obtain ⟨url', hurl', hread'⟩ := url_value (hvalue' _ hc)
    exact ⟨url, url', hurl, hurl', by rw [← hread, ← hread', hsame _ hc]⟩
  path hc := by
    obtain ⟨url, hurl, hread⟩ := url_value (hvalue _ hc)
    obtain ⟨url', hurl', hread'⟩ := url_value (hvalue' _ hc)
    exact ⟨url, url', hurl, hurl', by rw [← hread, ← hread', hsame _ hc]⟩
  contentDigest hc := by
    obtain ⟨body, hbody, hread⟩ := digest_value hdigest (hvalue _ hc)
    obtain ⟨body', hbody', hread'⟩ := digest_value hdigest' (hvalue' _ hc)
    exact ⟨body, body', hbody, hbody', by rw [← hread, ← hread', hsame _ hc]⟩

end Values

/-- Equal bases were built for the same request under the same parameters. A signature verifies over
the bytes of a base, so one that verifies over two was made for one request and one expiry. -/
theorem signature_base_identifies {R : Runtime} (hnum : NumberRendering R.numText) (hupper : TokenUpper R)
    (hlines : UrlLines R) {covered covered' : List CoveredComponent} {ctx ctx' : RequestContext}
    {params params' : SignatureParams} (hmethod : IsToken ctx.method) (hmethod' : IsToken ctx'.method)
    (hdates : IntegerDates params') {base base' : Str} {digest digest' : Option Str}
    (hbase : buildSignatureBase R covered ctx params = .ok (base, digest))
    (hbase' : buildSignatureBase R covered' ctx' params' = .ok (base', digest')) :
    (base = base' → SameRequest R covered covered' ctx ctx' ∧ SameParams params params') ∧
    (UrlScalars R → ∀ sigHex publicKey, MessageBound R base base' sigHex publicKey →
      R.verify base sigHex publicKey = true → R.verify base' sigHex publicKey = true →
      SameRequest R covered covered' ctx ctx' ∧
        SameExpiry params.expires params'.expires ∧ SameParams (bytesParams params) (bytesParams params')) := by
  obtain ⟨hdigest, value, rfl, hvalue⟩ := buildSignatureBase_text hbase
  obtain ⟨hdigest', value', rfl, hvalue'⟩ := buildSignatureBase_text hbase'
  have hline : ∀ c ∈ covered, 0x0A ∉ value c := fun c hc =>
    value_of_visible (fun _ h => h.line) hupper hlines hmethod hdigest (hvalue c hc)
  have hline' : ∀ c ∈ covered', 0x0A ∉ value' c := fun c hc =>
    value_of_visible (fun _ h => h.line) hupper hlines hmethod' hdigest' (hvalue' c hc)
  constructor
  · intro hsame
    obtain ⟨rfl, hvalues, hparams⟩ := baseText_unique hnum hdates hline hline' hsame
    exact ⟨sameRequest_of_values hdigest hdigest' hvalue hvalue' hvalues, hparams⟩
  · intro hscalars sigHex publicKey hbound hverified hverified'
    have hkept : ∀ c ∈ covered, toWellFormed (value c) = value c := fun c hc => toWellFormed_eq
      (value_of_visible (fun _ h => h.plain.wellFormed) hupper hscalars hmethod hdigest (hvalue c hc))
    have hkept' : ∀ c ∈ covered', toWellFormed (value' c) = value' c := fun c hc => toWellFormed_eq
      (value_of_visible (fun _ h => h.plain.wellFormed) hupper hscalars hmethod' hdigest' (hvalue' c hc))
    have hbytes := toWellFormed_of_bytes (hbound hverified hverified')
    rw [toWellFormed_baseText hnum, toWellFormed_baseText hnum] at hbytes
    have hdates' : IntegerDates (bytesParams params') := ⟨hdates.created, hdates.expires⟩
    obtain ⟨rfl, hvalues, hparams⟩ := baseText_unique hnum hdates' (fun c hc => (hkept c hc).symm ▸ hline c hc)
      (fun c hc => (hkept' c hc).symm ▸ hline' c hc) hbytes
    have hsame : ∀ c ∈ covered, value c = value' c := by
      intro c hc
      rw [← hkept c hc, hvalues c hc, hkept' c hc]
    exact ⟨sameRequest_of_values hdigest hdigest' hvalue hvalue' hsame, hparams.expires, hparams⟩

def spelledContext (method : String) : RequestContext := ⟨lit method, lit "https://example.com/foo?param=Value", none⟩

def quotingParams : SignatureParams where
  created := .ofInt (1618884475 : Nat)
  keyid := lit "did:key:z6Mk#z6Mk"
  nonce := lit "a\";expires=1"
  tag := APS_REQUEST_BINDING_TAG
  alg := none
  expires := some (.ofInt (1618884775 : Nat))

def quotingSignature : Str :=
  lit "0c4fa9c80ae547ac24cf7a325d8cd458ab0261818dbba3e0de843ad6cd4eb61b" ++
    lit "2153600670cb3dd2e334ddd417bd414cf1bf72fb3c574d8db33865b7f3e7f800"

/-- The two spellings of a method give one base, signed once: that of one request. -/
theorem signature_base_identifies_spelled :
    ∃ base digest base' digest',
      buildSignatureBase sampleRuntime [.method, .path] (spelledContext "post") quotingParams = .ok (base, digest) ∧
      buildSignatureBase sampleRuntime [.method, .path] (spelledContext "POST") quotingParams = .ok (base', digest') ∧
      SameRequest sampleRuntime [.method, .path] [.method, .path] (spelledContext "post") (spelledContext "POST") ∧
      sampleRuntime.verify base quotingSignature samplePublicKey = true ∧
      SameExpiry quotingParams.expires quotingParams.expires := by
  have hparsed : ∀ text url, sampleRuntime.parseUrl text = some url →
      url = ⟨lit "example.com", [], lit "https:", lit "/foo"⟩ := by
    intro text url h
    by_cases htext : text = lit "https://example.com/foo?param=Value"
    · exact (Option.some.inj ((if_pos htext).symm.trans h)).symm
    · exact nomatch (if_neg htext).symm.trans h
  have hlines : UrlLines sampleRuntime := by
    intro text url h
    rw [hparsed text url h]
    decide
  have hscalars : UrlScalars sampleRuntime := by
    intro text url h
    rw [hparsed text url h]
    decide
  have hdates : IntegerDates quotingParams := by
    have hinteger : ∀ n : Nat, n < 2 ^ 53 → ∃ d : Double, JsNumber.ofInt n = .finite d ∧ d.isInteger = true := by
      intro n hn
      obtain ⟨d, hd, hwhole, -⟩ := isExpiry_ofInt hn _ rfl
      exact ⟨d, hd, hwhole⟩
    constructor
    · unfold quotingParams
      dsimp only
      exact hinteger 1618884475 (by decide)
    · intro e he
      unfold quotingParams at he
      rw [← Option.some.inj he]
      exact hinteger 1618884775 (by decide)
  have htoken : ∀ s : Str, s ≠ [] → s.all isTokenUnit = true → IsToken s := fun s hne hall =>
    ⟨hne, List.all_eq_true.mp hall⟩
  obtain ⟨base, hbase, hverified⟩ : ∃ base,
      buildSignatureBase sampleRuntime [.method, .path] (spelledContext "post") quotingParams = .ok (base, none) ∧
        sampleRuntime.verify base quotingSignature samplePublicKey = true :=
    ⟨_, rfl, by decide +kernel⟩
  have hbase' : buildSignatureBase sampleRuntime [.method, .path] (spelledContext "POST") quotingParams =
      .ok (base, none) := hbase
  have hboth := signature_base_identifies plainText_rendering.rendering (fun _ _ => rfl) hlines
    (htoken _ (by decide) (by decide)) (htoken _ (by decide) (by decide)) hdates hbase hbase'
  exact ⟨base, none, base, none, hbase, hbase', (hboth.1 rfl).1, hverified,
    (hboth.2 hscalars quotingSignature samplePublicKey (fun _ _ => rfl) hverified hverified).2.1⟩

end AgentPassport.RequestIdentity
