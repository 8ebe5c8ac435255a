import AgentPassport.Base64Url
import AgentPassport.Outcome
import AgentPassport.Sha256

/-! Selection of one Ed25519 key from a JWK Set: signing candidacy, the raw key, the kid and the validity
window, and a survivor that must be alone. -/
namespace AgentPassport.KeySelection
open Js JsText Base64Url Multibase Outcome
open Sha256 (toLowerCase)

inductive Status where
  | not_found | ambiguous | malformed
  deriving DecidableEq

structure Selected where
  jwk : JsValue
  publicKeyHex : Str
  kid : JsValue

structure Failure where
  status : Status
  reason : Str

abbrev JWKSelection := Except Failure Selected

structure SelectKeyOptions where
  kid : Option Str
  issuedAtMs : JsValue
  publicKeyHex : Option Str

/-- `string | SelectKeyOptions`, or nothing. -/
inductive Selector where
  | omitted
  | kid (kid : Str)
  | options (opts : SelectKeyOptions)

def Selector.opts : Selector → SelectKeyOptions
  | .omitted => ⟨none, .undefined, none⟩
  | .kid text => ⟨some text, .undefined, none⟩
  | .options opts => opts

def isUndefined : JsValue → Bool
  | .undefined => true
  | _ => false

def isText (text : Str) : JsValue → Bool
  | .str s => s = text
  | _ => false

def isNonEmptyText : JsValue → Bool
  | .str s => s.length ≠ 0
  | _ => false

def isEd25519SigningCandidate (jwk : JsValue) : Bool :=
  if !jwk.isObject then false
  else if !isText (lit "OKP") (jwk.get (lit "kty")) then false
  else if !isText (lit "Ed25519") (jwk.get (lit "crv")) then false
  else if !isNonEmptyText (jwk.get (lit "x")) then false
  else if !isUndefined (jwk.get (lit "d")) then false
  else if !isUndefined (jwk.get (lit "use")) && !isText (lit "sig") (jwk.get (lit "use")) then false
  else if !isUndefined (jwk.get (lit "alg")) && !isText (lit "EdDSA") (jwk.get (lit "alg")) then false
  else match jwk.get (lit "key_ops") with
    | .undefined => true
    | .arr ops => ops.any (isText (lit "verify"))
    | _ => false

def candidateToHex (jwk : JsValue) : Option Str :=
  match jwk.get (lit "x") with
  | .str x =>
    match decodeBase64Url x with
    | some bytes => if bytes.length ≠ 32 then none else some (bytesToHex bytes)
    | none => none
  | _ => none

def windowCovers (jwk : JsValue) (t : JsNumber) : Bool :=
  match jwk.get (lit "cycles_nbf_ms") with
  | .num nbf =>
    if !nbf.isInteger then false
    else if t.lt nbf then false
    else match jwk.get (lit "cycles_exp_ms") with
      | .undefined => true
      | .null => true
      | .num exp => if !exp.isInteger then false else t.lt exp
      | _ => false
  | _ => false

def notFound (reason : Str) : Failure := ⟨.not_found, reason⟩

def duplicateKid (kid : Str) : Failure := ⟨.ambiguous, lit "duplicate kid='" ++ kid ++ lit "' in JWK Set"⟩

/-- A filter that must leave something. -/
def requireSome (reason : Str) (candidates : List JsValue) : Except Failure (List JsValue) :=
  if candidates.length = 0 then throw (notFound reason) else return candidates

/-- The loop over `seen`: the first kid that stands twice. -/
def firstDuplicate (seen : List Str) : List JsValue → Option Str
  | [] => none
  | c :: rest =>
    match c.get (lit "kid") with
    | .str kid => if kid ∈ seen then some kid else firstDuplicate (kid :: seen) rest
    | _ => firstDuplicate seen rest

/-- On the authority paths a kid must be unique across the whole set. -/
def checkKids (opts : SelectKeyOptions) (candidates : List JsValue) : Except Failure Unit :=
  if !isUndefined opts.issuedAtMs || opts.publicKeyHex.isSome then
    match firstDuplicate [] candidates with
    | some kid => throw (duplicateKid kid)
    | none => return ()
  else return ()

/-- `typeof value === 'number' && Number.isInteger(value)`. -/
def isIntegerValue : JsValue → Bool
  | .num n => n.isInteger
  | _ => false

def matchSigner (opts : SelectKeyOptions) (candidates : List JsValue) : Except Failure (List JsValue) :=
  match opts.publicKeyHex with
  | none => return candidates
  | some hex =>
    if !isIntegerValue opts.issuedAtMs then
      throw (notFound (lit "raw-hex signer selection requires an integer issuedAtMs (window gate)"))
    else requireSome (lit "no JWK carries the raw signer key")
      (candidates.filter (fun c => candidateToHex c = some (toLowerCase hex)))

def matchKid (opts : SelectKeyOptions) (candidates : List JsValue) : Except Failure (List JsValue) :=
  match opts.kid with
  | none => return candidates
  | some kid => do
    let found ← requireSome (lit "no key with kid='" ++ kid ++ lit "'")
      (candidates.filter (fun c => isText kid (c.get (lit "kid"))))
    if 1 < found.length then throw (duplicateKid kid) else return found

def gateWindow (opts : SelectKeyOptions) (candidates : List JsValue) : Except Failure (List JsValue) :=
  match opts.issuedAtMs with
  | .undefined => return candidates
  | .num t =>
    if !t.isInteger then throw (notFound (lit "issuedAtMs must be an integer epoch-ms value"))
    else requireSome (lit "no key whose validity window covers issued_at_ms")
      (candidates.filter (fun c => windowCovers c t))
  | _ => throw (notFound (lit "issuedAtMs must be an integer epoch-ms value"))

/-- The end of the selection. No filter leaves an empty list, so there is a first key. -/
def soleKey (candidates : List JsValue) : JWKSelection :=
  if 1 < candidates.length then throw ⟨.ambiguous, lit "more than one key matches the selection criteria"⟩
  else
    let jwk := candidates.headD .undefined
    match candidateToHex jwk with
    | none => throw ⟨.malformed, lit "selected key x is not a 32-byte key"⟩
    | some hex => return ⟨jwk, hex, jwk.get (lit "kid")⟩

def selectKey (keys : List JsValue) (sel : Selector) : JWKSelection := do
  let opts := sel.opts
  let candidates ← requireSome (lit "no Ed25519 signing key in JWKS") (keys.filter isEd25519SigningCandidate)
  checkKids opts candidates
  let candidates ← matchSigner opts candidates
  let candidates ← matchKid opts candidates
  let candidates ← gateWindow opts candidates
  soleKey candidates

def integer? : JsValue → Option Int
  | .num (.finite d) => if d.isInteger then some d.toInt else none
  | _ => none

/-- The validity window of a key: it starts at an integer, and ends before an integer or never. -/
def InWindow (jwk : JsValue) (t : Int) : Prop :=
  ∃ nbf, integer? (jwk.get (lit "cycles_nbf_ms")) = some nbf ∧ nbf ≤ t ∧
    (jwk.get (lit "cycles_exp_ms") = .undefined ∨ jwk.get (lit "cycles_exp_ms") = .null ∨
      ∃ exp, integer? (jwk.get (lit "cycles_exp_ms")) = some exp ∧ t < exp)

/-- A signing candidate that meets every criterion that is given. -/
structure Satisfies (opts : SelectKeyOptions) (jwk : JsValue) : Prop where
  candidate : isEd25519SigningCandidate jwk = true
  signer : ∀ hex, opts.publicKeyHex = some hex → candidateToHex jwk = some (toLowerCase hex)
  kid : ∀ kid, opts.kid = some kid → jwk.get (lit "kid") = .str kid
  window : opts.issuedAtMs = .undefined ∨ ∃ t, integer? opts.issuedAtMs = some t ∧ InWindow jwk t

def kid? (jwk : JsValue) : Option Str :=
  match jwk.get (lit "kid") with
  | .str kid => some kid
  | _ => none

def OnAuthorityPath (opts : SelectKeyOptions) : Prop := opts.issuedAtMs ≠ .undefined ∨ opts.publicKeyHex ≠ none

/-- No two signing candidates of the set have the same kid. -/
def DistinctKids (keys : List JsValue) : Prop := ((keys.filter isEd25519SigningCandidate).filterMap kid?).Nodup

theorem isUndefined_iff {v : JsValue} : isUndefined v = true ↔ v = .undefined := by
  cases v <;> simp [isUndefined]

theorem isText_iff {text : Str} {v : JsValue} : isText text v = true ↔ v = .str text := by
  cases v <;> simp [isText]

theorem scaled_lt_iff {a b : Double} (ha : a.isInteger = true) (hb : b.isInteger = true) :
    a.scaled < b.scaled ↔ a.toInt < b.toInt := by
  rw [toInt_scaled ha, toInt_scaled hb]
  exact Int.mul_lt_mul_right scaleOne_pos

theorem integer?_num {n : JsNumber} {t : Int} :
    integer? (.num n) = some t ↔ ∃ d : Double, n = .finite d ∧ d.isInteger = true ∧ d.toInt = t := by
  cases n with
  | finite d => simp [integer?]
  | nan => simp [integer?]
  | infinite neg => simp [integer?]

theorem isInteger_iff {n : JsNumber} : n.isInteger = true ↔ ∃ d : Double, n = .finite d ∧ d.isInteger = true := by
  cases n with
  | finite d => simp [JsNumber.isInteger]
  | nan => simp [JsNumber.isInteger]
  | infinite neg => simp [JsNumber.isInteger]

theorem lt_iff {a b : Double} (ha : a.isInteger = true) (hb : b.isInteger = true) :
    (JsNumber.finite a).lt (.finite b) = true ↔ a.toInt < b.toInt := by
  rw [JsNumber.lt, decide_eq_true_eq, scaled_lt_iff ha hb]

variable {jwk : JsValue}

theorem windowCovers_started {nbf d : Double} (hnbf : jwk.get (lit "cycles_nbf_ms") = .num (.finite nbf))
    (hint : nbf.isInteger = true) (hd : d.isInteger = true) (hle : nbf.toInt ≤ d.toInt) :
    windowCovers jwk (.finite d) = true ↔
      jwk.get (lit "cycles_exp_ms") = .undefined ∨ jwk.get (lit "cycles_exp_ms") = .null ∨
        ∃ exp, integer? (jwk.get (lit "cycles_exp_ms")) = some exp ∧ d.toInt < exp := by
  have hnot : ¬(JsNumber.finite d).lt (.finite nbf) = true := by
    rw [lt_iff hd hint]
    omega
  have hnbfInt : (JsNumber.finite nbf).isInteger = true := hint
  rw [windowCovers, hnbf]
  dsimp only
  rw [hnbfInt, if_neg (by decide), if_neg hnot]
  cases hexp : jwk.get (lit "cycles_exp_ms") with
  | num exp =>
    dsimp only
    by_cases hexpInt : exp.isInteger = true
    · obtain ⟨stop, rfl, hstop⟩ := isInteger_iff.mp hexpInt
      rw [hexpInt, if_neg (by decide), lt_iff hd hstop]
      simp [integer?, hstop]
    · have hnone : integer? (.num exp) = none :=
        Option.eq_none_iff_forall_ne_some.mpr fun t ht => by
          obtain ⟨stop, rfl, hstop, -⟩ := integer?_num.mp ht
          exact hexpInt hstop
      simp [hexpInt, hnone]
  | _ => simp [integer?]

theorem windowCovers_iff {d : Double} (hd : d.isInteger = true) :
    windowCovers jwk (.finite d) = true ↔ InWindow jwk d.toInt := by
  constructor
  · intro h
    cases hnbf : jwk.get (lit "cycles_nbf_ms") with
    | num nbf =>
      have hstart := h
      rw [windowCovers, hnbf] at hstart
      dsimp only at hstart
      split at hstart
      · cases hstart
      rename_i hint
      split at hstart
      · cases hstart
      rename_i hnot
      obtain ⟨start, rfl, hinteger⟩ := isInteger_iff.mp (by simpa using hint)
      rw [lt_iff hd hinteger, Int.not_lt] at hnot
      exact ⟨start.toInt, by rw [hnbf]; exact integer?_num.mpr ⟨start, rfl, hinteger, rfl⟩, hnot,
        (windowCovers_started hnbf hinteger hd hnot).mp h⟩
    | _ =>
      rw [windowCovers, hnbf] at h
      cases h
  · rintro ⟨nbf, hnbf, hle, hexp⟩
    cases hstart : jwk.get (lit "cycles_nbf_ms") with
    | num n =>
      rw [hstart] at hnbf
      obtain ⟨start, rfl, hint, rfl⟩ := integer?_num.mp hnbf
      exact (windowCovers_started hstart hint hd hle).mpr hexp
    | _ =>
      rw [hstart] at hnbf
      cases hnbf

def signerMatches (opts : SelectKeyOptions) (jwk : JsValue) : Bool :=
  match opts.publicKeyHex with
  | none => true
  | some hex => candidateToHex jwk = some (toLowerCase hex)

def kidMatches (opts : SelectKeyOptions) (jwk : JsValue) : Bool :=
  match opts.kid with
  | none => true
  | some kid => isText kid (jwk.get (lit "kid"))

def windowMatches (opts : SelectKeyOptions) (jwk : JsValue) : Bool :=
  match opts.issuedAtMs with
  | .undefined => true
  | .num t => t.isInteger && windowCovers jwk t
  | _ => false

def satisfies (opts : SelectKeyOptions) (jwk : JsValue) : Bool :=
  isEd25519SigningCandidate jwk && signerMatches opts jwk && kidMatches opts jwk && windowMatches opts jwk

theorem windowMatches_iff {opts : SelectKeyOptions} : windowMatches opts jwk = true ↔
      opts.issuedAtMs = .undefined ∨ ∃ t, integer? opts.issuedAtMs = some t ∧ InWindow jwk t := by
  rw [windowMatches]
  cases opts.issuedAtMs with
  | num n =>
    dsimp only
    rw [Bool.and_eq_true]
    constructor
    · rintro ⟨hint, hcovers⟩
      obtain ⟨d, rfl, hd⟩ := isInteger_iff.mp hint
      exact .inr ⟨d.toInt, integer?_num.mpr ⟨d, rfl, hd, rfl⟩, (windowCovers_iff hd).mp hcovers⟩
    · rintro (hnone | ⟨t, ht, hwindow⟩)
      · cases hnone
      · obtain ⟨d, rfl, hd, rfl⟩ := integer?_num.mp ht
        exact ⟨hd, (windowCovers_iff hd).mpr hwindow⟩
  | _ => simp [integer?]

theorem satisfies_iff {opts : SelectKeyOptions} : satisfies opts jwk = true ↔ Satisfies opts jwk := by
  have hsigner : signerMatches opts jwk = true ↔
      ∀ hex, opts.publicKeyHex = some hex → candidateToHex jwk = some (toLowerCase hex) := by
    rw [signerMatches]
    cases opts.publicKeyHex <;> simp
  have hkid : kidMatches opts jwk = true ↔ ∀ kid, opts.kid = some kid → jwk.get (lit "kid") = .str kid := by
    rw [kidMatches]
    cases opts.kid <;> simp [isText_iff]
  rw [satisfies, Bool.and_eq_true, Bool.and_eq_true, Bool.and_eq_true, hsigner, hkid, windowMatches_iff]
  constructor
  · rintro ⟨⟨⟨hcandidate, hsigner⟩, hkid⟩, hwindow⟩
    exact ⟨hcandidate, hsigner, hkid, hwindow⟩
  · rintro ⟨hcandidate, hsigner, hkid, hwindow⟩
    exact ⟨⟨⟨hcandidate, hsigner⟩, hkid⟩, hwindow⟩

instance (opts : SelectKeyOptions) (jwk : JsValue) : Decidable (Satisfies opts jwk) :=
  decidable_of_iff _ satisfies_iff

variable {candidates rest : List JsValue}

theorem requireSome_ok {reason : Str} :
    requireSome reason candidates = .ok rest ↔ rest = candidates ∧ candidates ≠ [] := by
  cases candidates with
  | nil => simp [requireSome, throw, throwThe, MonadExceptOf.throw]
  | cons c cs => simp [requireSome, pure, Except.pure, eq_comm]

theorem firstDuplicate_none (seen : List Str) (candidates : List JsValue) :
    firstDuplicate seen candidates = none ↔
      (candidates.filterMap kid?).Nodup ∧ ∀ kid ∈ candidates.filterMap kid?, kid ∉ seen := by
  induction candidates generalizing seen with
  | nil => simp [firstDuplicate]
  | cons c rest ih =>
    rw [firstDuplicate]
    cases hkid : c.get (lit "kid") with
    | str kid =>
      have hsome : kid? c = some kid := by rw [kid?, hkid]
      rw [List.filterMap_cons_some hsome]
      dsimp only
      by_cases hseen : kid ∈ seen
      · simp [hseen]
      · rw [if_neg hseen, ih]
        simp only [List.nodup_cons, List.mem_cons, not_or, forall_eq_or_imp]
        constructor
        · rintro ⟨hnodup, hfresh⟩
          exact ⟨⟨fun hmem => (hfresh kid hmem).1 rfl, hnodup⟩, hseen, fun k hk => (hfresh k hk).2⟩
        · rintro ⟨⟨hnot, hnodup⟩, -, hfresh⟩
          exact ⟨hnodup, fun k hk => ⟨fun heq => hnot (heq ▸ hk), hfresh k hk⟩⟩
    | _ =>
      have hnone : kid? c = none := by rw [kid?, hkid]
      rw [List.filterMap_cons_none hnone]
      exact ih seen

theorem onAuthorityPath_iff {opts : SelectKeyOptions} :
    (!isUndefined opts.issuedAtMs || opts.publicKeyHex.isSome) = true ↔ OnAuthorityPath opts := by
  rw [OnAuthorityPath, Bool.or_eq_true, Bool.not_eq_true', ← Bool.not_eq_true, isUndefined_iff, ne_eq, ne_eq,
    Option.isSome_iff_ne_none]

theorem checkKids_ok {opts : SelectKeyOptions} {candidates : List JsValue} :
    checkKids opts candidates = .ok () ↔ (OnAuthorityPath opts → (candidates.filterMap kid?).Nodup) := by
  have hnone := firstDuplicate_none [] candidates
  simp only [List.not_mem_nil, not_false_eq_true, implies_true, and_true] at hnone
  rw [← hnone, ← onAuthorityPath_iff, checkKids]
  split
  · rename_i hpath
    cases firstDuplicate [] candidates with
    | none => simp [pure, Except.pure]
    | some kid => simp [throw, throwThe, MonadExceptOf.throw, hpath]
  · rename_i hpath
    simp [pure, Except.pure, hpath]

theorem matchSigner_ok {opts : SelectKeyOptions} (hne : candidates ≠ []) : matchSigner opts candidates = .ok rest ↔
      rest = candidates.filter (signerMatches opts) ∧ rest ≠ [] ∧
        (opts.publicKeyHex ≠ none → isIntegerValue opts.issuedAtMs = true) := by
  rw [matchSigner, funext (signerMatches.eq_1 opts)]
  cases opts.publicKeyHex with
  | none =>
    simp only [pure, Except.pure, Except.ok.injEq, List.filter_true, ne_eq, not_true_eq_false, false_imp_iff, and_true]
    exact ⟨fun h => ⟨h.symm, h ▸ hne⟩, fun h => h.1.symm⟩
  | some hex =>
    dsimp only
    by_cases hint : isIntegerValue opts.issuedAtMs = true
    · rw [hint, if_neg (by decide), requireSome_ok]
      simp only [ne_eq, reduceCtorEq, not_false_eq_true, and_true, imp_self]
      exact ⟨fun h => ⟨h.1, h.1 ▸ h.2⟩, fun h => ⟨h.1, h.1 ▸ h.2⟩⟩
    · simp [hint, throw, throwThe, MonadExceptOf.throw]

theorem matchKid_ok {opts : SelectKeyOptions} (hne : candidates ≠ []) : matchKid opts candidates = .ok rest ↔
      rest = candidates.filter (kidMatches opts) ∧ rest ≠ [] ∧ (opts.kid ≠ none → rest.length ≤ 1) := by
  rw [matchKid, funext (kidMatches.eq_1 opts)]
  cases opts.kid with
  | none =>
    simp only [pure, Except.pure, Except.ok.injEq, List.filter_true, ne_eq, not_true_eq_false, false_imp_iff, and_true]
    exact ⟨fun h => ⟨h.symm, h ▸ hne⟩, fun h => h.1.symm⟩
  | some kid =>
    dsimp only
    simp only [ne_eq, reduceCtorEq, not_false_eq_true, forall_const]
    rw [bind_eq_ok]
    constructor
    · rintro ⟨found, hfound, hrest⟩
      obtain ⟨rfl, hsome⟩ := requireSome_ok.mp hfound
      split at hrest
      · cases hrest
      · rename_i hmany
        cases hrest
        exact ⟨rfl, hsome, by omega⟩
    · rintro ⟨rfl, hsome, hle⟩
      exact ⟨_, requireSome_ok.mpr ⟨rfl, hsome⟩, if_neg (by omega)⟩

theorem gateWindow_ok {opts : SelectKeyOptions} (hne : candidates ≠ []) :
    gateWindow opts candidates = .ok rest ↔ rest = candidates.filter (windowMatches opts) ∧ rest ≠ [] := by
  rw [gateWindow, funext (windowMatches.eq_1 opts)]
  cases opts.issuedAtMs with
  | undefined =>
    simp only [pure, Except.pure, Except.ok.injEq, List.filter_true]
    exact ⟨fun h => ⟨h.symm, h ▸ hne⟩, fun h => h.1.symm⟩
  | num t =>
    dsimp only
    by_cases hint : t.isInteger = true
    · simp only [hint, Bool.true_and]
      rw [if_neg (by decide), requireSome_ok]
      exact ⟨fun h => ⟨h.1, h.1 ▸ h.2⟩, fun h => ⟨h.1, h.1 ▸ h.2⟩⟩
    · simp [hint, throw, throwThe, MonadExceptOf.throw]
  | _ => simp [throw, throwThe, MonadExceptOf.throw]

variable {selected : Selected}

theorem soleKey_ok {candidates : List JsValue} (hne : candidates ≠ []) :
    soleKey candidates = .ok selected ↔ candidates = [selected.jwk] ∧
      candidateToHex selected.jwk = some selected.publicKeyHex ∧ selected.kid = selected.jwk.get (lit "kid") := by
  rw [soleKey]
  match candidates, hne with
  | [jwk], _ =>
    simp only [List.length_singleton, lt_irrefl, if_false, List.headD_cons]
    cases hhex : candidateToHex jwk with
    | none =>
      simp only [throw, throwThe, MonadExceptOf.throw, reduceCtorEq, false_iff]
      rintro ⟨hjwk, hsome, -⟩
      obtain rfl := List.singleton_inj.mp hjwk
      rw [hhex] at hsome
      cases hsome
    | some hex =>
      simp only [pure, Except.pure, Except.ok.injEq]
      constructor
      · rintro rfl
        exact ⟨rfl, hhex, rfl⟩
      · rintro ⟨hjwk, hsome, hkid⟩
        obtain rfl := List.singleton_inj.mp hjwk
        obtain ⟨jwk, publicKeyHex, kid⟩ := selected
        dsimp only at hhex hsome hkid
        rw [hhex] at hsome
        cases hsome
        cases hkid
        rfl
  | a :: b :: more, _ => simp [throw, throwThe, MonadExceptOf.throw]

/-- What a selection of a key rests on. -/
structure Sole (keys : List JsValue) (opts : SelectKeyOptions) (selected : Selected) : Prop where
  alone : keys.filter (fun jwk => decide (Satisfies opts jwk)) = [selected.jwk]
  kids : OnAuthorityPath opts → DistinctKids keys
  windowed : opts.publicKeyHex ≠ none → opts.issuedAtMs ≠ .undefined
  publicKeyHex : candidateToHex selected.jwk = some selected.publicKeyHex
  kid : selected.kid = selected.jwk.get (lit "kid")

theorem Sole.satisfies {keys : List JsValue} {opts : SelectKeyOptions} (h : Sole keys opts selected) :
    selected.jwk ∈ keys ∧ Satisfies opts selected.jwk := by
  have hmem : selected.jwk ∈ keys.filter (fun jwk => decide (Satisfies opts jwk)) := by
    rw [h.alone]
    exact List.mem_singleton_self _
  obtain ⟨hkeys, hsatisfies⟩ := List.mem_filter.mp hmem
  exact ⟨hkeys, of_decide_eq_true hsatisfies⟩

theorem Sole.eq_of_subset {keys more : List JsValue} {opts : SelectKeyOptions} {a b : Selected}
    (ha : Sole keys opts a) (hb : Sole more opts b) (hsub : keys ⊆ more) : a = b := by
  obtain ⟨hmem, hsatisfies⟩ := ha.satisfies
  have hjwk : a.jwk ∈ [b.jwk] := by
    rw [← hb.alone]
    exact List.mem_filter.mpr ⟨hsub hmem, decide_eq_true hsatisfies⟩
  have hhex := ha.publicKeyHex
  have hkid := ha.kid
  rw [List.mem_singleton.mp hjwk] at hhex hkid
  rw [hb.publicKeyHex] at hhex
  rw [← hb.kid] at hkid
  cases a
  cases b
  cases hhex
  cases hkid
  cases List.mem_singleton.mp hjwk
  rfl

theorem isIntegerValue_of_integer? {v : JsValue} {t : Int} (h : integer? v = some t) : isIntegerValue v = true := by
  cases v with
  | num n =>
    obtain ⟨d, rfl, hd, -⟩ := integer?_num.mp h
    exact hd
  | _ => cases h

theorem filters_eq (opts : SelectKeyOptions) (keys : List JsValue) :
    (((keys.filter isEd25519SigningCandidate).filter (signerMatches opts)).filter (kidMatches opts)).filter
      (windowMatches opts) = keys.filter (fun jwk => decide (Satisfies opts jwk)) := by
  rw [List.filter_filter, List.filter_filter, List.filter_filter]
  congr 1
  funext jwk
  rw [Bool.eq_iff_iff, decide_eq_true_eq, ← satisfies_iff, satisfies]
  simp only [Bool.and_eq_true]
  tauto

theorem length_le_one {opts : SelectKeyOptions} {candidates : List JsValue} {kid : Str} (hkid : opts.kid = some kid)
    (h : (candidates.filterMap kid?).Nodup) : (candidates.filter (kidMatches opts)).length ≤ 1 := by
  have hsub : ((candidates.filter (kidMatches opts)).filterMap kid?).Nodup :=
    h.sublist (List.filter_sublist.filterMap kid?)
  have hsome : ∀ jwk ∈ candidates.filter (kidMatches opts), kid? jwk = some kid := by
    intro jwk hjwk
    have hmatch := (List.mem_filter.mp hjwk).2
    rw [kidMatches, hkid] at hmatch
    rw [kid?, isText_iff.mp hmatch]
  match candidates.filter (kidMatches opts), hsub, hsome with
  | [], _, _ => exact Nat.zero_le 1
  | [_], _, _ => exact Nat.le_refl 1
  | a :: b :: rest, hsub, hsome =>
    rw [List.filterMap_cons_some (hsome a (by simp)), List.filterMap_cons_some (hsome b (by simp))] at hsub
    exact absurd (List.mem_cons_self) (List.nodup_cons.mp hsub).1

theorem ne_nil_of_filter {p : JsValue → Bool} {candidates : List JsValue} (h : candidates.filter p ≠ []) :
    candidates ≠ [] := by
  rintro rfl
  exact h rfl

theorem selectKey_ok_iff {keys : List JsValue} {sel : Selector} :
    selectKey keys sel = .ok selected ↔ Sole keys sel.opts selected := by
  rw [selectKey]
  generalize sel.opts = opts
  have hfilters := filters_eq opts keys
  constructor
  · intro h
    obtain ⟨candidates, hcandidates, h⟩ := bind_eq_ok.mp h
    obtain ⟨rfl, hne⟩ := requireSome_ok.mp hcandidates
    obtain ⟨⟨⟩, hkids, h⟩ := bind_eq_ok.mp h
    obtain ⟨raw, hraw, h⟩ := bind_eq_ok.mp h
    obtain ⟨rfl, hne, hinteger⟩ := (matchSigner_ok hne).mp hraw
    obtain ⟨named, hnamed, h⟩ := bind_eq_ok.mp h
    obtain ⟨rfl, hne, -⟩ := (matchKid_ok hne).mp hnamed
    obtain ⟨covered, hcovered, h⟩ := bind_eq_ok.mp h
    obtain ⟨rfl, hne⟩ := (gateWindow_ok hne).mp hcovered
    obtain ⟨halone, hhex, hkid⟩ := (soleKey_ok hne).mp h
    rw [hfilters] at halone
    refine ⟨halone, checkKids_ok.mp hkids, ?_, hhex, hkid⟩
    intro hsigner hundefined
    rw [hundefined] at hinteger
    exact absurd (hinteger hsigner) (by decide)
  · intro hsole
    have hselected := hsole.satisfies.2
    obtain ⟨halone, hkids, hwindowed, hhex, hkid⟩ := hsole
    rw [← hfilters] at halone
    have hcovered := ne_of_eq_of_ne halone (List.cons_ne_nil _ _)
    have hnamed := ne_nil_of_filter hcovered
    have hraw := ne_nil_of_filter hnamed
    have hcandidates := ne_nil_of_filter hraw
    have hinteger : opts.publicKeyHex ≠ none → isIntegerValue opts.issuedAtMs = true := by
      intro hsigner
      obtain hundefined | ⟨t, ht, -⟩ := hselected.window
      · exact absurd hundefined (hwindowed hsigner)
      · exact isIntegerValue_of_integer? ht
    refine bind_eq_ok.mpr ⟨_, requireSome_ok.mpr ⟨rfl, hcandidates⟩, bind_eq_ok.mpr ⟨(), checkKids_ok.mpr hkids,
      bind_eq_ok.mpr ⟨_, (matchSigner_ok hcandidates).mpr ⟨rfl, hraw, hinteger⟩,
        bind_eq_ok.mpr ⟨_, (matchKid_ok hraw).mpr ⟨rfl, hnamed, ?_⟩,
          bind_eq_ok.mpr ⟨_, (gateWindow_ok hnamed).mpr ⟨rfl, hcovered⟩,
            (soleKey_ok hcovered).mpr ⟨halone, hhex, hkid⟩⟩⟩⟩⟩⟩
    intro hgiven
    by_cases hpath : OnAuthorityPath opts
    · obtain ⟨kid, hsome⟩ := Option.ne_none_iff_exists'.mp hgiven
      exact length_le_one hsome ((hkids hpath).sublist (List.filter_sublist.filterMap kid?))
    · -- Without a window no key is dropped after the kid was matched.
      have hundefined : opts.issuedAtMs = .undefined := by
        by_contra h
        exact hpath (.inl h)
      have hwindow : windowMatches opts = fun _ => true := by
        funext jwk
        rw [windowMatches, hundefined]
      rw [hwindow, List.filter_true] at halone
      rw [halone]
      exact Nat.le_refl 1

/-- Two results that agree up to a relation on what is returned and up to the reason of a failure. -/
inductive Alike {α β : Type} (R : α → β → Prop) : Except Failure α → Except Failure β → Prop
  | ok {a : α} {b : β} (related : R a b) : Alike R (.ok a) (.ok b)
  | error {e f : Failure} (status : e.status = f.status) : Alike R (.error e) (.error f)

theorem Alike.bind {α β γ δ : Type} {R : α → β → Prop} {S : γ → δ → Prop} {x : Except Failure α} {y : Except Failure β}
    {f : α → Except Failure γ} {g : β → Except Failure δ} (h : Alike R x y)
    (hstep : ∀ a b, R a b → Alike S (f a) (g b)) : Alike S (x >>= f) (y >>= g) := by
  cases h with
  | ok related => exact hstep _ _ related
  | error status => exact .error status

theorem Alike.refl {α : Type} (x : Except Failure α) : Alike Eq x x := by
  cases x with
  | ok a => exact .ok rfl
  | error e => exact .error rfl

def outcome (result : JWKSelection) : Except Status Selected := result.mapError (·.status)

theorem Alike.outcome_eq {x y : JWKSelection} (h : Alike Eq x y) : outcome x = outcome y := by
  cases h with
  | ok related => rw [related]
  | error status => exact congrArg Except.error status

section Order
variable {opts : SelectKeyOptions} {a b : List JsValue}

theorem requireSome_perm (reason : Str) (h : a.Perm b) :
    Alike List.Perm (requireSome reason a) (requireSome reason b) := by
  rw [requireSome, requireSome, h.length_eq]
  split
  · exact .error rfl
  · exact .ok h

theorem checkKids_perm (h : a.Perm b) : Alike Eq (checkKids opts a) (checkKids opts b) := by
  have hsame : firstDuplicate [] a = none ↔ firstDuplicate [] b = none := by
    rw [firstDuplicate_none, firstDuplicate_none, (h.filterMap kid?).nodup_iff]
    simp
  rw [checkKids, checkKids]
  split
  · cases ha : firstDuplicate [] a with
    | none =>
      rw [hsame.mp ha]
      exact .ok rfl
    | some kid =>
      obtain ⟨other, hb⟩ := Option.ne_none_iff_exists'.mp (fun hb => absurd (hsame.mpr hb) (by rw [ha]; simp))
      rw [hb]
      exact .error rfl
  · exact .ok rfl

theorem matchSigner_perm (h : a.Perm b) : Alike List.Perm (matchSigner opts a) (matchSigner opts b) := by
  rw [matchSigner, matchSigner]
  cases opts.publicKeyHex with
  | none => exact .ok h
  | some hex =>
    dsimp only
    split
    · exact .error rfl
    · exact requireSome_perm _ (h.filter _)

theorem matchKid_perm (h : a.Perm b) : Alike List.Perm (matchKid opts a) (matchKid opts b) := by
  rw [matchKid, matchKid]
  cases opts.kid with
  | none => exact .ok h
  | some kid =>
    apply (requireSome_perm _ (h.filter _)).bind
    intro x y hxy
    rw [hxy.length_eq]
    split
    · exact .error rfl
    · exact .ok hxy

theorem gateWindow_perm (h : a.Perm b) : Alike List.Perm (gateWindow opts a) (gateWindow opts b) := by
  rw [gateWindow, gateWindow]
  cases opts.issuedAtMs with
  | undefined => exact .ok h
  | num t =>
    dsimp only
    split
    · exact .error rfl
    · exact requireSome_perm _ (h.filter _)
  | _ => exact .error rfl

theorem soleKey_perm (h : a.Perm b) : Alike Eq (soleKey a) (soleKey b) := by
  rw [soleKey, soleKey, h.length_eq]
  split
  · exact .error rfl
  · rename_i hle
    have heq : a = b := by
      match b, hle with
      | [], _ => exact h.eq_nil
      | [jwk], _ => exact h.eq_singleton
      | _ :: _ :: _, hle => exact absurd (by simp) hle
    rw [heq]
    exact .refl _

end Order

theorem selectKey_perm {keys other : List JsValue} (h : keys.Perm other) (sel : Selector) :
    Alike Eq (selectKey keys sel) (selectKey other sel) := by
  rw [selectKey, selectKey]
  exact (requireSome_perm _ (h.filter _)).bind fun _ _ h =>
    (checkKids_perm h).bind fun _ _ _ => (matchSigner_perm h).bind fun _ _ h =>
      (matchKid_perm h).bind fun _ _ h => (gateWindow_perm h).bind fun _ _ h => soleKey_perm h

/-- A key is selected just when it is the one candidate that meets the criteria, and the set gives no reason
to refuse; the order of the keys decides nothing, and more keys never put another one in its place. -/
theorem selectKey_never_switches (keys : List JsValue) (sel : Selector) :
    (∀ selected, selectKey keys sel = .ok selected ↔ Sole keys sel.opts selected) ∧
    (∀ other, keys.Perm other → outcome (selectKey keys sel) = outcome (selectKey other sel)) ∧
    (∀ selected more, selectKey keys sel = .ok selected → keys ⊆ more →
      selectKey more sel = .ok selected ∨ ∃ failure, selectKey more sel = .error failure) := by
  refine ⟨fun _ => selectKey_ok_iff, fun other h => (selectKey_perm h sel).outcome_eq, ?_⟩
  intro selected more hselected hsub
  cases hmore : selectKey more sel with
  | error failure => exact .inr ⟨failure, rfl⟩
  | ok chosen =>
    left
    rw [(selectKey_ok_iff.mp hselected).eq_of_subset (selectKey_ok_iff.mp hmore) hsub]

end AgentPassport.KeySelection
