import AgentPassport.DelegationSchema

/-! State markers: how a presented generation compares with an established one, the mark a
verifier keeps, and the fencing gate on the log the states are written to. -/

namespace AgentPassport.AuthorityState
open JsText Js DelegationSchema

/-- A marker as a view carries it: `value` may be anything, an absent `scope_ref` reads as null. -/
structure StateMarker where
  value : JsValue
  scope : Str
  scope_ref : Option Str

inductive MonotonicityOutcome where
  | forward | regressed | unplaceable
  deriving DecidableEq

/-- `/^(0|[1-9][0-9]*)$/`. -/
def DECIMAL (s : Str) : Bool :=
  s = lit "0" || (!s.isEmpty && s.all isDigit && s.head? ≠ some 0x30)

/-- The generation of a marker whose value is a canonical decimal string. -/
def StateMarker.reading (m : StateMarker) : Option Nat :=
  match str? m.value with
  | some s => if DECIMAL s then some (bigInt s) else none
  | none => none

def sameScope (a b : StateMarker) : Bool := a.scope = b.scope && a.scope_ref = b.scope_ref

def compareStateMarker : Option StateMarker → Option StateMarker → MonotonicityOutcome
  | some established, some presented =>
    match established.reading, presented.reading with
    | some e, some p =>
      if !sameScope established presented then .unplaceable else if e ≤ p then .forward else .regressed
    | _, _ => .unplaceable
  | _, _ => .unplaceable

def advanceHighWaterMark : Option StateMarker → Option StateMarker → Option StateMarker
  | established, none => established
  | none, some presented => some presented
  | some established, some presented =>
    if compareStateMarker (some established) (some presented) = .forward then some presented else some established

variable {a b : StateMarker}

theorem sameScope_iff : sameScope a b = true ↔ a.scope = b.scope ∧ a.scope_ref = b.scope_ref := by
  simp [sameScope]

theorem sameScope_trans {a b c : StateMarker} (hab : sameScope a b = true) (hbc : sameScope b c = true) :
    sameScope a c = true := by
  rw [sameScope_iff] at hab hbc ⊢
  exact ⟨hab.1.trans hbc.1, hab.2.trans hbc.2⟩

/-- Both are readable and of one scope, and the generation of `b` is not below that of `a`. -/
def StateMarker.Upto (a b : StateMarker) : Prop :=
  sameScope a b = true ∧ ∃ m n, a.reading = some m ∧ b.reading = some n ∧ m ≤ n

theorem compare_forward : compareStateMarker (some a) (some b) = .forward ↔ a.Upto b := by
  constructor
  · intro h
    cases ha : a.reading with
    | none => simp [compareStateMarker, ha] at h
    | some m =>
      cases hb : b.reading with
      | none => simp [compareStateMarker, ha, hb] at h
      | some n =>
        simp only [compareStateMarker, ha, hb] at h
        by_cases hscope : sameScope a b = true
        · by_cases hle : m ≤ n
          · exact ⟨hscope, m, n, ha, hb, hle⟩
          · simp [hscope, hle] at h
        · simp [hscope] at h
  · intro h
    obtain ⟨hscope, m, n, ha, hb, hle⟩ := h
    simp [compareStateMarker, ha, hb, hscope, hle]

theorem compare_regressed {m n : Nat} (hscope : sameScope a b = true) (ha : a.reading = some m)
    (hb : b.reading = some n) (hlt : n < m) : compareStateMarker (some a) (some b) = .regressed := by
  have hnot : ¬ m ≤ n := by omega
  simp [compareStateMarker, ha, hb, hscope, hnot]

theorem compare_unreadable {a : StateMarker} (ha : a.reading = none) (b : Option StateMarker) :
    compareStateMarker (some a) b = .unplaceable := by
  cases b with
  | none => rfl
  | some b => simp [compareStateMarker, ha]

theorem compare_none (b : Option StateMarker) : compareStateMarker none b = .unplaceable := by
  cases b with
  | none => rfl
  | some b => rfl

theorem StateMarker.Upto.trans {a b c : StateMarker} (hab : a.Upto b) (hbc : b.Upto c) : a.Upto c := by
  obtain ⟨hscope, m, n, ha, hb, hle⟩ := hab
  obtain ⟨hscope', n', k, hb', hc, hle'⟩ := hbc
  have hn : n = n' := Option.some.inj (hb.symm.trans hb')
  exact ⟨sameScope_trans hscope hscope', m, k, ha, hc, by omega⟩

structure FencedWrite (T : Type) where
  token : Option StateMarker
  payload : T

inductive FencedWriteRefusalCode where
  | stale_fencing_token | fencing_scope_mismatch | fencing_token_unreadable
  deriving DecidableEq

inductive FencedWriteOutcome (T : Type) where
  | accepted (published : StateMarker) (payload : T)
  | refused (code : FencedWriteRefusalCode) (published : Option StateMarker)

/-- The log: the highest token, what is published, and whether any write has landed. -/
structure FencedAuthorityStateLog (T : Type) where
  highest : Option StateMarker
  payload : Option T
  written : Bool

namespace FencedAuthorityStateLog

variable {T : Type}

def empty : FencedAuthorityStateLog T := ⟨none, none, false⟩

def highestToken (log : FencedAuthorityStateLog T) : Option StateMarker := log.highest

def published (log : FencedAuthorityStateLog T) : Option T := log.payload

def hasPublished (log : FencedAuthorityStateLog T) : Bool := log.written

def refusal (highest : Option StateMarker) (token : StateMarker) : Option FencedWriteRefusalCode :=
  match highest with
  | none => none
  | some held =>
    if !sameScope held token then some .fencing_scope_mismatch
    else if compareStateMarker (some held) (some token) ≠ .forward then some .stale_fencing_token
    else none

/-- `write?.token` is read first, so a write or a token that is null is unreadable. -/
def write (log : FencedAuthorityStateLog T) :
    Option (FencedWrite T) → FencedWriteOutcome T × FencedAuthorityStateLog T
  | some ⟨some token, payload⟩ =>
    if compareStateMarker (some token) (some token) ≠ .forward then
      (.refused .fencing_token_unreadable log.highest, log)
    else
      match refusal log.highest token with
      | some code => (.refused code log.highest, log)
      | none => (.accepted token payload, ⟨some token, some payload, true⟩)
  | _ => (.refused .fencing_token_unreadable log.highest, log)

def run (log : FencedAuthorityStateLog T) :
    List (Option (FencedWrite T)) → List (FencedWriteOutcome T) × FencedAuthorityStateLog T
  | [] => ([], log)
  | w :: rest =>
    let (outcome, log') := log.write w
    let (outcomes, final) := log'.run rest
    (outcome :: outcomes, final)

def acceptance : FencedWriteOutcome T → Option (StateMarker × T)
  | .accepted token payload => some (token, payload)
  | .refused _ _ => none

theorem refusal_none {highest : Option StateMarker} {token : StateMarker} (h : refusal highest token = none) :
    ∀ held, highest = some held → held.Upto token := by
  intro held hheld
  subst hheld
  by_cases hforward : compareStateMarker (some held) (some token) = .forward
  · exact compare_forward.mp hforward
  · by_cases hscope : sameScope held token = true
    · simp [refusal, hscope, hforward] at h
    · simp [refusal, hscope] at h

@[simp] theorem acceptance_accepted (token : StateMarker) (payload : T) :
    acceptance (.accepted token payload) = some (token, payload) := rfl

@[simp] theorem acceptance_refused (code : FencedWriteRefusalCode) (published : Option StateMarker) :
    acceptance (.refused code published : FencedWriteOutcome T) = none := rfl

theorem write_cases (log : FencedAuthorityStateLog T) (w : Option (FencedWrite T)) :
    (∃ token payload, w = some ⟨some token, payload⟩ ∧ token.Upto token ∧
      (∀ held, log.highest = some held → held.Upto token) ∧
      log.write w = (.accepted token payload, ⟨some token, some payload, true⟩)) ∨
    ∃ code, log.write w = (.refused code log.highest, log) := by
  match w with
  | none => exact .inr ⟨_, rfl⟩
  | some ⟨none, _⟩ => exact .inr ⟨_, rfl⟩
  | some ⟨some token, payload⟩ =>
    by_cases hself : compareStateMarker (some token) (some token) = .forward
    · cases hrefusal : refusal log.highest token with
      | some code => exact .inr ⟨code, by simp [write, hself, hrefusal]⟩
      | none =>
        exact .inl ⟨token, payload, rfl, compare_forward.mp hself, refusal_none hrefusal, by
        simp [write, hself, hrefusal]⟩
    · exact .inr ⟨.fencing_token_unreadable, by simp [write, hself]⟩

/-- The state of a log that accepted these writes last. -/
def Holds (log : FencedAuthorityStateLog T) (last : Option (StateMarker × T)) : Prop :=
  log.highestToken = last.map Prod.fst ∧ log.published = last.map Prod.snd ∧ log.hasPublished = last.isSome

theorem run_spec (writes : List (Option (FencedWrite T))) : ∀ {log : FencedAuthorityStateLog T}
    {last : Option (StateMarker × T)}, log.Holds last →
    (last.toList ++ (log.run writes).1.filterMap acceptance).Pairwise (fun a b => a.1.Upto b.1) ∧
      (∀ a ∈ (log.run writes).1.filterMap acceptance, a.1.Upto a.1) ∧
      (log.run writes).2.Holds (last.toList ++ (log.run writes).1.filterMap acceptance).getLast? := by
  induction writes with
  | nil =>
    intro log last h
    refine ⟨?_, by simp [run], ?_⟩
    · cases last with
      | none => simp [run]
      | some a => simp [run]
    · cases last with
      | none => simpa [run] using h
      | some a => simpa [run] using h
  | cons w rest ih =>
    intro log last h
    obtain ⟨token, payload, rfl, hself, hheld, hwrite⟩ | ⟨code, hwrite⟩ := log.write_cases w
    · have hnext : (⟨some token, some payload, true⟩ : FencedAuthorityStateLog T).Holds (some (token, payload)) :=
        ⟨rfl, rfl, rfl⟩
      obtain ⟨hpairs, hreadable, hfinal⟩ := ih hnext
      have hrun : (log.run (some ⟨some token, payload⟩ :: rest)).1.filterMap acceptance =
          (token, payload) ::
            ((⟨some token, some payload, true⟩ : FencedAuthorityStateLog T).run rest).1.filterMap acceptance := by
        simp [run, hwrite]
      have hlog : (log.run (some ⟨some token, payload⟩ :: rest)).2 =
          ((⟨some token, some payload, true⟩ : FencedAuthorityStateLog T).run rest).2 := by
        simp [run, hwrite]
      rw [hrun, hlog]
      simp only [Option.toList_some, List.singleton_append] at hpairs hfinal
      refine ⟨?_, ?_, ?_⟩
      · cases last with
        | none => simpa using hpairs
        | some a =>
          -- the log held `a`, and everything accepted now is at or above the new token
          have ha : a.1.Upto token := hheld a.1 h.1
          refine List.pairwise_cons.mpr ⟨?_, hpairs⟩
          intro b hb
          rcases List.mem_cons.mp hb with rfl | hb
          · exact ha
          · exact ha.trans ((List.pairwise_cons.mp hpairs).1 b hb)
      · intro a ha
        rcases List.mem_cons.mp ha with rfl | ha
        · exact hself
        · exact hreadable a ha
      · rw [List.getLast?_append_of_ne_nil _ (List.cons_ne_nil _ _)]
        exact hfinal
    · have hrun : (log.run (w :: rest)).1.filterMap acceptance = (log.run rest).1.filterMap acceptance := by
        simp [run, hwrite, List.filterMap_cons]
      have hlog : (log.run (w :: rest)).2 = (log.run rest).2 := by
        simp [run, hwrite]
      rw [hrun, hlog]
      exact ih h

end FencedAuthorityStateLog

end AgentPassport.AuthorityState
