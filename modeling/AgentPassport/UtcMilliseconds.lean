import AgentPassport.FixedDigits
import AgentPassport.ReceiptSchema

/-! Texts of one fixed format are ordered as the numbers in them are. -/
namespace AgentPassport.UtcMilliseconds
open JsText Js FixedDigits ReceiptSchema
open DelegationSchema (numberAt timestampWhere)

/-- Runs of digits of given widths, each closed by a separator, and their values. -/
inductive Shaped : List (Nat × UInt16) → Str → List Nat → Prop
  | nil : Shaped [] [] []
  | cons {width : Nat} {separator : UInt16} {format : List (Nat × UInt16)} {digits rest : Str} {values : List Nat}
      (length : digits.length = width) (all : ∀ c ∈ digits, isDigit c = true) (tail : Shaped format rest values) :
      Shaped ((width, separator) :: format) (digits ++ separator :: rest) (digitsValue digits :: values)

theorem Shaped.lt_iff {format : List (Nat × UInt16)} {s t : Str} {xs ys : List Nat} (hs : Shaped format s xs)
    (ht : Shaped format t ys) : s < t ↔ xs < ys := by
  induction hs generalizing t ys with
  | nil =>
    cases ht
    exact iff_of_false (List.lt_irrefl _) (List.lt_irrefl _)
  | @cons width separator format digits rest values hlen hall _ ih =>
    cases ht with
    | @cons _ _ _ digits' rest' values' hlen' hall' htail =>
      have hlength : digits.length = digits'.length := hlen.trans hlen'.symm
      have heq : digits = digits' ↔ digitsValue digits = digitsValue digits' := by
        constructor
        · intro h
          rw [h]
        · intro h
          exact eq_of_value ⟨hlen, hall⟩ ⟨hlen', hall'⟩ h
      rw [append_lt_append_iff hlength, List.cons_lt_cons_iff, List.cons_lt_cons_iff, lt_iff_value hall hall' hlength, heq,
        ih htail]
      constructor
      · rintro (h | ⟨h, hsep | ⟨-, hrest⟩⟩)
        · exact .inl h
        · exact absurd hsep (UInt16.lt_irrefl _)
        · exact .inr ⟨h, hrest⟩
      · rintro (h | ⟨h, hrest⟩)
        · exact .inl h
        · exact .inr ⟨h, .inr ⟨rfl, hrest⟩⟩

theorem numberAt_digits {s : Str} {start count n : Nat} (h : numberAt s start count = some n) :
    ((s.drop start).take count).length = count ∧ ∀ c ∈ (s.drop start).take count, isDigit c = true := by
  rw [numberAt] at h
  split at h
  · rename_i hdigits
    rw [Bool.and_eq_true, decide_eq_true_eq, List.all_eq_true] at hdigits
    exact hdigits
  · cases h

theorem shaped_field {s : Str} {start width n : Nat} {separator : UInt16} {format : List (Nat × UInt16)} {values : List Nat}
    (hnumber : numberAt s start width = some n) (hseparator : s[start + width]? = some separator)
    (htail : Shaped format (s.drop (start + width + 1)) values) :
    Shaped ((width, separator) :: format) (s.drop start) (digitsValue ((s.drop start).take width) :: values) := by
  obtain ⟨hlen, hall⟩ := numberAt_digits hnumber
  obtain ⟨hlt, hget⟩ := List.getElem?_eq_some_iff.mp hseparator
  have hsplit : s.drop start = (s.drop start).take width ++ separator :: s.drop (start + width + 1) := by
    have hrest : s.drop (start + width) = separator :: s.drop (start + width + 1) := by
      rw [List.drop_eq_getElem_cons hlt, hget]
    rw [← hrest, ← List.drop_drop, List.take_append_drop]
  have hshaped : Shaped ((width, separator) :: format)
      ((s.drop start).take width ++ separator :: s.drop (start + width + 1)) _ := .cons hlen hall htail
  rw [← hsplit] at hshaped
  exact hshaped

/-- `YYYY-MM-DDTHH:MM:SS.sssZ`. -/
def FORMAT : List (Nat × UInt16) := [(4, 0x2D), (2, 0x2D), (2, 0x54), (2, 0x3A), (2, 0x3A), (2, 0x2E), (3, 0x5A)]

def instant (s : Str) : List Nat :=
  [digitsValue ((s.drop 0).take 4), digitsValue ((s.drop 5).take 2), digitsValue ((s.drop 8).take 2),
    digitsValue ((s.drop 11).take 2), digitsValue ((s.drop 14).take 2), digitsValue ((s.drop 17).take 2),
    digitsValue ((s.drop 20).take 3)]

theorem numberAt_value {s : Str} {start count n : Nat} (h : numberAt s start count = some n) :
    digitsValue ((s.drop start).take count) = n := by
  rw [numberAt] at h
  split at h
  · exact Option.some.inj h
  · cases h

theorem shaped_where {check : Nat → Nat → Nat → Nat → Nat → Nat → Bool} {s : Str} (h : timestampWhere check s = true) :
    Shaped FORMAT s (instant s) ∧ digitsValue ((s.drop 20).take 3) ≤ 999 ∧
      check (digitsValue ((s.drop 0).take 4)) (digitsValue ((s.drop 5).take 2)) (digitsValue ((s.drop 8).take 2))
        (digitsValue ((s.drop 11).take 2)) (digitsValue ((s.drop 14).take 2))
        (digitsValue ((s.drop 17).take 2)) = true := by
  simp only [timestampWhere, Bool.and_eq_true, decide_eq_true_eq] at h
  obtain ⟨⟨⟨⟨⟨⟨⟨⟨hlen, h4⟩, h7⟩, h10⟩, h13⟩, h16⟩, h19⟩, h23⟩, hfields⟩ := h
  split at hfields
  · rename_i hyear hmonth hday hhour hminute hsecond hmilli
    have hend : s.drop (20 + 3 + 1) = [] := List.drop_eq_nil_of_le (by omega)
    have hshaped : Shaped FORMAT (s.drop 0) (instant s) := by
      refine shaped_field hyear h4 (shaped_field hmonth h7 (shaped_field hday h10 (shaped_field hhour h13
        (shaped_field hminute h16 (shaped_field hsecond h19 (shaped_field hmilli h23 ?_))))))
      rw [hend]
      exact .nil
    have hthree : digitsValue ((s.drop 20).take 3) ≤ 999 := by
      obtain ⟨hwidth, hdigits⟩ := numberAt_digits hmilli
      have hlt := digitsValue_lt hdigits
      rw [hwidth] at hlt
      exact Nat.le_of_lt_succ hlt
    rw [← numberAt_value hyear, ← numberAt_value hmonth, ← numberAt_value hday, ← numberAt_value hhour,
      ← numberAt_value hminute, ← numberAt_value hsecond] at hfields
    exact ⟨hshaped, hthree, hfields⟩
  · cases hfields

theorem later_iff {later earlier : Str} (hlater : isExactUtcMilliseconds later = true)
    (hearlier : isExactUtcMilliseconds earlier = true) :
    isLaterUtcMillisecond later earlier = true ↔ instant earlier < instant later := by
  rw [isLaterUtcMillisecond, decide_eq_true_eq]
  exact (shaped_where hearlier).1.lt_iff (shaped_where hlater).1

end AgentPassport.UtcMilliseconds
