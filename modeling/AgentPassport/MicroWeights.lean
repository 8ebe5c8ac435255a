import AgentPassport.FixedDigits
import AgentPassport.JsArithmetic

/-! Weights with six digits after the point, as texts and as doubles. A sum of such doubles stays
so near to the exact one that, up to one unit, the six digits come back. -/
namespace AgentPassport.MicroWeights
open JsText Js FixedDigits

/-- `/^\d+\.\d{6}$/`. -/
def isWeightString (s : Str) : Bool :=
  match s.dropWhile isDigit with
  | 0x2E :: micro => s.takeWhile isDigit ≠ [] && micro.length = 6 && micro.all isDigit
  | _ => false

/-- The micro-units of a weight text: its digits, without the point. -/
def microUnits (w : Str) : Nat := digitsValue (w.filter isDigit)

/-- So many micro-units, with six digits after the point. -/
def weightText (n : Nat) : Str := decimal (n / 10 ^ 6) ++ 0x2E :: pad (n % 10 ^ 6) 6

def microNumber (n : Nat) : JsNumber := .ofRatio n (10 ^ 6)

/-- `Number.parseFloat` on a weight text. -/
def parseFloat (w : Str) : JsNumber := microNumber (microUnits w)

/-- `value.toFixed(6)` on a number that is not negative: the nearest micro-units, from the middle up. -/
def toFixed6 (d : Double) : Str := weightText ((2 * (d.scaled * 10 ^ 6) + scaleOne) / (2 * scaleOne)).toNat

/-- The doubles of these micro-units, added one after the other to a number. -/
def addMicro (s : JsNumber) (micros : List Nat) : JsNumber := micros.foldl (fun s n => s.add (microNumber n)) s

theorem digits_pad {n width : Nat} {c : UInt16} (h : c ∈ pad n width) : isDigit c = true := by
  rw [pad, List.mem_append] at h
  obtain h | h := h
  · rw [List.eq_of_mem_replicate h]
    rfl
  · exact decimal_digits h

theorem microUnits_weightText (n : Nat) : microUnits (weightText n) = n := by
  have hwhole : (decimal (n / 10 ^ 6)).filter isDigit = decimal (n / 10 ^ 6) :=
    List.filter_eq_self.mpr (fun _ hc => decimal_digits hc)
  have hmicro : (pad (n % 10 ^ 6) 6).filter isDigit = pad (n % 10 ^ 6) 6 :=
    List.filter_eq_self.mpr (fun _ hc => digits_pad hc)
  have hlen : (pad (n % 10 ^ 6) 6).length = 6 := (fixed_pad (by decide) (Nat.mod_lt _ (by decide))).1
  have hpoint : isDigit 0x2E = false := rfl
  rw [microUnits, weightText, List.filter_append, List.filter_cons, hpoint, hwhole, hmicro]
  simp only [Bool.false_eq_true, if_false]
  rw [digitsValue_append, hlen, digitsValue_decimal, digitsValue_pad]
  exact Nat.div_add_mod' n (10 ^ 6)

theorem weightText_canonical (n : Nat) : isWeightString (weightText n) = true := by
  have hfixed : Fixed 6 (pad (n % 10 ^ 6) 6) := fixed_pad (by decide) (Nat.mod_lt _ (by decide))
  have hne : decimal (n / 10 ^ 6) ≠ [] := decimal_ne_nil _
  have hdrop : (weightText n).dropWhile isDigit = 0x2E :: pad (n % 10 ^ 6) 6 := by
    rw [weightText, List.dropWhile_append_of_pos (fun _ hc => decimal_digits hc)]
    rfl
  have htake : (weightText n).takeWhile isDigit = decimal (n / 10 ^ 6) := by
    rw [weightText, List.takeWhile_append_of_pos (fun _ hc => decimal_digits hc)]
    simp [isDigit]
  rw [isWeightString, hdrop, htake]
  simp only [ne_eq, hne, not_false_eq_true, hfixed.1, List.all_eq_true.mpr hfixed.2, decide_true, Bool.and_true]

/-- What one micro-unit adds to the distance between a sum in doubles and the exact one, at most. -/
def slack : Int := 2 ^ 1042

theorem slack_pos : 0 < slack := Int.pow_pos (by decide)

theorem scaleOne_slack : scaleOne = 4294967296 * slack := by
  rw [scaleOne, slack, show (4294967296 : Int) = 2 ^ 32 by norm_num, ← pow_add]

theorem mul_scaleOne (k : Int) : k * scaleOne = 4294967296 * (k * slack) := by rw [scaleOne_slack, Int.mul_left_comm]

theorem rounding_slack : 10 ^ 6 * (2 : Int) ^ 1022 ≤ slack := by
  rw [slack, show 1042 = 20 + 1022 by rfl, pow_add]
  exact Int.mul_le_mul_of_nonneg_right (by norm_num) (by positivity)

/-- The number is finite, and off `n` micro-units by no more than `n` times the slack. -/
def Near (x : JsNumber) (n : Nat) : Prop :=
  ∃ d, x = .finite d ∧ d.scaled * 10 ^ 6 ≤ n * scaleOne + n * slack ∧ n * scaleOne ≤ d.scaled * 10 ^ 6 + n * slack

theorem near_zero : Near (zeroOf false) 0 := ⟨_, rfl, by rw [zeroOf_scaled]; omega, by rw [zeroOf_scaled]; omega⟩

theorem microNumber_zero : microNumber 0 = zeroOf false := rfl

theorem excess_two {n : Nat} (h : n < 2 * 2 ^ 1074) : excess n ≤ 1022 := excess_le (h.trans_eq (pow_succ' 2 1074).symm)

theorem microNumber_near {n : Nat} (hpos : 0 < n) (h : n ≤ 10 ^ 6) : ∃ d, microNumber n = .finite d ∧
    2 * (d.scaled * 10 ^ 6) ≤ 2 * (n * scaleOne) + slack ∧ 2 * (n * scaleOne) ≤ 2 * (d.scaled * 10 ^ 6) + slack := by
  have hlt : n * 2 ^ 1074 / 10 ^ 6 < 2 * 2 ^ 1074 := by
    apply Nat.div_lt_of_lt_mul
    rw [← Nat.mul_assoc]
    exact Nat.mul_lt_mul_of_pos_right (by omega) (by positivity)
  have hexcess := excess_two hlt
  obtain ⟨d, hd, hlow, hhigh⟩ := ofRatio_near (n := n) (d := 10 ^ 6) (by omega) (by decide) (by omega)
  have hunit : (10 ^ 6 : Int) * 2 ^ excess (n * 2 ^ 1074 / 10 ^ 6 : Nat) ≤ slack :=
    (Int.mul_le_mul_of_nonneg_left (pow_le_pow_right₀ (by decide) hexcess) (by decide)).trans rounding_slack
  refine ⟨d, hd, ?_, ?_⟩
  · exact (by exact_mod_cast hhigh : _ ≤ 2 * ((n : Int) * 2 ^ 1074) + (10 ^ 6 : Int) * 2 ^ excess _).trans
      (Int.add_le_add_left hunit _)
  · exact (by exact_mod_cast hlow : 2 * ((n : Int) * 2 ^ 1074) ≤ _ + (10 ^ 6 : Int) * 2 ^ excess _).trans
      (Int.add_le_add_left hunit _)

theorem microNumber_nonneg {n : Nat} (h : n ≤ 10 ^ 6) : ∃ d, microNumber n = .finite d ∧ 0 ≤ d.scaled := by
  obtain rfl | hpos := Nat.eq_zero_or_pos n
  · exact ⟨_, microNumber_zero, by rw [zeroOf_scaled]⟩
  · obtain ⟨d, hd, -, hlow⟩ := microNumber_near hpos h
    have hslack := slack_pos
    have hunit : slack ≤ n * slack := le_mul_of_one_le_left hslack.le (by omega)
    rw [mul_scaleOne] at hlow
    exact ⟨d, hd, by omega⟩

section
variable {x : JsNumber} {total n : Nat}

theorem near_sum {d w : Double} (hlow : total * scaleOne ≤ d.scaled * 10 ^ 6 + total * slack)
    (hhigh : d.scaled * 10 ^ 6 ≤ total * scaleOne + total * slack)
    (hwlow : 2 * (n * scaleOne) ≤ 2 * (w.scaled * 10 ^ 6) + slack)
    (hwhigh : 2 * (w.scaled * 10 ^ 6) ≤ 2 * (n * scaleOne) + slack) (hpos : 0 < n) (hn : total + n ≤ 10 ^ 6) :
    ∃ z : Nat, d.scaled + w.scaled = z ∧ z < 2 * 2 ^ 1074 := by
  have htwo : ((2 * 2 ^ 1074 : Nat) : Int) = 2 * scaleOne := by
    rw [Nat.cast_mul, Nat.cast_pow]
    rfl
  have hslack := slack_pos
  have hunit : slack ≤ n * slack := le_mul_of_one_le_left hslack.le (by omega)
  have htotal : 0 ≤ total * slack := Int.mul_nonneg (Int.natCast_nonneg _) hslack.le
  have hsum : total * slack + n * slack ≤ 10 ^ 6 * slack := by
    rw [← Int.add_mul]
    exact Int.mul_le_mul_of_nonneg_right (by omega) hslack.le
  rw [mul_scaleOne] at hlow hhigh hwlow hwhigh
  obtain ⟨z, hz⟩ := Int.eq_ofNat_of_zero_le (show 0 ≤ d.scaled + w.scaled by omega)
  refine ⟨z, hz, Int.ofNat_lt.mp ?_⟩
  rw [htwo, scaleOne_slack, ← hz]
  omega

theorem Near.add (h : Near x total) (hn : total + n ≤ 10 ^ 6) : Near (x.add (microNumber n)) (total + n) := by
  obtain ⟨d, rfl, hhigh, hlow⟩ := h
  obtain rfl | hpos := Nat.eq_zero_or_pos n
  · have hsame : d.scaled = d.scaled + Double.scaled ⟨false, 0, -1074, by decide⟩ := by
      rw [zeroOf_scaled, Int.add_zero]
    obtain ⟨e, he, hscaled⟩ := add_exact hsame
    rw [microNumber_zero, Nat.add_zero]
    exact ⟨e, he, by rw [hscaled, ← hsame]; exact hhigh, by rw [hscaled, ← hsame]; exact hlow⟩
  · obtain ⟨w, hw, hwhigh, hwlow⟩ := microNumber_near hpos (by omega)
    obtain ⟨z, hz, hlt⟩ := near_sum hlow hhigh hwlow hwhigh hpos hn
    have hexcess := excess_two hlt
    obtain ⟨e, he, helow, hehigh⟩ := add_near hz (by omega)
    rw [hw]
    have hslack := slack_pos
    have hunit : slack ≤ n * slack := le_mul_of_one_le_left hslack.le (by omega)
    have hlast : 10 ^ 6 * (2 : Int) ^ excess z ≤ slack :=
      (Int.mul_le_mul_of_nonneg_left (pow_le_pow_right₀ (by decide) hexcess) (by decide)).trans rounding_slack
    refine ⟨e, he, ?_, ?_⟩
    · rw [Int.natCast_add, Int.add_mul, Int.add_mul]
      omega
    · rw [Int.natCast_add, Int.add_mul, Int.add_mul]
      omega

theorem add_finite {a b : Double} (ha : 0 < a.scaled) (hb : 0 ≤ b.scaled) {c : Double} (hpos : 0 ≤ c.scaled)
    (hc : c.scaled ≤ a.scaled + b.scaled) :
    JsNumber.le (.finite c) (JsNumber.add (.finite a) (.finite b)) = true := by
  rw [JsNumber.add, if_neg (by omega)]
  exact nearest_ge hpos hc

def afterOne : Double := ⟨false, 2 ^ 52 + 1, -52, by decide⟩

theorem Near.add_heavy (h : Near x total) (htotal : total ≤ 10 ^ 6) (hn : n ≤ 10 ^ 6) (hheavy : 10 ^ 6 < total + n) :
    JsNumber.lt (.finite .one) (x.add (microNumber n)) = true := by
  obtain ⟨d, rfl, hhigh, hlow⟩ := h
  obtain ⟨w, hw, hwhigh, hwlow⟩ := microNumber_near (n := n) (by omega) hn
  have hafter : afterOne.scaled ≤ scaleOne + slack := by decide +kernel
  have hpos : 0 ≤ afterOne.scaled := by decide +kernel
  have hone : JsNumber.lt (.finite .one) (.finite afterOne) = true := by decide +kernel
  have hslack := slack_pos
  have hunit : slack ≤ total * slack := le_mul_of_one_le_left hslack.le (by omega)
  have hsum : (10 ^ 6 + 1) * slack ≤ total * slack + n * slack := by
    rw [← Int.add_mul]
    exact Int.mul_le_mul_of_nonneg_right (by omega) hslack.le
  have hsmall : total * slack ≤ 10 ^ 6 * slack := Int.mul_le_mul_of_nonneg_right (by omega) hslack.le
  rw [mul_scaleOne] at hlow hwlow
  rw [scaleOne_slack] at hafter
  rw [hw]
  exact JsNumber.lt_of_lt_of_le hone (add_finite (by omega) (by omega) hpos (by omega))

theorem heavy_add (h : JsNumber.lt (.finite .one) x = true) (hn : n ≤ 10 ^ 6) :
    JsNumber.lt (.finite .one) (x.add (microNumber n)) = true := by
  obtain ⟨w, hw, hnonneg⟩ := microNumber_nonneg hn
  rw [hw]
  cases x with
  | nan => cases h
  | infinite neg => exact h
  | finite d =>
    have hlt : Double.one.scaled < d.scaled := of_decide_eq_true h
    have hone : 0 < Double.one.scaled := by decide +kernel
    exact JsNumber.lt_of_lt_of_le h (add_finite (by omega) hnonneg (by omega) (by omega))

theorem Near.light (h : Near x n) (hn : n < 10 ^ 6) : JsNumber.lt (.finite .one) x = false := by
  obtain ⟨d, rfl, hhigh, -⟩ := h
  have hone : Double.one.scaled = scaleOne := by decide +kernel
  have hslack := slack_pos
  have hsmall : n * slack ≤ (10 ^ 6 - 1) * slack := Int.mul_le_mul_of_nonneg_right (by omega) hslack.le
  rw [mul_scaleOne] at hhigh
  rw [lt_false_iff_le, hone, scaleOne_slack]
  omega

theorem Near.toFixed (h : Near x n) (hn : n ≤ 10 ^ 6) :
    ∃ d, x = .finite d ∧ JsNumber.lt (.finite d) (zeroOf false) = false ∧ toFixed6 d = weightText n := by
  obtain ⟨d, rfl, hhigh, hlow⟩ := h
  have hslack := slack_pos
  have hzero : 0 ≤ n * slack := Int.mul_nonneg (Int.natCast_nonneg _) hslack.le
  have hsmall : n * slack ≤ 10 ^ 6 * slack := Int.mul_le_mul_of_nonneg_right (by omega) hslack.le
  have hround : (2 * (d.scaled * 10 ^ 6) + scaleOne) / (2 * scaleOne) = n := by
    have hpos := scaleOne_pos
    rw [Int.ediv_eq_iff_of_pos (by omega), Int.mul_left_comm, mul_scaleOne]
    rw [mul_scaleOne] at hhigh hlow
    rw [scaleOne_slack]
    omega
  rw [mul_scaleOne] at hlow
  refine ⟨d, rfl, ?_, ?_⟩
  · rw [zeroOf, lt_false_iff_le, zeroOf_scaled]
    omega
  · rw [toFixed6, hround, Int.toNat_natCast]

end

variable {micros : List Nat}

theorem addMicro_append (s : JsNumber) (n : Nat) :
    addMicro s (micros ++ [n]) = (addMicro s micros).add (microNumber n) := by
  rw [addMicro, List.foldl_append]
  rfl

/-- By induction from the last weight added. -/
theorem addMicro_near : micros.sum ≤ 10 ^ 6 → Near (addMicro (zeroOf false) micros) micros.sum := by
  induction micros using List.reverseRecOn with
  | nil => exact fun _ => near_zero
  | append_singleton rest n ih =>
    intro h
    rw [List.sum_append, List.sum_singleton] at h ⊢
    rw [addMicro_append]
    exact (ih (by omega)).add h

theorem addMicro_heavy : (∀ n ∈ micros, n ≤ 10 ^ 6) → 10 ^ 6 < micros.sum →
    JsNumber.lt (.finite .one) (addMicro (zeroOf false) micros) = true := by
  induction micros using List.reverseRecOn with
  | nil =>
    intro _ h
    cases h
  | append_singleton rest n ih =>
    intro hall h
    rw [List.forall_mem_append] at hall
    have hn := hall.2 n (List.mem_singleton.mpr rfl)
    rw [List.sum_append, List.sum_singleton] at h
    rw [addMicro_append]
    by_cases hrest : rest.sum ≤ 10 ^ 6
    · exact (addMicro_near hrest).add_heavy hrest hn h
    · exact heavy_add (ih hall.1 (by omega)) hn

end AgentPassport.MicroWeights
