import AgentPassport.JsNumber
import Mathlib.Tactic.Positivity

/-! Arithmetic and comparison of JavaScript numbers. The exact sum or difference of two doubles,
and the product with an integer, is a multiple of `2 ^ -1074`; what JavaScript returns is the
double nearest to it. -/
namespace AgentPassport.Js

/-- The bits of a multiple of `2 ^ -1074` that its double cannot hold. -/
def excess (z : Int) : Nat := z.natAbs.log2 - 52

/-- The leading bits, rounded to nearest with ties to even. -/
def roundedBits (z : Int) : Nat :=
  let unit := 2 ^ excess z
  let bits := z.natAbs / unit
  let rest := z.natAbs % unit
  if unit < 2 * rest ∨ unit = 2 * rest ∧ bits % 2 = 1 then bits + 1 else bits

theorem bits_lt (z : Int) : z.natAbs / 2 ^ excess z < 2 ^ 53 := by
  have hlt := Nat.lt_log2_self (n := z.natAbs)
  rw [Nat.div_lt_iff_lt_mul (by positivity), ← pow_add]
  refine hlt.trans_le (Nat.pow_le_pow_right (by decide) ?_)
  unfold excess
  omega

variable {z : Int}

theorem bits_normal (h : excess z ≠ 0) : 2 ^ 52 ≤ z.natAbs / 2 ^ excess z := by
  have hne : z.natAbs ≠ 0 := by
    intro hzero
    apply h
    rw [excess, hzero]
    rfl
  rw [Nat.le_div_iff_mul_le (by positivity), ← pow_add, ← Nat.le_log2 hne]
  unfold excess at h ⊢
  omega

theorem roundedBits_le (z : Int) : z.natAbs / 2 ^ excess z ≤ roundedBits z ∧ roundedBits z ≤ 2 ^ 53 := by
  have hlt := bits_lt z
  simp only [roundedBits]
  split <;> omega

/-- The double nearest to a multiple of `2 ^ -1074`. -/
def nearest (z : Int) : JsNumber :=
  if hbits : roundedBits z < 2 ^ 53 then
    if hexp : excess z ≤ 2045 then
      .finite ⟨decide (z < 0), roundedBits z, (excess z : Int) - 1074, hbits, by omega, by omega, by
        by_cases hzero : excess z = 0
        · exact .inr (by omega)
        · exact .inl ((bits_normal hzero).trans (roundedBits_le z).1)⟩
    else .infinite (decide (z < 0))
  else
    if hexp : excess z + 1 ≤ 2045 then
      .finite ⟨decide (z < 0), 2 ^ 52, (excess z : Int) + 1 - 1074, by decide, by omega, by omega, .inl le_rfl⟩
    else .infinite (decide (z < 0))

def zeroOf (neg : Bool) : JsNumber := .finite ⟨neg, 0, -1074, by decide⟩

/-- `a + b`. A zero sum is negative only when both are. -/
def JsNumber.add : JsNumber → JsNumber → JsNumber
  | .finite a, .finite b =>
    if a.scaled + b.scaled = 0 then zeroOf (a.neg && b.neg) else nearest (a.scaled + b.scaled)
  | .infinite a, .infinite b => if a = b then .infinite a else .nan
  | .infinite a, .finite _ => .infinite a
  | .finite _, .infinite b => .infinite b
  | _, _ => .nan

def JsNumber.negate : JsNumber → JsNumber
  | .finite d => .finite ⟨!d.neg, d.mant, d.exp, d.canonical⟩
  | .infinite neg => .infinite (!neg)
  | .nan => .nan

/-- `a - b`. -/
def JsNumber.sub (a b : JsNumber) : JsNumber := a.add b.negate

/-- `a * n` for a positive integer. -/
def JsNumber.mulNat (n : Nat) : JsNumber → JsNumber
  | .finite d => if d.scaled = 0 then zeroOf d.neg else nearest (d.scaled * n)
  | .infinite neg => .infinite neg
  | .nan => .nan

def JsNumber.ofInt (z : Int) : JsNumber := nearest (z * scaleOne)

/-- `Math.trunc` on a finite number, as the integer it gives. -/
def Double.trunc (d : Double) : Int := d.scaled.tdiv scaleOne

/-- `a <= b`. -/
def JsNumber.le (a b : JsNumber) : Bool := a.lt b || a.eq b

theorem nearest_exact (hbound : excess z ≤ 2045) (hdvd : 2 ^ excess z ∣ z.natAbs) :
    ∃ e, nearest z = .finite e ∧ e.scaled = z := by
  have hrest : z.natAbs % 2 ^ excess z = 0 := Nat.mod_eq_zero_of_dvd hdvd
  have hbits : roundedBits z = z.natAbs / 2 ^ excess z := by
    have hpos : 0 < 2 ^ excess z := by positivity
    simp only [roundedBits, hrest]
    rw [if_neg (by omega)]
  have hlt : roundedBits z < 2 ^ 53 := by
    rw [hbits]
    exact bits_lt z
  rw [nearest, dif_pos hlt, dif_pos hbound]
  refine ⟨_, rfl, ?_⟩
  have hexp : (((excess z : Nat) : Int) - 1074 + 1074).toNat = excess z := by omega
  simp only [Double.scaled, hexp, hbits, Nat.div_mul_cancel hdvd, decide_eq_true_eq]
  split <;> omega

theorem natAbs_scaled (d : Double) : d.scaled.natAbs = d.mant * 2 ^ (d.exp + 1074).toNat := by
  simp only [Double.scaled]
  split
  · rw [Int.natAbs_neg, Int.natAbs_natCast]
  · rw [Int.natAbs_natCast]

theorem nearest_scaled (d : Double) : ∃ e, nearest d.scaled = .finite e ∧ e.scaled = d.scaled := by
  obtain ⟨hmant, hlow, hhigh, -⟩ := d.canonical
  have habs := natAbs_scaled d
  have hshift : excess d.scaled ≤ (d.exp + 1074).toNat := by
    unfold excess
    by_cases hzero : d.scaled.natAbs = 0
    · simp [hzero]
    · have hlog : d.scaled.natAbs.log2 < 53 + (d.exp + 1074).toNat := by
        rw [Nat.log2_lt hzero, habs, pow_add]
        exact Nat.mul_lt_mul_of_pos_right hmant (by positivity)
      omega
  apply nearest_exact
  · omega
  · refine (pow_dvd_pow 2 hshift).trans ?_
    rw [habs]
    exact Dvd.intro_left _ rfl

theorem zeroOf_scaled (neg : Bool) : Double.scaled ⟨neg, 0, -1074, by decide⟩ = 0 := by
  revert neg
  decide

theorem add_exact {a b c : Double} (h : c.scaled = a.scaled + b.scaled) :
    ∃ e, JsNumber.add (.finite a) (.finite b) = .finite e ∧ e.scaled = a.scaled + b.scaled := by
  rw [JsNumber.add]
  split
  · rename_i hzero
    refine ⟨_, rfl, ?_⟩
    rw [zeroOf_scaled, hzero]
  · rw [← h]
    exact nearest_scaled c

theorem sub_zero_eq (a : Double) (neg : Bool) :
    ∃ e, JsNumber.sub (.finite a) (zeroOf neg) = .finite e ∧ e.scaled = a.scaled := by
  have hsum : a.scaled = a.scaled + Double.scaled ⟨!neg, 0, -1074, by decide⟩ := by
    rw [zeroOf_scaled, Int.add_zero]
  obtain ⟨e, he, hscaled⟩ := add_exact hsum
  exact ⟨e, he, hscaled.trans hsum.symm⟩

theorem lt_false_iff_le {a b : Double} :
    JsNumber.lt (.finite a) (.finite b) = false ↔ b.scaled ≤ a.scaled := by
  simp [JsNumber.lt]

theorem JsNumber.lt_irrefl (a : JsNumber) : a.lt a = false := by
  cases a with
  | finite d => simp [JsNumber.lt]
  | nan => rfl
  | infinite neg => cases neg <;> rfl

theorem JsNumber.le_trans {a b c : JsNumber} (hab : a.le b = true) (hbc : b.le c = true) : a.le c = true := by
  obtain a | _ | _ | _ := a <;> obtain b | _ | _ | _ := b <;> obtain c | _ | _ | _ := c <;>
    simp [JsNumber.le, JsNumber.lt, JsNumber.eq] at hab hbc ⊢
  omega

variable {a b : JsNumber}

theorem JsNumber.le_of_not_lt (ha : a ≠ .nan) (hb : b ≠ .nan) (h : b.lt a = false) : a.le b = true := by
  obtain a | _ | _ | _ := a <;> obtain b | _ | _ | _ := b <;>
    simp [JsNumber.le, JsNumber.lt, JsNumber.eq] at ha hb h ⊢
  omega

theorem roundedBits_pos (h : z ≠ 0) : 0 < roundedBits z := by
  refine Nat.lt_of_lt_of_le ?_ (roundedBits_le z).1
  by_cases hzero : excess z = 0
  · rw [hzero, pow_zero, Nat.div_one]
    omega
  · exact Nat.lt_of_lt_of_le (by decide) (bits_normal hzero)

theorem nearest_pos_iff (h : z ≠ 0) : (zeroOf false).lt (nearest z) = true ↔ 0 < z := by
  have hsign : ∀ {m : Nat}, 0 < m → (0 < (if decide (z < 0) = true then -(m : Int) else (m : Int)) ↔ 0 < z) := by
    intro m hm
    split
    · rename_i hneg
      rw [decide_eq_true_eq] at hneg
      omega
    · rename_i hneg
      rw [decide_eq_true_eq] at hneg
      omega
  have hinfinite : (zeroOf false).lt (.infinite (decide (z < 0))) = true ↔ 0 < z := by
    by_cases hneg : z < 0
    · simp [hneg, zeroOf, JsNumber.lt]
      omega
    · simp [hneg, zeroOf, JsNumber.lt]
      omega
  rw [nearest]
  split
  · split
    · simp only [zeroOf, JsNumber.lt, zeroOf_scaled, decide_eq_true_eq]
      exact hsign (Nat.mul_pos (roundedBits_pos h) (by positivity))
    · exact hinfinite
  · split
    · simp only [zeroOf, JsNumber.lt, zeroOf_scaled, decide_eq_true_eq]
      exact hsign (Nat.mul_pos (show 0 < 2 ^ 52 by decide) (by positivity))
    · exact hinfinite

theorem sub_pos_iff {a b : Double} :
    (zeroOf false).lt (JsNumber.sub (.finite a) (.finite b)) = true ↔ b.scaled < a.scaled := by
  have hnegate : Double.scaled ⟨!b.neg, b.mant, b.exp, b.canonical⟩ = -b.scaled := by
    cases hneg : b.neg <;> simp [Double.scaled, hneg]
  simp only [JsNumber.sub, JsNumber.negate, JsNumber.add, hnegate]
  split
  · rename_i hzero
    simp only [zeroOf, JsNumber.lt, zeroOf_scaled, decide_eq_true_eq]
    omega
  · rename_i hne
    rw [nearest_pos_iff hne]
    omega

theorem lt_zero_of_nearest (h : (nearest z).lt (zeroOf false) = true) : z < 0 := by
  by_contra hneg
  have hsign : decide (z < 0) = false := decide_eq_false hneg
  have hfinite : ∀ (mant : Nat) (exp : Int) (hcanonical),
      JsNumber.lt (.finite ⟨decide (z < 0), mant, exp, hcanonical⟩) (zeroOf false) = false := by
    intro mant exp hcanonical
    rw [zeroOf, lt_false_iff_le, zeroOf_scaled]
    simp only [Double.scaled, hsign]
    exact Int.natCast_nonneg _
  rw [nearest] at h
  split at h
  · split at h
    · rw [hfinite] at h
      cases h
    · rw [hsign] at h
      cases h
  · split at h
    · rw [hfinite] at h
      cases h
    · rw [hsign] at h
      cases h

theorem JsNumber.sub_lt_asymm (h : (a.sub b).lt (zeroOf false) = true) : (b.sub a).lt (zeroOf false) = false := by
  have hzero : ∀ neg, (zeroOf neg).lt (zeroOf false) = false := by decide
  have hnegate : ∀ d : Double, Double.scaled ⟨!d.neg, d.mant, d.exp, d.canonical⟩ = -d.scaled := by
    intro d
    cases hneg : d.neg <;> simp [Double.scaled, hneg]
  have hdiff : ∀ d e : Double, (JsNumber.sub (.finite d) (.finite e)).lt (zeroOf false) = true →
      d.scaled < e.scaled := by
    intro d e hlt
    simp only [JsNumber.sub, JsNumber.negate, JsNumber.add, hnegate] at hlt
    split at hlt
    · rw [hzero] at hlt
      cases hlt
    · have := lt_zero_of_nearest hlt
      omega
  cases a with
  | finite d =>
    cases b with
    | finite e =>
      have hde := hdiff d e h
      apply eq_false_of_ne_true
      intro hlt
      have hed := hdiff e d hlt
      omega
    | nan => cases h
    | infinite neg =>
      cases neg with
      | false => rfl
      | true => cases h
  | nan => cases h
  | infinite neg =>
    cases b with
    | finite e =>
      cases neg with
      | false => cases h
      | true => rfl
    | nan => cases h
    | infinite neg' =>
      revert neg neg'
      decide

theorem le_iff_scaled {a b : Double} : JsNumber.le (.finite a) (.finite b) = true ↔ a.scaled ≤ b.scaled := by
  simp only [JsNumber.le, JsNumber.lt, JsNumber.eq, Bool.or_eq_true, decide_eq_true_eq]
  omega

theorem JsNumber.eq_comm (a b : JsNumber) : a.eq b = b.eq a := by
  cases a <;> cases b <;> simp [JsNumber.eq, Eq.comm]

theorem JsNumber.not_nan_of_le (h : a.le b = true) : a ≠ .nan ∧ b ≠ .nan := by
  obtain a | _ | _ | _ := a <;> obtain b | _ | _ | _ := b <;>
    simp [JsNumber.le, JsNumber.lt, JsNumber.eq] at h ⊢

theorem natAbs_shift (z : Int) (k : Nat) : (z * 2 ^ k).natAbs = z.natAbs * 2 ^ k := by
  rw [Int.natAbs_mul, Int.natAbs_pow]
  rfl

theorem log2_shift {n : Nat} (k : Nat) (hne : n ≠ 0) (h : n < 2 ^ 53) : (n * 2 ^ k).log2 < 53 + k := by
  have hpos : 0 < n * 2 ^ k := Nat.mul_pos (Nat.pos_of_ne_zero hne) (by positivity)
  rw [Nat.log2_lt (Nat.ne_of_gt hpos), pow_add]
  exact Nat.mul_lt_mul_of_pos_right h (by positivity)

theorem ofInt_exact_int {z : Int} (h : z.natAbs < 2 ^ 53) :
    ∃ d : Double, JsNumber.ofInt z = .finite d ∧ d.scaled = z * scaleOne := by
  have habs : (z * scaleOne).natAbs = z.natAbs * 2 ^ 1074 := natAbs_shift z 1074
  have hshift : excess (z * scaleOne) ≤ 1074 := by
    rw [excess, habs]
    by_cases hzero : z.natAbs = 0
    · rw [hzero, Nat.zero_mul]
      decide
    · have hlog := log2_shift 1074 hzero h
      omega
  apply nearest_exact
  · omega
  · rw [habs]
    exact (pow_dvd_pow 2 hshift).trans (Dvd.intro_left _ rfl)

theorem ofInt_exact {n : Nat} (h : n < 2 ^ 53) :
    ∃ d : Double, JsNumber.ofInt n = .finite d ∧ d.scaled = n * scaleOne :=
  ofInt_exact_int (z := n) h

theorem nearest_natAbs_ge {d : Double} (h : nearest z = .finite d) :
    z.natAbs / 2 ^ excess z * 2 ^ excess z ≤ d.scaled.natAbs := by
  have hbits := bits_lt z
  have hle := (roundedBits_le z).1
  rw [nearest] at h
  split at h
  · split at h
    · cases h
      rw [natAbs_scaled]
      have hexp : (((excess z : Nat) : Int) - 1074 + 1074).toNat = excess z := by omega
      simp only [hexp]
      exact Nat.mul_le_mul_right _ hle
    · cases h
  · split at h
    · cases h
      rw [natAbs_scaled]
      have hexp : (((excess z : Nat) : Int) + 1 - 1074 + 1074).toNat = excess z + 1 := by omega
      simp only [hexp]
      calc z.natAbs / 2 ^ excess z * 2 ^ excess z ≤ 2 ^ 53 * 2 ^ excess z := Nat.mul_le_mul_right _ hbits.le
        _ = 2 ^ 52 * 2 ^ (excess z + 1) := by rw [← pow_add, ← pow_add, show 53 + excess z = 52 + (excess z + 1) by omega]
    · cases h

theorem ofInt_large (h : 2 ^ 53 ≤ z.natAbs) {d : Double} (hd : JsNumber.ofInt z = .finite d) :
    2 ^ 53 * 2 ^ 1074 ≤ d.scaled.natAbs := by
  have habs : (z * scaleOne).natAbs = z.natAbs * 2 ^ 1074 := natAbs_shift z 1074
  have hge : 2 ^ (53 + 1074) ≤ (z * scaleOne).natAbs := by
    rw [habs, pow_add]
    exact Nat.mul_le_mul_right _ h
  have hne : (z * scaleOne).natAbs ≠ 0 := by
    intro hzero
    rw [hzero] at hge
    exact absurd (Nat.le_zero.mp hge) (pow_ne_zero (53 + 1074) two_ne_zero)
  have hlog : 53 + 1074 ≤ (z * scaleOne).natAbs.log2 := (Nat.le_log2 hne).mpr hge
  have hexcess : 1075 ≤ excess (z * scaleOne) := by
    unfold excess
    omega
  calc 2 ^ 53 * 2 ^ 1074 = 2 ^ 52 * 2 ^ 1075 := by rw [← pow_add, ← pow_add]
    _ ≤ 2 ^ 52 * 2 ^ excess (z * scaleOne) := Nat.mul_le_mul_left _ (Nat.pow_le_pow_right (by decide) hexcess)
    _ ≤ (z * scaleOne).natAbs / 2 ^ excess (z * scaleOne) * 2 ^ excess (z * scaleOne) :=
        Nat.mul_le_mul_right _ (bits_normal (by omega))
    _ ≤ d.scaled.natAbs := nearest_natAbs_ge hd

/-- The number is `n`, exactly. -/
def JsNumber.IsNat (x : JsNumber) (n : Nat) : Prop := ∃ d, x = .finite d ∧ d.scaled = n * scaleOne

theorem isNat_zero : (zeroOf false).IsNat 0 := ⟨_, rfl, by rw [zeroOf_scaled, Int.natCast_zero, Int.zero_mul]⟩

theorem JsNumber.IsNat.of_eq {x y : JsNumber} {n : Nat} (h : x.eq y = true) (hy : y.IsNat n) : x.IsNat n := by
  obtain ⟨d, rfl, hd⟩ := hy
  cases x with
  | finite e => exact ⟨e, rfl, (of_decide_eq_true h).trans hd⟩
  | nan => cases h
  | infinite => cases h

theorem JsNumber.IsNat.succ {x : JsNumber} {n : Nat} (h : x.IsNat n) (hn : n + 1 < 2 ^ 53) :
    (x.add (.finite .one)).IsNat (n + 1) := by
  obtain ⟨d, rfl, hd⟩ := h
  obtain ⟨c, -, hc⟩ := ofInt_exact hn
  have hone : Double.one.scaled = scaleOne := by decide +kernel
  have hsum : d.scaled + Double.one.scaled = ((n + 1 : Nat) : Int) * scaleOne := by
    rw [hd, hone, Int.natCast_add, Int.add_mul, Int.natCast_one, Int.one_mul]
  obtain ⟨e, he, hscaled⟩ := add_exact (hc.trans hsum.symm)
  exact ⟨e, he, hscaled.trans hsum⟩

theorem JsNumber.IsNat.unique {x : JsNumber} {m n : Nat} (hm : x.IsNat m) (hn : x.IsNat n) : m = n := by
  obtain ⟨d, rfl, hd⟩ := hm
  obtain ⟨e, he, hscaled⟩ := hn
  cases he
  have heq := Int.eq_of_mul_eq_mul_right (Int.ne_of_gt scaleOne_pos) (hd.symm.trans hscaled)
  exact Int.ofNat.inj heq

theorem JsNumber.IsNat.lt {x y : JsNumber} {m n : Nat} (hx : x.IsNat m) (hy : y.IsNat n) (h : m < n) :
    x.lt y = true := by
  obtain ⟨d, rfl, hd⟩ := hx
  obtain ⟨e, rfl, he⟩ := hy
  rw [JsNumber.lt, hd, he, decide_eq_true_eq]
  exact Int.mul_lt_mul_of_pos_right (Int.ofNat_lt.mpr h) scaleOne_pos

theorem JsNumber.lt_trans {a b c : JsNumber} (hab : a.lt b = true) (hbc : b.lt c = true) : a.lt c = true := by
  obtain a | _ | (_ | _) := a <;> obtain b | _ | (_ | _) := b <;> obtain c | _ | (_ | _) := c <;>
    simp [JsNumber.lt] at hab hbc ⊢
  omega

theorem JsNumber.lt_asymm (h : a.lt b = true) : b.lt a = false := by
  obtain a | _ | (_ | _) := a <;> obtain b | _ | (_ | _) := b <;> simp [JsNumber.lt] at h ⊢
  omega

theorem JsNumber.sub_pos : (zeroOf false).lt (a.sub b) = b.lt a := by
  obtain a | _ | (_ | _) := a <;> obtain b | _ | (_ | _) := b
  case finite.finite => rw [Bool.eq_iff_iff, sub_pos_iff, JsNumber.lt, decide_eq_true_eq]
  all_goals rfl

theorem nearest_lt_zero (h : z < 0) : (nearest z).lt (zeroOf false) = true := by
  have hfinite : ∀ (mant : Nat) (exp : Int) (hcanonical), 0 < mant →
      JsNumber.lt (.finite ⟨true, mant, exp, hcanonical⟩) (zeroOf false) = true := by
    intro mant exp hcanonical hpos
    have hscaled : (0 : Int) < (mant * 2 ^ (exp + 1074).toNat : Nat) :=
      Int.natCast_pos.mpr (Nat.mul_pos hpos (by positivity))
    simp only [zeroOf, JsNumber.lt, zeroOf_scaled, decide_eq_true_eq]
    simp only [Double.scaled, if_true]
    omega
  have hinfinite : JsNumber.lt (.infinite true) (zeroOf false) = true := rfl
  simp only [nearest, decide_eq_true h]
  split
  · split
    · exact hfinite _ _ _ (roundedBits_pos h.ne)
    · exact hinfinite
  · split
    · exact hfinite _ _ _ (by decide)
    · exact hinfinite

theorem JsNumber.sub_neg : (a.sub b).lt (zeroOf false) = a.lt b := by
  have hnegate : ∀ d : Double, Double.scaled ⟨!d.neg, d.mant, d.exp, d.canonical⟩ = -d.scaled := by
    intro d
    cases hneg : d.neg <;> simp [Double.scaled, hneg]
  obtain a | _ | (_ | _) := a <;> obtain b | _ | (_ | _) := b
  case finite.finite =>
    rw [Bool.eq_iff_iff, JsNumber.lt, decide_eq_true_eq]
    constructor
    · intro h
      simp only [JsNumber.sub, JsNumber.negate, JsNumber.add, hnegate] at h
      split at h
      · have hzero : ∀ neg, (zeroOf neg).lt (zeroOf false) = false := by decide
        rw [hzero] at h
        cases h
      · have := lt_zero_of_nearest h
        omega
    · intro h
      simp only [JsNumber.sub, JsNumber.negate, JsNumber.add, hnegate]
      rw [if_neg (by omega)]
      exact nearest_lt_zero (by omega)
  all_goals rfl

/-- `n / unit`, to the nearest integer, from the middle to the even one. -/
def divideToEven (n unit : Nat) : Nat :=
  if unit < 2 * (n % unit) ∨ unit = 2 * (n % unit) ∧ n / unit % 2 = 1 then n / unit + 1 else n / unit

/-- The double nearest to `n / d`: as many leading bits as it can hold, then exactly those. -/
def JsNumber.ofRatio (n d : Nat) : JsNumber :=
  if n = 0 then zeroOf false
  else
    let scale := excess (n * 2 ^ 1074 / d : Nat)
    nearest (divideToEven (n * 2 ^ 1074) (d * 2 ^ scale) * 2 ^ scale : Nat)

theorem divideToEven_near (n : Nat) {unit : Nat} (h : 0 < unit) :
    2 * n ≤ 2 * (divideToEven n unit * unit) + unit ∧ 2 * (divideToEven n unit * unit) ≤ 2 * n + unit := by
  have hdiv := Nat.div_add_mod' n unit
  have hmod := Nat.mod_lt n h
  have hsucc : (n / unit + 1) * unit = n / unit * unit + unit := Nat.succ_mul _ _
  unfold divideToEven
  split
  · rw [hsucc]
    omega
  · omega

theorem divideToEven_le (n unit : Nat) : divideToEven n unit ≤ n / unit + 1 := by
  unfold divideToEven
  split <;> omega

theorem excess_le {n k : Nat} (h : n < 2 ^ (53 + k)) : excess n ≤ k := by
  rw [excess, Int.natAbs_natCast]
  by_cases hzero : n = 0
  · rw [hzero, Nat.log2_zero]
    omega
  · have hlog := (Nat.log2_lt hzero).mpr h
    omega

theorem nearest_rounded {n : Nat} (h : excess n ≤ 2044) :
    ∃ d, nearest n = .finite d ∧ d.scaled = (divideToEven n (2 ^ excess n) * 2 ^ excess n : Nat) := by
  have hbits : divideToEven n (2 ^ excess n) = roundedBits n := rfl
  have hle := (roundedBits_le (n : Int)).2
  have hsign : decide ((n : Int) < 0) = false := decide_eq_false (by omega)
  rw [hbits, nearest]
  split
  · rw [dif_pos (by omega)]
    refine ⟨_, rfl, ?_⟩
    have hexp : (((excess (n : Int) : Nat) : Int) - 1074 + 1074).toNat = excess n := by omega
    simp only [Double.scaled, hexp, hsign]
    rfl
  · have hfull : roundedBits (n : Int) = 2 ^ 53 := by omega
    rw [dif_pos (by omega)]
    refine ⟨_, rfl, ?_⟩
    have hexp : (((excess (n : Int) : Nat) : Int) + 1 - 1074 + 1074).toNat = excess n + 1 := by omega
    have hpow : 2 ^ 52 * 2 ^ (excess n + 1) = 2 ^ 53 * 2 ^ excess n := by rw [← pow_add, ← pow_add]; congr 1; omega
    simp only [Double.scaled, hexp, hsign, hfull, hpow]
    rfl

theorem nearest_near {n : Nat} (h : excess n ≤ 2044) :
    ∃ d, nearest n = .finite d ∧ 2 * (n : Int) ≤ 2 * d.scaled + 2 ^ excess n ∧
      2 * d.scaled ≤ 2 * (n : Int) + 2 ^ excess n := by
  obtain ⟨d, hd, hscaled⟩ := nearest_rounded h
  obtain ⟨hlow, hhigh⟩ := divideToEven_near n (show 0 < 2 ^ excess n by positivity)
  refine ⟨d, hd, ?_, ?_⟩
  · rw [hscaled]
    exact_mod_cast hlow
  · rw [hscaled]
    exact_mod_cast hhigh

theorem nearest_shift {k s : Nat} (hk : k ≤ 2 ^ 53) (hs : s ≤ 2044) :
    ∃ e, nearest (k * 2 ^ s : Nat) = .finite e ∧ e.scaled = (k * 2 ^ s : Nat) := by
  apply nearest_exact
  · have hlt : k * 2 ^ s < 2 ^ (53 + (s + 1)) := by
      rw [show 53 + (s + 1) = 54 + s by omega, pow_add]
      exact Nat.mul_lt_mul_of_pos_right (by omega) (by positivity)
    exact (excess_le hlt).trans (by omega)
  · rw [Int.natAbs_natCast]
    obtain hlt | hfull := Nat.lt_or_eq_of_le hk
    · have hexcess : excess (k * 2 ^ s : Nat) ≤ s := by
        apply excess_le
        rw [pow_add]
        exact Nat.mul_lt_mul_of_pos_right hlt (by positivity)
      exact (pow_dvd_pow 2 hexcess).trans (Dvd.intro_left _ rfl)
    · have hexcess : excess (k * 2 ^ s : Nat) ≤ 53 + s := by
        apply excess_le
        rw [hfull, ← pow_add]
        exact Nat.pow_lt_pow_right (by decide) (by omega)
      rw [hfull, ← pow_add] at hexcess ⊢
      exact pow_dvd_pow 2 hexcess

theorem add_near {a b : Double} {n : Nat} (hsum : a.scaled + b.scaled = n) (h : excess n ≤ 2044) :
    ∃ e, JsNumber.add (.finite a) (.finite b) = .finite e ∧ 2 * (n : Int) ≤ 2 * e.scaled + 2 ^ excess n ∧
      2 * e.scaled ≤ 2 * (n : Int) + 2 ^ excess n := by
  rw [JsNumber.add, hsum]
  by_cases hzero : (n : Int) = 0
  · have hpos : (0 : Int) < 2 ^ excess n := by positivity
    rw [if_pos hzero]
    refine ⟨_, rfl, ?_, ?_⟩
    · rw [zeroOf_scaled]
      omega
    · rw [zeroOf_scaled]
      omega
  · rw [if_neg hzero]
    exact nearest_near h

theorem ofRatio_near {n d : Nat} (hn : n ≠ 0) (hd : 0 < d) (hs : excess (n * 2 ^ 1074 / d : Nat) ≤ 2044) :
    ∃ e, JsNumber.ofRatio n d = .finite e ∧
      2 * ((n * 2 ^ 1074 : Nat) : Int) ≤ 2 * (e.scaled * d) + d * 2 ^ excess (n * 2 ^ 1074 / d : Nat) ∧
      2 * (e.scaled * d) ≤ 2 * ((n * 2 ^ 1074 : Nat) : Int) + d * 2 ^ excess (n * 2 ^ 1074 / d : Nat) := by
  rw [JsNumber.ofRatio, if_neg hn]
  generalize n * 2 ^ 1074 = m at hs ⊢
  have hbits := bits_lt (m / d : Nat)
  generalize excess (m / d : Nat) = s at hs hbits ⊢
  rw [Int.natAbs_natCast, Nat.div_div_eq_div_mul] at hbits
  have hle := divideToEven_le m (d * 2 ^ s)
  obtain ⟨hlow, hhigh⟩ := divideToEven_near m (show 0 < d * 2 ^ s by positivity)
  obtain ⟨e, he, hscaled⟩ := nearest_shift (k := divideToEven m (d * 2 ^ s)) (by omega) hs
  have hmul : e.scaled * d = ((divideToEven m (d * 2 ^ s) * (d * 2 ^ s) : Nat) : Int) := by
    rw [hscaled, ← Int.natCast_mul, Nat.mul_assoc, Nat.mul_comm (2 ^ s)]
  refine ⟨e, he, ?_, ?_⟩
  · rw [hmul]
    exact_mod_cast hlow
  · rw [hmul]
    exact_mod_cast hhigh

theorem nearest_cases (z : Int) : (∃ d, nearest z = .finite d) ∨ nearest z = .infinite (decide (z < 0)) := by
  rw [nearest]
  split
  · split
    · exact .inl ⟨_, rfl⟩
    · exact .inr rfl
  · split
    · exact .inl ⟨_, rfl⟩
    · exact .inr rfl

theorem JsNumber.lt_of_lt_of_le {a b c : JsNumber} (hab : a.lt b = true) (hbc : b.le c = true) : a.lt c = true := by
  obtain a | _ | (_ | _) := a <;> obtain b | _ | (_ | _) := b <;> obtain c | _ | (_ | _) := c <;>
    simp [JsNumber.le, JsNumber.lt, JsNumber.eq] at hab hbc ⊢
  omega

theorem nearest_ge {d : Double} (hpos : 0 ≤ d.scaled) (h : d.scaled ≤ z) :
    JsNumber.le (.finite d) (nearest z) = true := by
  obtain ⟨e, hnear⟩ | hnear := nearest_cases z
  · rw [hnear, le_iff_scaled]
    have hkept := nearest_natAbs_ge hnear
    have hnonneg : 0 ≤ e.scaled := by
      by_contra hlt
      have hbelow : (nearest z).lt (zeroOf false) = true := by
        rw [hnear, zeroOf, JsNumber.lt, zeroOf_scaled, decide_eq_true_eq]
        omega
      have := lt_zero_of_nearest hbelow
      omega
    have habs := natAbs_scaled d
    -- either the bits of `d` are among those kept, or `d` is below what has as many bits
    have hd : d.scaled.natAbs ≤ z.natAbs / 2 ^ excess z * 2 ^ excess z := by
      by_cases hshift : excess z ≤ (d.exp + 1074).toNat
      · obtain ⟨q, hq⟩ : 2 ^ excess z ∣ d.scaled.natAbs := by
          rw [habs]
          exact (pow_dvd_pow 2 hshift).trans (Dvd.intro_left _ rfl)
        rw [hq, Nat.mul_comm]
        apply Nat.mul_le_mul_right
        rw [Nat.le_div_iff_mul_le (by positivity), Nat.mul_comm, ← hq]
        omega
      · calc d.scaled.natAbs = d.mant * 2 ^ (d.exp + 1074).toNat := habs
          _ ≤ 2 ^ 53 * 2 ^ (excess z - 1) :=
            Nat.mul_le_mul d.canonical.1.le (Nat.pow_le_pow_right (by decide) (by omega))
          _ = 2 ^ 52 * 2 ^ excess z := by rw [← pow_add, ← pow_add, show 53 + (excess z - 1) = 52 + excess z by omega]
          _ ≤ z.natAbs / 2 ^ excess z * 2 ^ excess z := Nat.mul_le_mul_right _ (bits_normal (by omega))
    omega
  · rw [hnear, decide_eq_false (by omega)]
    rfl

theorem JsNumber.eq_of_lt (h : a.lt b = true) : b.eq b = true := by
  obtain b | _ | _ := b
  · exact decide_eq_true rfl
  · obtain a | _ | (_ | _) := a <;> cases h
  · exact decide_eq_true rfl

end AgentPassport.Js
