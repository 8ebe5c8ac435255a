import AgentPassport.JsText

/-! JavaScript numbers: IEEE 754 doubles. A finite double is an integer multiple of the
smallest positive one, so order and integrality are decided on integers. -/
namespace AgentPassport.Js
open JsText

/-- A finite double: `mant * 2 ^ exp` with a sign. The mantissa is normalised unless the
exponent is the least one, so every value has one representation and only zero has two. -/
structure Double where
  neg : Bool
  mant : Nat
  exp : Int
  canonical : mant < 2 ^ 53 ∧ -1074 ≤ exp ∧ exp ≤ 971 ∧ (2 ^ 52 ≤ mant ∨ exp = -1074)
  deriving DecidableEq

/-- The value in units of `2 ^ -1074`. -/
def Double.scaled (d : Double) : Int :=
  let m : Int := (d.mant * 2 ^ (d.exp + 1074).toNat : Nat)
  if d.neg then -m else m

/-- The unit of `scaled`. -/
def scaleOne : Int := 2 ^ 1074

/-- `Number.isInteger` on a finite number. -/
def Double.isInteger (d : Double) : Bool := d.scaled % scaleOne = 0

def Double.toInt (d : Double) : Int := d.scaled / scaleOne

theorem scaleOne_pos : 0 < scaleOne := Int.pow_pos (by decide)

theorem toInt_scaled {d : Double} (h : d.isInteger = true) : d.scaled = d.toInt * scaleOne :=
  (Int.ediv_mul_cancel (Int.dvd_of_emod_eq_zero (of_decide_eq_true h))).symm

/-- `Number.isSafeInteger` on a finite number. -/
def Double.isSafeInteger (d : Double) : Bool :=
  d.isInteger && decide (d.toInt.natAbs ≤ 2 ^ 53 - 1)

def Double.one : Double := ⟨false, 2 ^ 52, -52, by decide⟩

inductive JsNumber where
  | finite (d : Double)
  | nan
  | infinite (neg : Bool)
  deriving DecidableEq

/-- `String(n)`; `numText` writes the finite numbers. -/
def JsNumber.text (numText : Double → Str) : JsNumber → Str
  | .finite d => numText d
  | .nan => lit "NaN"
  | .infinite neg => if neg then lit "-Infinity" else lit "Infinity"

def JsNumber.isInteger : JsNumber → Bool
  | .finite d => d.isInteger
  | _ => false

/-- `a < b` on numbers; a comparison with NaN is false. -/
def JsNumber.lt : JsNumber → JsNumber → Bool
  | .finite a, .finite b => a.scaled < b.scaled
  | .infinite true, .finite _ => true
  | .finite _, .infinite false => true
  | .infinite true, .infinite false => true
  | _, _ => false

/-- `===` on numbers: both zeros are the same number, NaN is none. -/
def JsNumber.eq : JsNumber → JsNumber → Bool
  | .finite a, .finite b => a.scaled = b.scaled
  | .infinite a, .infinite b => a = b
  | _, _ => false

end AgentPassport.Js
