import ItemSeal.Json

/-!
Floating point numbers of 64 bits, in exact arithmetic: each operation rounds a quotient of
natural numbers to the nearest number there is, a tie to the one with the even significand.
-/

namespace ItemSeal

/-- A quotient of natural numbers. -/
structure Ratio where
  num : Nat
  den : Nat
  deriving DecidableEq, Repr

namespace Ratio

/-- The product. -/
def mul (a b : Ratio) : Ratio :=
  ⟨a.num * b.num, a.den * b.den⟩

/-- The quotient. -/
def div (a b : Ratio) : Ratio :=
  ⟨a.num * b.den, a.den * b.num⟩

/-- The quotient is at most the other. -/
def le (a b : Ratio) : Bool :=
  decide (a.num * b.den ≤ b.num * a.den)

/-- The quotient is less than the other. -/
def lt (a b : Ratio) : Bool :=
  decide (a.num * b.den < b.num * a.den)

/-- A power, a negative exponent meaning division. -/
def power (base : Nat) : Int → Ratio
  | .ofNat n => ⟨base.pow n, 1⟩
  | .negSucc n => ⟨1, base.pow (n + 1)⟩

/-- The natural number nearest to the quotient, the even one of two. -/
def round (a : Ratio) : Nat :=
  let whole := a.num / a.den
  let twice := 2 * (a.num % a.den)
  if twice < a.den then whole
  else if twice > a.den then whole + 1
  else if whole % 2 = 0 then whole
  else whole + 1

end Ratio

/-- A floating point number: a sign, and a significand below `2^53` times two to an exponent. -/
inductive Binary64 where
  | nan
  | infinite (negative : Bool)
  | finite (negative : Bool) (significand : Nat) (exponent : Int)
  deriving DecidableEq, Repr

namespace Binary64

/-- The number of bits in a significand. -/
def precision : Nat := 53

/-- The significands are below this number. -/
def significandBound : Nat := Nat.pow 2 precision

/-- The smallest exponent. -/
def minExponent : Int := -1074

/-- The largest exponent. -/
def maxExponent : Int := 971

/-- The exponent with which a quotient's significand has all its bits, or
the smallest there is. -/
def exponentOf (a : Ratio) : Int :=
  let guess : Int := (a.num.log2 : Int) - a.den.log2 - precision
  let fits := (a.div (.power 2 guess)).lt ⟨significandBound, 1⟩
  max minExponent (if fits then guess else guess + 1)

/-- The number nearest to a quotient; infinite if that is beyond all numbers. -/
def ofRatio (negative : Bool) (a : Ratio) : Binary64 :=
  if a.num = 0 then .finite negative 0 minExponent
  else
    let exponent := exponentOf a
    let significand := (a.div (.power 2 exponent)).round
    let (significand, exponent) :=
      if significand = significandBound then (significandBound / 2, exponent + 1)
      else (significand, exponent)
    if exponent > maxExponent then .infinite negative
    else .finite negative significand exponent

/-- The absolute value of a finite number. -/
def magnitude (significand : Nat) (exponent : Int) : Ratio :=
  (Ratio.mul ⟨significand, 1⟩ (.power 2 exponent))

/-- The number nearest to decimal digits times a power of ten. -/
def ofDecimal (negative : Bool) (digits : Nat) (exponent : Int) : Binary64 :=
  ofRatio negative (Ratio.mul ⟨digits, 1⟩ (.power 10 exponent))

/-- The magnitude of the number nearest to a quotient. -/
def rounded (a : Ratio) : Ratio :=
  match ofRatio false a with
  | .finite _ significand exponent => magnitude significand exponent
  | _ => a

/-! ## JSON literals -/

/-- The digits of a literal are read up to this number. -/
def digitsBound : Nat := Nat.pow 2 64

/-- The leading digits that stay below the bound, and the number of those after them. -/
def leadingDigits (digits : Nat) : Nat × Nat :=
  if digits < digitsBound then (digits, 0)
  else
    let (leading, dropped) := leadingDigits (digits / 10)
    (leading, dropped + 1)
termination_by digits
decreasing_by
  have : 0 < digitsBound := by decide
  omega

/-- The largest power of ten that a number is near to. -/
def maxPower : Nat := 308

/-- The number nearest to a power of ten. -/
def roundedPower (power : Nat) : Ratio :=
  rounded (.power 10 power)

/-- The digits of a literal over a power of ten, rounded at each step, in steps
of at most `maxPower`. -/
def scaleDown (digits : Ratio) (power : Nat) : Ratio :=
  let step := fun a power => rounded (Ratio.div a (roundedPower power))
  if power ≤ maxPower then step digits power
  else if power ≤ 2 * maxPower then step (step digits maxPower) (power - maxPower)
  else ⟨0, 1⟩

/-- The number that digits times a power of ten stand for in a JSON literal: the leading digits
and the power are rounded each by itself, and their product or quotient again. -/
def ofLiteral (negative : Bool) (digits : Nat) (exponent : Int) : Binary64 :=
  let (leading, dropped) := leadingDigits digits
  let rounded := rounded ⟨leading, 1⟩
  match exponent + dropped with
  | .ofNat power =>
      if power ≤ maxPower then ofRatio negative (rounded.mul (roundedPower power))
      else if leading = 0 then .finite negative 0 minExponent
      else .infinite negative
  | .negSucc power => ofRatio negative (scaleDown rounded (power + 1))

/-- The number that a JSON literal stands for. -/
def ofJsonNumber : JsonNumber → Binary64
  | .integer negative magnitude => ofLiteral negative magnitude 0
  | .decimal negative digits exponent => ofLiteral negative digits exponent

/-- The number is zero or below zero. -/
def isNotPositive : Binary64 → Bool
  | .nan => false
  | .infinite negative => negative
  | .finite negative significand _ => negative || significand == 0

end Binary64

end ItemSeal
