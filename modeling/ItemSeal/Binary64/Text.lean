import ItemSeal.Binary64

/-!
Floating point numbers as text: the fewest decimal digits that read back as the same number,
all of them written out with no exponent. Reading takes signs, points and exponents, and the
words for what is no number.
-/

namespace ItemSeal.Binary64

/-! ## The fewest digits -/

/-- The quotients that round to a number lie between these bounds, ends included if so marked. -/
structure Span where
  low : Ratio
  high : Ratio
  closed : Bool

/-- The span of the numbers that round to a number: half way to both neighbours. The lower
neighbour of a power of two is nearer. -/
def span (significand : Nat) (exponent : Int) : Span :=
  let unit := Ratio.power 2 exponent
  let below :=
    if 2 * significand = significandBound ∧ exponent > minExponent then 4 * significand - 1
    else 4 * significand - 2
  { low := Ratio.mul ⟨below, 4⟩ unit
    high := Ratio.mul ⟨4 * significand + 2, 4⟩ unit
    closed := significand % 2 == 0 }

/-- The quotient lies in the span. -/
def Span.contains (span : Span) (a : Ratio) : Bool :=
  if span.closed then span.low.le a && a.le span.high else span.low.lt a && a.lt span.high

/-- The number of digits before the point; not above zero if the first digit comes after it. -/
def pointPlace (a : Ratio) : Int :=
  if a.den ≤ a.num then (toString (a.num / a.den)).length
  else
    match (List.range 400).find? fun n => decide (a.den ≤ a.num * Nat.pow 10 (n + 1)) with
    | some zeros => -(zeros : Int)
    | none => 0

/-- The decimal with that many places that is nearest to a quotient, if it lies in the
span: its digits, and the power of ten that they are multiples of. Of two that are equally
near the greater is taken. -/
def nearestDecimal? (a : Ratio) (span : Span) (power : Int) : Option (Nat × Int) :=
  let unit := Ratio.power 10 power
  let below := (a.div unit).num / (a.div unit).den
  let lower := span.contains (Ratio.mul ⟨below, 1⟩ unit)
  let upper := span.contains (Ratio.mul ⟨below + 1, 1⟩ unit)
  let nearer := (a.div unit).lt ⟨2 * below + 1, 2⟩
  if lower && (nearer || !upper) then some (below, power)
  else if upper then some (below + 1, power)
  else none

/-- The fewest digits that read back as the number, and the power of ten that they are multiples
of. A single digit may have become ten, which is one of the next power. -/
def shortest (significand : Nat) (exponent : Int) : Nat × Int :=
  let a := magnitude significand exponent
  let found := (List.range 17).findSome? fun (n : Nat) =>
    nearestDecimal? a (span significand exponent) (pointPlace a - (n + 1 : Nat))
  match found with
  | some (digits, power) => if digits = 10 then (1, power + 1) else (digits, power)
  | none => (0, 0)

/-! ## Writing -/

/-- Digits times a power of ten, written out. -/
def positional (digits : Nat) : Int → String
  | .ofNat zeros => toString digits ++ String.ofList (List.replicate zeros '0')
  | .negSucc n =>
      let places := n + 1
      let text := (toString digits).toList
      let padded := List.replicate (places + 1 - text.length) '0' ++ text
      let whole := padded.take (padded.length - places)
      let fraction := padded.drop (padded.length - places)
      String.ofList (whole ++ '.' :: fraction)

/-- The text of a number. -/
def text : Binary64 → String
  | .nan => "NaN"
  | .infinite negative => (if negative then "-" else "") ++ "inf"
  | .finite negative significand exponent =>
      let (digits, power) := if significand = 0 then (0, 0) else shortest significand exponent
      (if negative then "-" else "") ++ positional digits power

/-! ## Reading -/

/-- The value of decimal digits. -/
def digitsValue? (digits : List Char) : Option Nat :=
  if digits.all Char.isDigit then
    some (digits.foldl (fun n c => n * 10 + (c.toNat - '0'.toNat)) 0)
  else none

/-- A sign in front, and what follows it. -/
def signOf : List Char → Bool × List Char
  | '-' :: rest => (true, rest)
  | '+' :: rest => (false, rest)
  | rest => (false, rest)

/-- The power of ten after a letter e, if there is one. -/
def powerOf? : List Char → Option Int
  | [] => some 0
  | _ :: rest =>
      let (negative, digits) := signOf rest
      if digits.isEmpty then none
      else (digitsValue? digits).map fun (n : Nat) => if negative then -(n : Int) else n

/-- The finite number that digits with a point and an exponent stand for. -/
def unsignedOf? (negative : Bool) (text : List Char) : Option Binary64 := do
  let isExponent := fun c => c == 'e' || c == 'E'
  let mantissa := text.takeWhile fun c => !isExponent c
  let power ← powerOf? (text.dropWhile fun c => !isExponent c)
  let whole := mantissa.takeWhile (· ≠ '.')
  let fraction := (mantissa.dropWhile (· ≠ '.')).drop 1
  if whole.isEmpty && fraction.isEmpty then none
  else
    let digits ← digitsValue? (whole ++ fraction)
    return ofDecimal negative digits (power - fraction.length)

/-- The number that a text stands for. -/
def ofText? (text : String) : Option Binary64 :=
  let (negative, body) := signOf text.toList
  match String.ofList (body.map Char.toLower) with
  | "nan" => some .nan
  | "inf" | "infinity" => some (.infinite negative)
  | _ => unsignedOf? negative body

end ItemSeal.Binary64
