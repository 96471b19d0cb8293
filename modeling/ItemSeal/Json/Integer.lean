import ItemSeal.Binary64

/-!
Integers of limited size in JSON documents. A decimal literal serves as well, if nothing is lost
by taking its integral part.
-/

namespace ItemSeal

/-- How far apart two quotients are. -/
def Ratio.distance (a b : Ratio) : Ratio :=
  ⟨(a.num * b.den - b.num * a.den) + (b.num * a.den - a.num * b.den), a.den * b.den⟩

namespace JsonNumber

/-- Two numbers that are closer than this count as one. -/
def tolerance : Ratio := .power 2 (-52)

/-- The largest absolute value of a signed integer of that many bits. -/
def signedLimit (bits : Nat) (negative : Bool) : Nat :=
  if negative then Nat.pow 2 (bits - 1) else Nat.pow 2 (bits - 1) - 1

/-- The largest absolute value that an integer literal is read exactly up to. -/
def exactLimit (negative : Bool) : Nat :=
  if negative then signedLimit 64 true else Nat.pow 2 64 - 1

/-- The absolute value of a signed integer near a floating point number: the integral
part, cut off at the limit. -/
def wholePart? (limit : Nat) (number : Ratio) : Option Nat :=
  let whole := min (number.num / number.den) limit
  if ((Binary64.rounded ⟨whole, 1⟩).distance number).lt tolerance then some whole else none

/-- The signed integer of that many bits that a number stands for. -/
def signed? (bits : Nat) : JsonNumber → Option Int
  | .integer negative magnitude =>
      if magnitude ≤ exactLimit negative then
        if magnitude ≤ signedLimit bits negative then
          some (if negative then -(magnitude : Int) else magnitude)
        else none
      else ofBinary64? bits (.ofJsonNumber (.integer negative magnitude))
  | number@(.decimal ..) => ofBinary64? bits (.ofJsonNumber number)
where
  /-- The integer that a floating point number comes down to. -/
  ofBinary64? (bits : Nat) : Binary64 → Option Int
    | .finite negative significand exponent =>
        (wholePart? (signedLimit bits negative) (Binary64.magnitude significand exponent)).map
          fun whole => if negative then -(whole : Int) else whole
    | _ => none

end JsonNumber

/-- The signed integer of that many bits in a JSON document. -/
def Json.signed? (bits : Nat) : Json → Option Int
  | .number n => n.signed? bits
  | _ => none

end ItemSeal
