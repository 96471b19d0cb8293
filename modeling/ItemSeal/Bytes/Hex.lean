import ItemSeal.Bytes

/-!
Hexadecimal text of a byte string: two lower-case digits a byte; reading accepts either case.
-/

namespace ItemSeal.Hex

/-- The lower-case digit of a number below sixteen. -/
def digit (n : Nat) : Char :=
  if n < 10 then Char.ofNat ('0'.toNat + n) else Char.ofNat ('a'.toNat + (n - 10))

/-- The value of a hexadecimal digit of either case. -/
def digitValue? (c : Char) : Option Nat :=
  if '0' ≤ c ∧ c ≤ '9' then some (c.toNat - '0'.toNat)
  else if 'a' ≤ c ∧ c ≤ 'f' then some (c.toNat - 'a'.toNat + 10)
  else if 'A' ≤ c ∧ c ≤ 'F' then some (c.toNat - 'A'.toNat + 10)
  else none

/-- Two digits of one byte, the high one first. -/
def ofByte (byte : UInt8) : List Char :=
  [digit (byte.toNat / 16), digit (byte.toNat % 16)]

/-- Two lower-case digits for each byte. -/
def encode (bytes : Bytes) : String :=
  String.ofList (bytes.flatMap ofByte)

/-- Reads pairs of digits; a lone digit or any other character is refused. -/
def decodeDigits? : List Char → Option Bytes
  | [] => some []
  | high :: low :: rest => do
      let h ← digitValue? high
      let l ← digitValue? low
      let bytes ← decodeDigits? rest
      return UInt8.ofNat (h * 16 + l) :: bytes
  | [_] => none

/-- The bytes that a hexadecimal text stands for. -/
def decode? (text : String) : Option Bytes :=
  decodeDigits? text.toList

end ItemSeal.Hex
