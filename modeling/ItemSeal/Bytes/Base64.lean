import ItemSeal.Bytes

/-!
Base64 with the standard alphabet. Writing pads the last group with `=`; reading is
strict: the padding must be there, unused bits must be zero, and the first fault found
is reported with its place.
-/

namespace ItemSeal.Base64

/-- Why a text is not the base64 form of any byte string. -/
inductive Fault where
  /-- The byte at this offset has no place there. -/
  | invalidSymbol (offset : Nat) (byte : UInt8)
  /-- The last group holds too few symbols. -/
  | invalidLength (length : Nat)
  /-- The last symbol carries bits that no byte takes. -/
  | invalidLastSymbol (offset : Nat) (byte : UInt8)
  /-- The padding does not fill the last group. -/
  | invalidPadding
  deriving DecidableEq, Repr

/-- The report of a fault. -/
def Fault.message : Fault → String
  | .invalidSymbol offset byte => s!"Invalid symbol {byte.toNat}, offset {offset}."
  | .invalidLength length => s!"Invalid input length: {length}"
  | .invalidLastSymbol offset byte => s!"Invalid last symbol {byte.toNat}, offset {offset}."
  | .invalidPadding => "Invalid padding"

/-- The padding byte, an equals sign. -/
def pad : UInt8 := 0x3D

/-- The byte that writes a number below sixty-four. -/
def symbol (n : Nat) : UInt8 :=
  if n < 26 then UInt8.ofNat (0x41 + n)
  else if n < 52 then UInt8.ofNat (0x61 + (n - 26))
  else if n < 62 then UInt8.ofNat (0x30 + (n - 52))
  else if n = 62 then 0x2B
  else 0x2F

/-- The number that a byte of the alphabet stands for. -/
def symbolValue? (byte : UInt8) : Option Nat :=
  let n := byte.toNat
  if 0x41 ≤ n ∧ n ≤ 0x5A then some (n - 0x41)
  else if 0x61 ≤ n ∧ n ≤ 0x7A then some (n - 0x61 + 26)
  else if 0x30 ≤ n ∧ n ≤ 0x39 then some (n - 0x30 + 52)
  else if n = 0x2B then some 62
  else if n = 0x2F then some 63
  else none

/-- The written bytes: four symbols for three bytes, the last group padded. -/
def encodeBytes : Bytes → Bytes
  | a :: b :: c :: rest =>
      let n := (a.toNat * 256 + b.toNat) * 256 + c.toNat
      symbol (n / 262144) :: symbol (n / 4096 % 64) :: symbol (n / 64 % 64) :: symbol (n % 64)
        :: encodeBytes rest
  | [a, b] =>
      let n := (a.toNat * 256 + b.toNat) * 4
      [symbol (n / 4096), symbol (n / 64 % 64), symbol (n % 64), pad]
  | [a] =>
      let n := a.toNat * 16
      [symbol (n / 64), symbol (n % 64), pad, pad]
  | [] => []

/-- The base64 text of a byte string. -/
def encode (bytes : Bytes) : String :=
  String.ofList ((encodeBytes bytes).map fun byte => Char.ofNat byte.toNat)

/-- The number of the symbol at an offset. -/
def symbolAt (offset : Nat) (byte : UInt8) : Except Fault Nat :=
  match symbolValue? byte with
  | some n => .ok n
  | none => .error (.invalidSymbol offset byte)

/-- The last group as read so far: its numbers and its last symbol, then
the padding after them. -/
structure Tail where
  numbers : List Nat
  last : UInt8
  padding : Nat
  firstPadding : Nat

/-- Reads a group of at most four bytes: symbols, then padding no earlier than the third place and
followed by nothing but padding. -/
def scanTail (offset place : Nat) (tail : Tail) : Bytes → Except Fault Tail
  | [] => .ok tail
  | byte :: rest =>
      if byte = pad then
        if place < 2 then .error (.invalidSymbol (offset + place) byte)
        else
          let first := if tail.padding = 0 then place else tail.firstPadding
          scanTail offset (place + 1)
            { tail with padding := tail.padding + 1, firstPadding := first } rest
      else if 0 < tail.padding then .error (.invalidSymbol (offset + tail.firstPadding) pad)
      else
        match symbolAt (offset + place) byte with
        | .error fault => .error fault
        | .ok n =>
            scanTail offset (place + 1)
              { tail with numbers := tail.numbers ++ [n], last := byte } rest

/-- The bytes of a last group of two to four numbers, refused when unused bits are set. -/
def tailBytes (offset : Nat) (last : UInt8) : List Nat → Except Fault Bytes
  | [a, b, c, d] =>
      .ok (Bytes.ofNat 3 (((a * 64 + b) * 64 + c) * 64 + d))
  | [a, b, c] =>
      let n := (a * 64 + b) * 64 + c
      if n % 4 = 0 then .ok (Bytes.ofNat 2 (n / 4))
      else .error (.invalidLastSymbol (offset + 2) last)
  | [a, b] =>
      let n := a * 64 + b
      if n % 16 = 0 then .ok (Bytes.ofNat 1 (n / 16))
      else .error (.invalidLastSymbol (offset + 1) last)
  | numbers => .error (.invalidLength (offset + numbers.length))

/-- Reads the last group, which may be empty only if the whole text is. -/
def decodeTail (offset : Nat) (bytes : Bytes) : Except Fault Bytes := do
  let tail ← scanTail offset 0 ⟨[], 0, 0, 0⟩ bytes
  let count := tail.numbers.length
  if bytes = [] then return []
  else if count < 2 then throw (.invalidLength (offset + count))
  else if (tail.padding + count) % 4 ≠ 0 then throw .invalidPadding
  else tailBytes offset tail.last tail.numbers

/-- Reads whole groups as long as a byte follows them, then the last group. -/
def decodeGroups (offset : Nat) : Bytes → Except Fault Bytes
  | a :: b :: c :: d :: next :: rest => do
      let x ← symbolAt offset a
      let y ← symbolAt (offset + 1) b
      let z ← symbolAt (offset + 2) c
      let w ← symbolAt (offset + 3) d
      let more ← decodeGroups (offset + 4) (next :: rest)
      return Bytes.ofNat 3 (((x * 64 + y) * 64 + z) * 64 + w) ++ more
  | bytes => decodeTail offset bytes

/-- A lone byte after whole groups that is neither symbol nor padding is
reported before all else. -/
def strayByte? (bytes : Bytes) : Option Fault :=
  match bytes.getLast? with
  | some byte =>
      if bytes.length % 4 = 1 ∧ byte ≠ pad ∧ symbolValue? byte = none then
        some (.invalidSymbol (bytes.length - 1) byte)
      else none
  | none => none

/-- The bytes that a base64 text stands for, or the first fault. -/
def decode (text : String) : Except Fault Bytes :=
  let bytes := Bytes.ofString text
  match strayByte? bytes with
  | some fault => .error fault
  | none => decodeGroups 0 bytes

end ItemSeal.Base64
