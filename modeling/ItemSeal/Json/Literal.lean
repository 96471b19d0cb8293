import ItemSeal.Bytes.Hex

/-!
The inside of a JSON string literal: writing escapes the quote, the backslash and the
control characters; reading accepts every escape of the format and refuses raw controls and
halves of surrogate pairs.
-/

namespace ItemSeal.Json.Literal

/-- One character inside a literal. -/
def escaped (c : Char) : List Char :=
  if c = '"' then ['\\', '"']
  else if c = '\\' then ['\\', '\\']
  else if c = '\n' then ['\\', 'n']
  else if c = '\r' then ['\\', 'r']
  else if c = '\t' then ['\\', 't']
  else if c = '\x08' then ['\\', 'b']
  else if c = '\x0c' then ['\\', 'f']
  else if c.toNat < 0x20 then
    ['\\', 'u', '0', '0', Hex.digit (c.toNat / 16), Hex.digit (c.toNat % 16)]
  else [c]

/-- The characters of a literal, quotes included. -/
def encode (text : List Char) : List Char :=
  '"' :: text.flatMap escaped ++ ['"']

/-- The number that four hexadecimal digits stand for. -/
def unit? (a b c d : Char) : Option Nat := do
  let w ← Hex.digitValue? a
  let x ← Hex.digitValue? b
  let y ← Hex.digitValue? c
  let z ← Hex.digitValue? d
  return ((w * 16 + x) * 16 + y) * 16 + z

/-- The character that a one-letter escape stands for. -/
def shortEscape? (c : Char) : Option Char :=
  if c = '"' ∨ c = '\\' ∨ c = '/' then some c
  else if c = 'n' then some '\n'
  else if c = 'r' then some '\r'
  else if c = 't' then some '\t'
  else if c = 'b' then some '\x08'
  else if c = 'f' then some '\x0c'
  else none

/-- The unit is the first half of a surrogate pair. -/
def isHighHalf (unit : Nat) : Bool :=
  decide (0xD800 ≤ unit) && decide (unit < 0xDC00)

/-- The unit is the second half of a surrogate pair. -/
def isLowHalf (unit : Nat) : Bool :=
  decide (0xDC00 ≤ unit) && decide (unit < 0xE000)

/-- The character of a surrogate pair. -/
def ofPair (high low : Nat) : Char :=
  Char.ofNat (0x10000 + (high - 0xD800) * 0x400 + (low - 0xDC00))

/-- The character that four digits after a backslash and a letter u begin, which takes a second
such escape if the first is half of a pair; and what follows. -/
def unicodeEscape? (a b c d : Char) (rest : List Char) : Option (Char × List Char) :=
  match unit? a b c d, rest with
  | some unit, '\\' :: 'u' :: e :: f :: g :: h :: after =>
      if isHighHalf unit then
        match unit? e f g h with
        | some low => if isLowHalf low then some (ofPair unit low, after) else none
        | none => none
      else if isLowHalf unit then none
      else some (Char.ofNat unit, rest)
  | some unit, _ =>
      if isHighHalf unit || isLowHalf unit then none else some (Char.ofNat unit, rest)
  | none, _ => none

/-- The first character of a literal's inside, and what follows it. -/
def nextChar? : List Char → Option (Char × List Char)
  | '\\' :: 'u' :: a :: b :: c :: d :: rest => unicodeEscape? a b c d rest
  | '\\' :: c :: rest => (shortEscape? c).map fun plain => (plain, rest)
  | c :: rest => if c = '\\' ∨ c = '"' ∨ c.toNat < 0x20 then none else some (c, rest)
  | [] => none

theorem unicodeEscape?_length {a b c d : Char} {rest : List Char} {read : Char × List Char}
    (found : unicodeEscape? a b c d rest = some read) : read.2.length ≤ rest.length := by
  unfold unicodeEscape? at found
  grind [Option.bind_eq_some_iff]

theorem nextChar?_length {text : List Char} {read : Char × List Char}
    (found : nextChar? text = some read) : read.2.length < text.length := by
  unfold nextChar? at found
  split at found
  · have := unicodeEscape?_length found
    simp only [List.length_cons]
    omega
  · obtain ⟨plain, -, rfl⟩ := Option.map_eq_some_iff.1 found
    simp only [List.length_cons]
    omega
  · split at found
    · cases found
    · cases found
      exact Nat.lt_succ_self _
  · cases found

/-- Reads up to the closing quote, the opening one being read already: the
text and what follows it. -/
def decode? (text : List Char) : Option (List Char × List Char) :=
  if text.head? = some '"' then some ([], text.tail)
  else
    match _found : nextChar? text with
    | some read => (decode? read.2).map fun tail => (read.1 :: tail.1, tail.2)
    | none => none
termination_by text.length
decreasing_by exact nextChar?_length _found

/-- What follows a literal is shorter than the text it was read from. -/
theorem decode?_length {text : List Char} {read : List Char × List Char}
    (found : decode? text = some read) : read.2.length < text.length := by
  fun_induction decode? text generalizing read with
  | case1 text quote =>
      cases found
      cases text with
      | nil => cases quote
      | cons c rest => exact Nat.lt_succ_self _
  | case2 text _ next nextFound ih =>
      obtain ⟨tail, tailFound, rfl⟩ := Option.map_eq_some_iff.1 found
      have shorter := ih tailFound
      exact Nat.lt_trans shorter (nextChar?_length nextFound)
  | case3 => cases found

end ItemSeal.Json.Literal
