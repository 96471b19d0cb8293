import ItemSeal.Json
import ItemSeal.Json.Literal

/-!
The tokens of JSON text: punctuation, string and number literals, and the three words. White space
between tokens is the space, the tab, the line feed and the carriage return.
-/

namespace ItemSeal.Json

/-- A token of JSON text. -/
inductive Token where
  | openArray
  | closeArray
  | openObject
  | closeObject
  | comma
  | colon
  | string (text : String)
  | number (value : JsonNumber)
  | word (value : Json)

/-- White space between tokens. -/
def isSpace (c : Char) : Bool :=
  c == ' ' || c == '\t' || c == '\n' || c == '\r'

/-- A character that a number literal may contain. -/
def isNumberChar (c : Char) : Bool :=
  c.isDigit || c == '-' || c == '+' || c == '.' || c == 'e' || c == 'E'

/-- The number that decimal digits stand for. -/
def digitsValue (digits : List Char) : Nat :=
  digits.foldl (fun n c => n * 10 + (c.toNat - '0'.toNat)) 0

/-- The exponent after its letter: an optional sign and at least one digit. -/
def exponentOf? (text : List Char) : Option Int :=
  let (negative, digits) :=
    match text with
    | '-' :: digits => (true, digits)
    | '+' :: digits => (false, digits)
    | digits => (false, digits)
  if digits.isEmpty || !digits.all Char.isDigit then none
  else some (if negative then -(digitsValue digits : Int) else digitsValue digits)

/-- The number whose literal is the whole of `text`: no sign but a minus, no needless leading
zero, at least one digit on each side of the point. -/
def numberOf? (text : List Char) : Option JsonNumber :=
  let (negative, unsigned) :=
    match text with
    | '-' :: unsigned => (true, unsigned)
    | unsigned => (false, unsigned)
  let whole := unsigned.takeWhile Char.isDigit
  let afterWhole := unsigned.dropWhile Char.isDigit
  if whole.isEmpty || (whole.head? == some '0' && decide (1 < whole.length)) then none
  else
    match afterWhole with
    | [] => some (.integer negative (digitsValue whole))
    | '.' :: afterPoint =>
        let fraction := afterPoint.takeWhile Char.isDigit
        let digits := digitsValue (whole ++ fraction)
        if fraction.isEmpty then none
        else
          match afterPoint.dropWhile Char.isDigit with
          | [] => some (.decimal negative digits (-fraction.length))
          | c :: rest =>
              if c = 'e' ∨ c = 'E' then
                (exponentOf? rest).map fun e => .decimal negative digits (e - fraction.length)
              else none
    | c :: rest =>
        if c = 'e' ∨ c = 'E' then
          (exponentOf? rest).map fun e => .decimal negative (digitsValue whole) e
        else none

/-- The value of a word. -/
def wordOf? (text : List Char) : Option Json :=
  if text = ['t', 'r', 'u', 'e'] then some (.bool true)
  else if text = ['f', 'a', 'l', 's', 'e'] then some (.bool false)
  else if text = ['n', 'u', 'l', 'l'] then some .null
  else none

/-- The token of a punctuation mark. -/
def punctuation? (c : Char) : Option Token :=
  if c = '[' then some .openArray
  else if c = ']' then some .closeArray
  else if c = '\x7b' then some .openObject
  else if c = '\x7d' then some .closeObject
  else if c = ',' then some .comma
  else if c = ':' then some .colon
  else none

theorem length_dropWhile_le (p : Char → Bool) (text : List Char) :
    (text.dropWhile p).length ≤ text.length := by
  induction text with
  | nil => exact Nat.le_refl _
  | cons c text ih =>
      simp only [List.dropWhile_cons]
      split
      · exact Nat.le_succ_of_le ih
      · exact Nat.le_refl _

/-- The tokens of a text, or none if some part of it is no token. -/
def tokens? : List Char → Option (List Token)
  | [] => some []
  | c :: rest =>
      if isSpace c then tokens? rest
      else if c = '"' then
        match _read : Literal.decode? rest with
        | some found => (tokens? found.2).map (.string (String.ofList found.1) :: ·)
        | none => none
      else if isNumberChar c && c != 'e' && c != 'E' then
        let literal := c :: rest.takeWhile isNumberChar
        match numberOf? literal with
        | some n => (tokens? (rest.dropWhile isNumberChar)).map (.number n :: ·)
        | none => none
      else if c.isAlpha then
        match wordOf? (c :: rest.takeWhile Char.isAlpha) with
        | some value => (tokens? (rest.dropWhile Char.isAlpha)).map (.word value :: ·)
        | none => none
      else
        match punctuation? c with
        | some token => (tokens? rest).map (token :: ·)
        | none => none
termination_by text => text.length
decreasing_by
  · simp
  · have := Literal.decode?_length _read
    simp only [List.length_cons]
    omega
  · have := length_dropWhile_le isNumberChar rest
    simp only [List.length_cons]
    omega
  · have := length_dropWhile_le Char.isAlpha rest
    simp only [List.length_cons]
    omega
  · simp

end ItemSeal.Json
