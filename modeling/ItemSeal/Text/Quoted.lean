import ItemSeal.Bytes.Hex
import ItemSeal.Text.Visible

/-!
Quoted text: a text between double quotes in which every character that
would not show is spelled out.
-/

namespace ItemSeal.Text

/-- The hexadecimal digits of a number, none in front that are zero. -/
def hexDigits (n : Nat) : List Char :=
  if n < 16 then [Hex.digit n] else hexDigits (n / 16) ++ [Hex.digit (n % 16)]
termination_by n

/-- One character inside quotes: a backslash form for the quote, the backslash and the four common
controls, the code point in braces for what would not show, and itself otherwise. -/
def quotedChar (c : Char) : List Char :=
  if c = '\x00' then ['\\', '0']
  else if c = '\t' then ['\\', 't']
  else if c = '\n' then ['\\', 'n']
  else if c = '\r' then ['\\', 'r']
  else if c = '"' then ['\\', '"']
  else if c = '\\' then ['\\', '\\']
  else if isVisible c then [c]
  else ['\\', 'u', '\x7b'] ++ hexDigits c.toNat ++ ['\x7d']

/-- The text between double quotes. -/
def quoted (text : String) : String :=
  String.ofList ('"' :: text.toList.flatMap quotedChar ++ ['"'])

end ItemSeal.Text
