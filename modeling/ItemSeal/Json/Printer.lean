import ItemSeal.Json
import ItemSeal.Json.Literal

/-!
Writing JSON text in its compact form: no white space, members in their order.
-/

namespace ItemSeal

/-- The literal of a number. -/
def JsonNumber.chars : JsonNumber → List Char
  | .integer negative magnitude =>
      (if negative then ['-'] else []) ++ (toString magnitude).toList
  | .decimal negative digits exponent =>
      (if negative then ['-'] else []) ++ (toString digits).toList ++
        'e' :: (toString exponent).toList

namespace Json

mutual

/-- The characters of a document. -/
def chars : Json → List Char
  | .null => ['n', 'u', 'l', 'l']
  | .bool true => ['t', 'r', 'u', 'e']
  | .bool false => ['f', 'a', 'l', 's', 'e']
  | .number n => n.chars
  | .string text => Literal.encode text.toList
  | .array items => '[' :: itemChars items ++ [']']
  | .object members => '\x7b' :: memberChars members ++ ['\x7d']

/-- The characters of items, with commas between them. -/
def itemChars : List Json → List Char
  | [] => []
  | [item] => item.chars
  | item :: rest => item.chars ++ ',' :: itemChars rest

/-- The characters of members, with commas between them. -/
def memberChars : List (String × Json) → List Char
  | [] => []
  | [(name, value)] => Literal.encode name.toList ++ ':' :: value.chars
  | (name, value) :: rest =>
      Literal.encode name.toList ++ ':' :: (value.chars ++ ',' :: memberChars rest)

end

/-- The compact text of a document. -/
def print (json : Json) : String :=
  String.ofList json.chars

end Json

end ItemSeal
