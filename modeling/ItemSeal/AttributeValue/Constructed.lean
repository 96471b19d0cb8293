import ItemSeal.AttributeValue
import ItemSeal.Bytes.Hex
import ItemSeal.Text.Quoted

/-!
Values in constructor notation: the name of the type, then what is in it in
parentheses, texts quoted and bytes in hexadecimal. It is how values that are not
scalars show in a key service's context.
-/

namespace ItemSeal

/-- The parts with a comma and a blank between them. -/
def Text.commaSeparated (parts : List String) : String :=
  ", ".intercalate parts

namespace AttributeValue

/-- Bytes inside a value. -/
def blobText (bytes : Bytes) : String :=
  "Blob \x7b inner: " ++ Hex.encode bytes ++ " \x7d"

/-- Parts between square brackets. -/
def bracketed (parts : List String) : String :=
  "[" ++ Text.commaSeparated parts ++ "]"

mutual

/-- The constructor notation of a value. -/
def constructed : AttributeValue → String
  | .string text => "S(" ++ Text.quoted text ++ ")"
  | .number text => "N(" ++ Text.quoted text ++ ")"
  | .binary bytes => "B(" ++ blobText bytes ++ ")"
  | .stringSet members => "Ss(" ++ bracketed (members.map Text.quoted) ++ ")"
  | .numberSet members => "Ns(" ++ bracketed (members.map Text.quoted) ++ ")"
  | .binarySet members => "Bs(" ++ bracketed (members.map blobText) ++ ")"
  | .map entries => "M(\x7b" ++ Text.commaSeparated (constructedEntries entries) ++ "\x7d)"
  | .list items => "L(" ++ bracketed (constructedItems items) ++ ")"
  | .null flag => "Null(" ++ (if flag then "true" else "false") ++ ")"
  | .bool flag => "Bool(" ++ (if flag then "true" else "false") ++ ")"
  | .unknown => "Unknown"

/-- The notations of items. -/
def constructedItems : List AttributeValue → List String
  | [] => []
  | item :: rest => item.constructed :: constructedItems rest

/-- The notations of entries, each name before its value. -/
def constructedEntries : {bound : Option String} → Ascending AttributeValue bound → List String
  | _, .nil => []
  | _, .cons name _ value rest =>
      (Text.quoted name ++ ": " ++ value.constructed) :: constructedEntries rest

end

end AttributeValue

end ItemSeal
