import ItemSeal.AttributeValue
import ItemSeal.Bytes.Base64
import ItemSeal.Bytes.Hex
import ItemSeal.Json

/-!
Values as JSON, as services exchange them: an object with one member, named for the type. Bytes
are written as text in a form of choice, which is base64 between services. A value of an unknown
type can be read but not written.
-/

namespace ItemSeal

/-- A way to write bytes as text. -/
structure BinaryForm where
  write : Bytes → String
  read? : String → Option Bytes

namespace BinaryForm

/-- Bytes in base64. -/
def base64 : BinaryForm where
  write := Base64.encode
  read? text := (Base64.decode text).toOption

/-- Bytes in hexadecimal. -/
def hex : BinaryForm where
  write := Hex.encode
  read? := Hex.decode?

end BinaryForm

namespace Json

/-- An object with a member for each name. -/
def ofMap {α : Type} (encode : α → Json) (map : NameMap α) : Json :=
  .object (map.toList.map fun (name, value) => (name, encode value))

/-- The bytes that a text stands for. -/
def bytes? (form : BinaryForm) (json : Json) : Option Bytes :=
  json.string? >>= form.read?

/-- The members of an object; each one has to make sense. -/
def map? {α : Type} (decode : Json → Option α) (json : Json) : Option (NameMap α) := do
  let entries ← (← json.object?).mapM fun (name, value) => do return (name, ← decode value)
  return NameMap.ofList entries

end Json

namespace AttributeValue

variable (form : BinaryForm)

mutual

/-- The JSON form of a value, unless some part of it is of an unknown type. -/
def toJson? : AttributeValue → Option Json
  | .string text => some (.object [("S", .string text)])
  | .number text => some (.object [("N", .string text)])
  | .binary bytes => some (.object [("B", .string (form.write bytes))])
  | .stringSet members => some (.object [("SS", .ofStrings members)])
  | .numberSet members => some (.object [("NS", .ofStrings members)])
  | .binarySet members => some (.object [("BS", .ofStrings (members.map form.write))])
  | .map entries => (entriesToJson? entries).map fun members => .object [("M", .object members)]
  | .list items => (itemsToJson? items).map fun items => .object [("L", .array items)]
  | .null flag => some (.object [("NULL", .bool flag)])
  | .bool flag => some (.object [("BOOL", .bool flag)])
  | .unknown => none

/-- The JSON forms of items. -/
def itemsToJson? : List AttributeValue → Option (List Json)
  | [] => some []
  | item :: rest => do
      let first ← item.toJson?
      let others ← itemsToJson? rest
      return first :: others

/-- The JSON forms of entries, under their names. -/
def entriesToJson? : {bound : Option String} → Ascending AttributeValue bound →
    Option (List (String × Json))
  | _, .nil => some []
  | _, .cons name _ value rest => do
      let first ← value.toJson?
      let others ← entriesToJson? rest
      return (name, first) :: others

end

mutual

/-- The depth of a value's JSON form: the number of objects and arrays around the innermost
one, that one included. -/
def depth : AttributeValue → Nat
  | .stringSet _ | .numberSet _ | .binarySet _ => 2
  | .map entries => entriesDepth entries + 2
  | .list items => itemsDepth items + 2
  | .string _ | .number _ | .binary _ | .null _ | .bool _ | .unknown => 1

/-- The greatest depth of any item. -/
def itemsDepth : List AttributeValue → Nat
  | [] => 0
  | item :: rest => max item.depth (itemsDepth rest)

/-- The greatest depth of any entry. -/
def entriesDepth : {bound : Option String} → Ascending AttributeValue bound → Nat
  | _, .nil => 0
  | _, .cons _ _ value rest => max value.depth (entriesDepth rest)

end

mutual

/-- The value in a JSON form: the one member that is not null tells the type. -/
def ofJson? : Json → Option AttributeValue
  | .object members =>
      match ofMembers? members with
      | some [value] => some value
      | _ => none
  | _ => none

/-- The values of the members of a JSON form; nulls and a note of the type do not count. -/
def ofMembers? : List (String × Json) → Option (List AttributeValue)
  | [] => some []
  | (_, .null) :: rest => ofMembers? rest
  | ("__type", _) :: rest => ofMembers? rest
  | (tag, payload) :: rest => do
      let first ← ofPayload? tag payload
      let others ← ofMembers? rest
      return first :: others

/-- The value of a type with that content. -/
def ofPayload? (tag : String) (payload : Json) : Option AttributeValue :=
  match tag, payload with
  | "S", json => json.string?.map .string
  | "N", json => json.string?.map .number
  | "B", json => (json.bytes? form).map .binary
  | "SS", json => (json.list? Json.string?).map .stringSet
  | "NS", json => (json.list? Json.string?).map .numberSet
  | "BS", json => (json.list? (Json.bytes? form)).map .binarySet
  | "M", .object members =>
      (entriesOfJson? members).map fun entries => .map (NameMap.ofList entries)
  | "L", .array items => (itemsOfJson? items).map .list
  | "M", _ => none
  | "L", _ => none
  | "NULL", json => json.bool?.map .null
  | "BOOL", json => json.bool?.map .bool
  | _, _ => some .unknown

/-- The values in JSON forms. -/
def itemsOfJson? : List Json → Option (List AttributeValue)
  | [] => some []
  | item :: rest => do
      let first ← ofJson? item
      let others ← itemsOfJson? rest
      return first :: others

/-- The values in JSON forms under their names. -/
def entriesOfJson? : List (String × Json) → Option (List (String × AttributeValue))
  | [] => some []
  | (name, value) :: rest => do
      let first ← ofJson? value
      let others ← entriesOfJson? rest
      return (name, first) :: others

end

end AttributeValue

/-- The JSON form of an item, unless some part of it is of an unknown type. -/
def Item.toJson? (form : BinaryForm) (item : Item) : Option Json :=
  (AttributeValue.entriesToJson? form item).map .object

/-- The item in a JSON form. -/
def Item.ofJson? (form : BinaryForm) (json : Json) : Option Item :=
  json.map? (AttributeValue.ofJson? form)

end ItemSeal
