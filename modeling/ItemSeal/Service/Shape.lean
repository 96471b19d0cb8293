import ItemSeal.AttributeValue.JsonForm
import ItemSeal.Json.Integer

/-!
Shapes of JSON documents. What a service answers has to fit the shape of its operation in every
part, also in those that nobody asks for, and its parts may nest up to a limit. Only what the
shape does not name, members or types of values, may hold anything at any depth.
-/

namespace ItemSeal

/-- What a JSON document has to look like. -/
inductive Shape where
  | text
  | flag
  /-- A signed integer of that many bits. -/
  | signed (bits : Nat)
  /-- A number, or the name of a number that is not finite. -/
  | real
  /-- A time, as a number of seconds. -/
  | time
  /-- Bytes in base64. -/
  | bytes
  /-- An attribute value. -/
  | value
  | list (element : Shape)
  /-- An object whose members all have the one shape. -/
  | map (element : Shape)
  /-- An object; a member of one of these names is absent, null or of the shape there. -/
  | record (members : List (String × Shape))

/-- The document is a number. -/
def Json.isNumber : Json → Bool
  | .number _ => true
  | _ => false

/-- The names of the numbers that are not finite. -/
def Json.realNames : List String :=
  ["NaN", "Infinity", "-Infinity"]

namespace Shape

mutual

/-- The document has the shape, its parts nesting at most `room` deep. -/
def fits : Shape → (room : Nat) → Json → Bool
  | .text, _, json => json.string?.isSome
  | .flag, _, json => json.bool?.isSome
  | .signed bits, _, json => (json.signed? bits).isSome
  | .real, _, json => json.isNumber || json.string?.any (Json.realNames.contains ·)
  | .time, _, json => json.isNumber
  | .bytes, _, json => (json.bytes? .base64).isSome
  | .value, room, json =>
      (AttributeValue.ofJson? .base64 json).any fun value => decide (value.depth ≤ room)
  | .list element, room + 1, json =>
      json.array?.any fun items => items.all fun item => element.fits room item
  | .map element, room + 1, json =>
      json.object?.any fun members => members.all fun member => element.fits room member.2
  | .record members, room + 1, json => json.object?.isSome && membersFit members room json
  | _, 0, _ => false

/-- The members of an object have these shapes, each nesting at most `room` deep. -/
def membersFit : List (String × Shape) → (room : Nat) → Json → Bool
  | [], _, _ => true
  | (name, shape) :: rest, room, json =>
      (json.field? name).all (fun member => shape.fits room member) && membersFit rest room json

end

/-- How deep the parts of a readable document nest at most. -/
def depthLimit : Nat := 128

/-- The document can be read as one of the shape. -/
def canRead (shape : Shape) (json : Json) : Bool :=
  shape.fits depthLimit json

/-- Members that are texts. -/
def texts (names : List String) : List (String × Shape) :=
  names.map (·, .text)

/-- Members that are numbers. -/
def reals (names : List String) : List (String × Shape) :=
  names.map (·, .real)

/-- Members that are times. -/
def times (names : List String) : List (String × Shape) :=
  names.map (·, .time)

/-- Members that are signed integers of 64 bits. -/
def longs (names : List String) : List (String × Shape) :=
  names.map (·, .signed 64)

/-- The shape of an item. -/
def item : Shape := .map .value

end Shape

end ItemSeal
