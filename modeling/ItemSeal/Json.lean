/-!
JSON documents. The members of an object keep their order and may repeat a name; a number keeps
whether it was written as an integer.
-/

namespace ItemSeal

/-- A number as written: an integer literal, or decimal digits with a power of ten. -/
inductive JsonNumber where
  /-- Digits alone, with or without a minus sign. -/
  | integer (negative : Bool) (magnitude : Nat)
  /-- A literal with a fraction or an exponent: its digits times ten to the exponent. -/
  | decimal (negative : Bool) (digits : Nat) (exponent : Int)
  deriving DecidableEq, Repr

/-- A JSON document. -/
inductive Json where
  | null
  | bool (value : Bool)
  | number (value : JsonNumber)
  | string (value : String)
  | array (items : List Json)
  | object (members : List (String × Json))

namespace Json

instance : Inhabited Json := ⟨.null⟩

/-- An integer as a number. -/
def ofInt (n : Int) : Json :=
  .number (.integer (decide (n < 0)) n.natAbs)

/-- A natural number as a number. -/
def ofNat (n : Nat) : Json :=
  .number (.integer false n)

/-- A text, or null. -/
def ofString? : Option String → Json
  | some text => .string text
  | none => .null

/-- The last member of that name; anything but an object has none. -/
def member? (name : String) : Json → Option Json
  | .object members => (members.reverse.find? fun entry => entry.1 == name).map (·.2)
  | _ => none

/-- The last member of that name unless it is null: a null member counts as absent. -/
def field? (name : String) (json : Json) : Option Json :=
  match json.member? name with
  | some .null => none
  | found => found

/-- The text of a string. -/
def string? : Json → Option String
  | .string text => some text
  | _ => none

/-- The value of true or false. -/
def bool? : Json → Option Bool
  | .bool value => some value
  | _ => none

/-- The value of an integer literal. -/
def int? : Json → Option Int
  | .number (.integer negative magnitude) =>
      some (if negative then -(magnitude : Int) else magnitude)
  | _ => none

/-- The items of an array. -/
def array? : Json → Option (List Json)
  | .array items => some items
  | _ => none

/-- The members of an object. -/
def object? : Json → Option (List (String × Json))
  | .object members => some members
  | _ => none

/-- An array of texts. -/
def ofStrings (texts : List String) : Json :=
  .array (texts.map .string)

/-- The elements of an array; each one has to make sense. -/
def list? {α : Type} (decode : Json → Option α) (json : Json) : Option (List α) := do
  (← json.array?).mapM decode

/-- What a member holds: nothing if it is absent or null, and no answer if it makes no sense. -/
def within? {α : Type} (name : String) (decode : Json → Option α) (json : Json) :
    Option (Option α) :=
  match json.field? name with
  | some value => (decode value).map some
  | none => some none

end Json

end ItemSeal
