import ItemSeal.Json.Token

/-!
Reading JSON text. The reader goes through the tokens once, with a stack of the arrays and objects
that are still open, so it ends with the tokens and needs no bound on the depth.
-/

namespace ItemSeal.Json

/-- An array or object that is still open, a value of it being read. -/
inductive Frame where
  /-- An array, with the items before the one being read. -/
  | items (before : List Json)
  /-- An object, with the members before the one being read and that one's name. -/
  | member (before : List (String × Json)) (name : String)

/-- What may come next, with the frames around it, innermost first. -/
inductive Place where
  /-- A value. -/
  | needValue (frames : List Frame)
  /-- The first item of an array, or its end. -/
  | itemOrEnd (frames : List Frame)
  /-- The first name of an object, or its end. -/
  | nameOrEnd (frames : List Frame)
  /-- A name, after a comma. -/
  | needName (before : List (String × Json)) (frames : List Frame)
  /-- The colon after a name. -/
  | needColon (before : List (String × Json)) (name : String) (frames : List Frame)
  /-- What follows a finished value. -/
  | after (value : Json) (frames : List Frame)

/-- The place after a token that begins a value. -/
def Place.begin (frames : List Frame) : Token → Option Place
  | .openArray => some (.itemOrEnd frames)
  | .openObject => some (.nameOrEnd frames)
  | .string text => some (.after (.string text) frames)
  | .number n => some (.after (.number n) frames)
  | .word value => some (.after value frames)
  | _ => none

/-- The place after one more token; none if the token cannot stand there. -/
def Place.step : Place → Token → Option Place
  | .needValue frames, token => Place.begin frames token
  | .itemOrEnd frames, .closeArray => some (.after (.array []) frames)
  | .itemOrEnd frames, token => Place.begin (.items [] :: frames) token
  | .nameOrEnd frames, .closeObject => some (.after (.object []) frames)
  | .nameOrEnd frames, .string name => some (.needColon [] name frames)
  | .needName before frames, .string name => some (.needColon before name frames)
  | .needColon before name frames, .colon => some (.needValue (.member before name :: frames))
  | .after value (.items before :: frames), .comma =>
      some (.needValue (.items (before ++ [value]) :: frames))
  | .after value (.items before :: frames), .closeArray =>
      some (.after (.array (before ++ [value])) frames)
  | .after value (.member before name :: frames), .comma =>
      some (.needName (before ++ [(name, value)]) frames)
  | .after value (.member before name :: frames), .closeObject =>
      some (.after (.object (before ++ [(name, value)])) frames)
  | _, _ => none

/-- The place after a run of tokens. -/
def Place.run (place : Place) : List Token → Option Place
  | [] => some place
  | token :: rest =>
      match place.step token with
      | some next => next.run rest
      | none => none

/-- The document that the tokens spell, if they spell exactly one. -/
def ofTokens? (tokens : List Token) : Option Json :=
  match (Place.needValue []).run tokens with
  | some (.after value []) => some value
  | _ => none

/-- The document that a text holds. -/
def parse? (text : String) : Option Json :=
  (tokens? text.toList).bind ofTokens?

end ItemSeal.Json
