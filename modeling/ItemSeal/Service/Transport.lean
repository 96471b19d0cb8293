import ItemSeal.Act
import ItemSeal.KeyService
import ItemSeal.Service.Shape

/-!
Requests to services and what comes back. A reply with a status from 200 to 299 carries the
result; any other is a refusal, whose body has a code and perhaps words. A body that cannot be
read is a refusal of which nothing is known.
-/

namespace ItemSeal

/-- A request to a service. -/
structure Request where
  /-- The service and the operation. -/
  target : String
  body : Json

/-- What comes back. -/
inductive Reply where
  | answered (status : Int) (body : Json)
  | undelivered (fault : DeliveryFault)

/-- A way to send requests, over a world of type `σ`. -/
structure Transport (σ : Type) where
  send : Request → StateM σ Reply

/-- A transport in a part of the world as one in the whole. -/
def Transport.within {σ τ : Type} (part : Part τ σ) (transport : Transport σ) : Transport τ :=
  ⟨fun request => part.lift (transport.send request)⟩

/-- The text without a part in front that ends with the separator, and from another on. -/
def Refusal.codeOf (name : String) : String :=
  let front := name.toList.takeWhile (· ≠ ':')
  let back := front.dropWhile (· ≠ '#')
  String.ofList (if back.isEmpty then front else back.tail)

/-- An error that an operation is known to give. -/
structure KnownError where
  code : String
  /-- What its body has to look like. -/
  shape : Shape
  /-- What it is called in reports. -/
  title : String := code

/-- An operation of a service. -/
structure Operation (α : Type) where
  /-- The service and the operation. -/
  target : String
  /-- What an answer has to look like. -/
  shape : Shape
  decode : Json → Option α
  known : List KnownError

namespace Operation

variable {α : Type} (operation : Operation α)

/-- The result in a body, if it can be read. -/
def result? (body : Json) : Option α :=
  if operation.shape.canRead body then operation.decode body else none

/-- The refusal in a body. Nothing is known of one without a code, or of one that the operation is
known to give but that does not look like it. -/
def refusal (body : Json) : Refusal :=
  let text := fun name => body.field? name >>= Json.string?
  let message := text "message" <|> text "errorMessage" <|> text "Message"
  match (text "code" <|> text "__type").map Refusal.codeOf with
  | some code =>
      let known := operation.known.find? (·.code == code)
      if known.all (·.shape.canRead body) then
        { code := some code, message, known := known.map (·.title) }
      else {}
  | none => {}

/-- The outcome of a reply. -/
def outcome : Reply → Except ServiceFailure α
  | .undelivered fault => .error (.undelivered fault)
  | .answered status body =>
      if 200 ≤ status ∧ status < 300 then
        match operation.result? body with
        | some result => .ok result
        | none => .error (.refused {})
      else .error (.refused (operation.refusal body))

end Operation

/-- The report of a request with a value of an unknown type in it. -/
def ServiceFailure.unknownValue : ServiceFailure :=
  .unbuilt ("SerializationError \x7b kind: CannotSerializeUnknownVariant \x7b " ++
    "union: \"AttributeValue\" \x7d \x7d")

/-- Sends a request, if it can be built, and reads what comes back. -/
def Transport.call {σ α : Type} (transport : Transport σ) (operation : Operation α)
    (body : Option Json) : Remote σ α :=
  match body with
  | none => throw .unknownValue
  | some body => ExceptT.mk do
      return operation.outcome (← transport.send ⟨operation.target, body⟩)

/-! ## Scripts -/

/-- Services that play by scripts: the replies that each one has left, and
the requests that came. -/
structure Scripts where
  /-- The replies that the service of each number still gives. -/
  replies : List (List Reply) := []
  /-- The requests to any of them, the last one last. -/
  seen : List Request := []

instance : Inhabited Scripts := ⟨{}⟩

namespace Scripts

/-- One more service, and its number. -/
def add (scripts : Scripts) (replies : List Reply) : Nat × Scripts :=
  (scripts.replies.length, { scripts with replies := scripts.replies ++ [replies] })

/-- Plays one request: the next reply goes out, or a failure if none is left. -/
def play (number : Nat) (request : Request) : StateM Scripts Reply := fun scripts =>
  let left := (scripts.replies[number]?).getD []
  (left.headD (.undelivered .other),
    { replies := scripts.replies.modify number List.tail, seen := scripts.seen ++ [request] })

/-- The requests that came, taken out. -/
def takeSeen (scripts : Scripts) : List Request × Scripts :=
  (scripts.seen, { scripts with seen := [] })

/-- The way to the service of that number. -/
def transport (number : Nat) : Transport Scripts :=
  ⟨play number⟩

end Scripts

end ItemSeal
