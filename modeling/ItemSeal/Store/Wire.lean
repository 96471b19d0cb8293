import ItemSeal.Store.Operations

/-!
A store at the other end of a transport, requests and answers being JSON with bytes in base64.
-/

namespace ItemSeal.Store

variable {σ α : Type}

/-- Sends a request, about that table if it is about one, and reads what comes back. -/
def request (transport : Transport σ) (operation : Operation α) (table : Option String)
    (body : Option Json) : Act σ α :=
  ExceptT.mk do
    let outcome ← (transport.call operation body).run
    return outcome.mapError (·.storeError table)

/-- The description of a table; an answer without one is an error. -/
def describeThrough (transport : Transport σ) (table : String) : Act σ TableDescription := do
  let answer ← request transport describeOperation (some table)
    (some (.object [("TableName", .string table)]))
  match answer with
  | some description => return description
  | none => throw (.noDescription table)

/-- The store at the other end. -/
def ofTransport (transport : Transport σ) : Store σ where
  describe := describeThrough transport
  list input := request transport listOperation none input.toJson?
  batchGet input := request transport batchGetOperation none (input.toJson? .base64)
  batchWrite input := request transport batchWriteOperation none (input.toJson? .base64)
  put input := request transport putOperation input.table (input.toJson? .base64)
  get input := request transport getOperation input.table (input.toJson? .base64)
  delete input := request transport deleteOperation input.table (input.toJson? .base64)
  query input := request transport queryOperation input.table (input.toJson? .base64)
  scan input := request transport scanOperation input.table (input.toJson? .base64)

end ItemSeal.Store
