import ItemSeal.Json.Integer
import ItemSeal.Store
import ItemSeal.Store.InputJson

/-!
What a store answers, read from JSON objects. A member that is null counts as absent, and other
members than those asked for are passed over.
-/

namespace ItemSeal

variable (form : BinaryForm)

/-- The consumption in a JSON form. -/
def ConsumedCapacity.ofJson? (json : Json) : Option ConsumedCapacity := do
  return { table := ← json.within? "TableName" Json.string? }

/-- The outcome of storing or deleting an item. -/
def WriteOutput.ofJson? (json : Json) : Option WriteOutput := do
  return {
    attributes := ← json.within? "Attributes" (Item.ofJson? form)
    consumed := ← json.within? "ConsumedCapacity" ConsumedCapacity.ofJson? }

/-- The outcome of reading an item. -/
def GetOutput.ofJson? (json : Json) : Option GetOutput := do
  return {
    item := ← json.within? "Item" (Item.ofJson? form)
    consumed := ← json.within? "ConsumedCapacity" ConsumedCapacity.ofJson? }

/-- What a search found; counts that are not told are zero. -/
def SearchOutput.ofJson? (json : Json) : Option SearchOutput := do
  return {
    items := ← json.within? "Items" (Json.list? (Item.ofJson? form))
    count := (← json.within? "Count" (Json.signed? 32)).getD 0
    scanned := (← json.within? "ScannedCount" (Json.signed? 32)).getD 0
    last := ← json.within? "LastEvaluatedKey" (Item.ofJson? form) }

/-- The items that a batch found. -/
def BatchGetOutput.ofJson? (json : Json) : Option BatchGetOutput := do
  return {
    responses := ← json.within? "Responses" (Json.map? (Json.list? (Item.ofJson? form)))
    unprocessed := ← json.within? "UnprocessedKeys" (Json.map? (KeysRequest.ofJson? form))
    consumed := ← json.within? "ConsumedCapacity" (Json.list? ConsumedCapacity.ofJson?) }

/-- The writes that a batch did not get to. -/
def BatchWriteOutput.ofJson? (json : Json) : Option BatchWriteOutput := do
  return {
    unprocessed :=
      ← json.within? "UnprocessedItems" (Json.map? (Json.list? (WriteRequest.ofJson? form)))
    consumed := ← json.within? "ConsumedCapacity" (Json.list? ConsumedCapacity.ofJson?) }

/-- Names of tables. -/
def ListOutput.ofJson? (json : Json) : Option ListOutput := do
  return {
    names := ← json.within? "TableNames" (Json.list? Json.string?)
    last := ← json.within? "LastEvaluatedTableName" Json.string? }

namespace KeyRole

/-- The name of a role in key schemas. -/
def name : KeyRole → String
  | .partition => "HASH"
  | .sort => "RANGE"
  | .other name => name

/-- The role of that name. -/
def ofName (name : String) : KeyRole :=
  match name with
  | "HASH" => .partition
  | "RANGE" => .sort
  | _ => .other name

end KeyRole

/-- An attribute in a key schema. -/
def KeyElement.ofJson? (json : Json) : Option KeyElement := do
  let name ← json.within? "AttributeName" Json.string?
  let role ← json.within? "KeyType" Json.string?
  return { name := name.getD "", role := .ofName (role.getD "no value was set") }

/-- The description of a table. -/
def TableDescription.ofJson? (json : Json) : Option TableDescription := do
  let elements := Json.list? KeyElement.ofJson?
  let indexes := Json.list? (·.within? "KeySchema" elements)
  return {
    name := ← json.within? "TableName" Json.string?
    keySchema := ← json.within? "KeySchema" elements
    globalIndexes := ← json.within? "GlobalSecondaryIndexes" indexes
    localIndexes := ← json.within? "LocalSecondaryIndexes" indexes }

end ItemSeal
