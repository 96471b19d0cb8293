import ItemSeal.AttributeValue.JsonForm
import ItemSeal.Store.Input

/-!
Requests as JSON objects: each part that is there is a member, and absent parts have none; a null
counts as absent. Bytes are written in a form of choice. A request with a value of an unknown
type in it has no JSON form.
-/

namespace ItemSeal

/-- The members of an object that is being written; none if some value has no JSON form. -/
abbrev Members := Option (List (String × Json))

namespace Members

/-- The member of a part that is there. -/
def part {α : Type} (name : String) (encode : α → Option Json) : Option α → Members
  | some value => (encode value).map fun json => [(name, json)]
  | none => some []

/-- The member of a text that is there. -/
def text (name : String) : Option String → Members :=
  part name fun value => some (.string value)

/-- The member of a truth value that is there. -/
def flag (name : String) : Option Bool → Members :=
  part name fun value => some (.bool value)

/-- The member of an integer that is there. -/
def int (name : String) : Option Int → Members :=
  part name fun value => some (.ofInt value)

/-- The member of a list of texts that is there. -/
def texts (name : String) : Option (List String) → Members :=
  part name fun values => some (.ofStrings values)

/-- The member of a map that is there. -/
def map {α : Type} (name : String) (encode : α → Option Json) : Option (NameMap α) → Members :=
  part name fun entries => do
    let members ← entries.toList.mapM fun (key, value) => do return (key, ← encode value)
    return .object members

/-- The member of a list that is there. -/
def list {α : Type} (name : String) (encode : α → Option Json) : Option (List α) → Members :=
  part name fun values => do return .array (← values.mapM encode)

/-- The object of all these members. -/
def object? (parts : List Members) : Option Json := do
  return .object (← parts.mapM id).flatten

end Members

variable (form : BinaryForm)

/-! ## Reads -/

/-- The member of a map of names. -/
def Members.aliases (names : Option (NameMap String)) : Members :=
  .map "ExpressionAttributeNames" (fun value => some (.string value)) names

namespace ReadOptions

/-- The members of how items are read. -/
def members (options : ReadOptions) : List Members :=
  [.texts "AttributesToGet" options.attributesToGet,
    .text "ProjectionExpression" options.projection,
    .flag "ConsistentRead" options.consistent,
    .aliases options.nameAliases]

/-- How items are read. -/
def ofJson? (json : Json) : Option ReadOptions := do
  return {
    attributesToGet := ← json.within? "AttributesToGet" (Json.list? Json.string?)
    projection := ← json.within? "ProjectionExpression" Json.string?
    consistent := ← json.within? "ConsistentRead" Json.bool?
    nameAliases := ← json.within? "ExpressionAttributeNames" (Json.map? Json.string?) }

end ReadOptions

namespace GetInput

/-- The JSON form of a request for an item. -/
def toJson? (input : GetInput) : Option Json :=
  Members.object? ([.text "TableName" input.table, .part "Key" (Item.toJson? form) input.key] ++
    input.options.members ++ [.text "ReturnConsumedCapacity" input.returnConsumedCapacity])

/-- The request for an item in a JSON form. -/
def ofJson? (json : Json) : Option GetInput := do
  return {
    table := ← json.within? "TableName" Json.string?
    key := ← json.within? "Key" (Item.ofJson? form)
    options := ← ReadOptions.ofJson? json
    returnConsumedCapacity := ← json.within? "ReturnConsumedCapacity" Json.string? }

end GetInput

namespace KeysRequest

/-- The JSON form of what a batch asks of one table. -/
def toJson? (request : KeysRequest) : Option Json :=
  Members.object? (.list "Keys" (Item.toJson? form) request.keys :: request.options.members)

/-- What a batch asks of one table; keys that are missing are none. -/
def ofJson? (json : Json) : Option KeysRequest := do
  return {
    keys := (← json.within? "Keys" (Json.list? (Item.ofJson? form))).getD []
    options := ← ReadOptions.ofJson? json }

end KeysRequest

namespace BatchGetInput

/-- The JSON form of a request for items of several tables. -/
def toJson? (input : BatchGetInput) : Option Json :=
  Members.object? [
    .map "RequestItems" (KeysRequest.toJson? form) input.requests,
    .text "ReturnConsumedCapacity" input.returnConsumedCapacity]

/-- The request for items of several tables in a JSON form. -/
def ofJson? (json : Json) : Option BatchGetInput := do
  return {
    requests := ← json.within? "RequestItems" (Json.map? (KeysRequest.ofJson? form))
    returnConsumedCapacity := ← json.within? "ReturnConsumedCapacity" Json.string? }

end BatchGetInput

namespace ListInput

/-- The JSON form of a request for names of tables. -/
def toJson? (input : ListInput) : Option Json :=
  Members.object? [
    .text "ExclusiveStartTableName" input.start,
    .int "Limit" input.limit]

/-- The request for names of tables in a JSON form. -/
def ofJson? (json : Json) : Option ListInput := do
  return {
    start := ← json.within? "ExclusiveStartTableName" Json.string?
    limit := ← json.within? "Limit" Json.int? }

end ListInput

/-! ## Searches -/

namespace Condition

/-- The JSON form of a condition. -/
def toJson? (condition : Condition) : Option Json :=
  Members.object? [
    .text "ComparisonOperator" condition.comparison,
    .list "AttributeValueList" (AttributeValue.toJson? form) condition.operands]

/-- The condition in a JSON form. -/
def ofJson? (json : Json) : Option Condition := do
  return {
    comparison := ← json.field? "ComparisonOperator" >>= Json.string?
    operands := ← json.within? "AttributeValueList" (Json.list? (AttributeValue.ofJson? form)) }

end Condition

namespace SearchOptions

/-- The members of what every search has. -/
def members (options : SearchOptions) : List Members :=
  options.read.members ++
    [.text "IndexName" options.index,
      .text "Select" (options.select.map (·.name)),
      .int "Limit" options.limit,
      .text "ConditionalOperator" options.conditionalOperator,
      .part "ExclusiveStartKey" (Item.toJson? form) options.start,
      .text "FilterExpression" options.filter,
      .part "ExpressionAttributeValues" (Item.toJson? form) options.valueAliases,
      .text "ReturnConsumedCapacity" options.returnConsumedCapacity]

/-- What every search has. -/
def ofJson? (json : Json) : Option SearchOptions := do
  return {
    read := ← ReadOptions.ofJson? json
    index := ← json.within? "IndexName" Json.string?
    select := (← json.within? "Select" Json.string?).map Selection.ofName
    limit := ← json.within? "Limit" Json.int?
    conditionalOperator := ← json.within? "ConditionalOperator" Json.string?
    start := ← json.within? "ExclusiveStartKey" (Item.ofJson? form)
    filter := ← json.within? "FilterExpression" Json.string?
    valueAliases := ← json.within? "ExpressionAttributeValues" (Item.ofJson? form)
    returnConsumedCapacity := ← json.within? "ReturnConsumedCapacity" Json.string? }

end SearchOptions

namespace QueryInput

/-- The JSON form of a request for the items with a partition key. -/
def toJson? (input : QueryInput) : Option Json :=
  Members.object? ([.text "TableName" input.table] ++ input.options.members form ++
    [.text "KeyConditionExpression" input.keyCondition,
      .map "KeyConditions" (Condition.toJson? form) input.keyConditions,
      .map "QueryFilter" (Condition.toJson? form) input.conditions,
      .flag "ScanIndexForward" input.forward])

/-- The request for the items with a partition key in a JSON form. -/
def ofJson? (json : Json) : Option QueryInput := do
  return {
    table := ← json.within? "TableName" Json.string?
    options := ← SearchOptions.ofJson? form json
    keyCondition := ← json.within? "KeyConditionExpression" Json.string?
    keyConditions := ← json.within? "KeyConditions" (Json.map? (Condition.ofJson? form))
    conditions := ← json.within? "QueryFilter" (Json.map? (Condition.ofJson? form))
    forward := ← json.within? "ScanIndexForward" Json.bool? }

end QueryInput

namespace ScanInput

/-- The JSON form of a request for all items. -/
def toJson? (input : ScanInput) : Option Json :=
  Members.object? ([.text "TableName" input.table] ++ input.options.members form ++
    [.map "ScanFilter" (Condition.toJson? form) input.conditions,
      .int "Segment" input.segment,
      .int "TotalSegments" input.totalSegments])

/-- The request for all items in a JSON form. -/
def ofJson? (json : Json) : Option ScanInput := do
  return {
    table := ← json.within? "TableName" Json.string?
    options := ← SearchOptions.ofJson? form json
    conditions := ← json.within? "ScanFilter" (Json.map? (Condition.ofJson? form))
    segment := ← json.within? "Segment" Json.int?
    totalSegments := ← json.within? "TotalSegments" Json.int? }

end ScanInput

/-! ## Writes -/

namespace Expectation

/-- The JSON form of an expectation. -/
def toJson? (expectation : Expectation) : Option Json :=
  Members.object? [
    .part "Value" (AttributeValue.toJson? form) expectation.value,
    .flag "Exists" expectation.present,
    .text "ComparisonOperator" expectation.comparison,
    .list "AttributeValueList" (AttributeValue.toJson? form) expectation.operands]

/-- The expectation in a JSON form. -/
def ofJson? (json : Json) : Option Expectation := do
  return {
    value := ← json.within? "Value" (AttributeValue.ofJson? form)
    present := ← json.within? "Exists" Json.bool?
    comparison := ← json.within? "ComparisonOperator" Json.string?
    operands := ← json.within? "AttributeValueList" (Json.list? (AttributeValue.ofJson? form)) }

end Expectation

namespace WriteOptions

/-- The members of what a write may ask for. -/
def members (options : WriteOptions) : List Members :=
  [.map "Expected" (Expectation.toJson? form) options.expected,
    .text "ConditionalOperator" options.conditionalOperator,
    .text "ConditionExpression" options.condition,
    .aliases options.nameAliases,
    .part "ExpressionAttributeValues" (Item.toJson? form) options.valueAliases,
    .text "ReturnValues" options.returnValues,
    .text "ReturnValuesOnConditionCheckFailure" options.returnValuesOnFailure,
    .text "ReturnConsumedCapacity" options.returnConsumedCapacity,
    .text "ReturnItemCollectionMetrics" options.returnCollectionMetrics]

/-- What a write may ask for. -/
def ofJson? (json : Json) : Option WriteOptions := do
  return {
    expected := ← json.within? "Expected" (Json.map? (Expectation.ofJson? form))
    conditionalOperator := ← json.within? "ConditionalOperator" Json.string?
    condition := ← json.within? "ConditionExpression" Json.string?
    nameAliases := ← json.within? "ExpressionAttributeNames" (Json.map? Json.string?)
    valueAliases := ← json.within? "ExpressionAttributeValues" (Item.ofJson? form)
    returnValues := ← json.within? "ReturnValues" Json.string?
    returnValuesOnFailure := ← json.within? "ReturnValuesOnConditionCheckFailure" Json.string?
    returnConsumedCapacity := ← json.within? "ReturnConsumedCapacity" Json.string?
    returnCollectionMetrics := ← json.within? "ReturnItemCollectionMetrics" Json.string? }

end WriteOptions

namespace PutInput

/-- The JSON form of a request to store an item. -/
def toJson? (input : PutInput) : Option Json :=
  Members.object? ([.text "TableName" input.table, .part "Item" (Item.toJson? form) input.item] ++
    input.options.members form)

/-- The request to store an item in a JSON form. -/
def ofJson? (json : Json) : Option PutInput := do
  return {
    table := ← json.within? "TableName" Json.string?
    item := ← json.within? "Item" (Item.ofJson? form)
    options := ← WriteOptions.ofJson? form json }

end PutInput

namespace DeleteInput

/-- The JSON form of a request to delete an item. -/
def toJson? (input : DeleteInput) : Option Json :=
  Members.object? ([.text "TableName" input.table, .part "Key" (Item.toJson? form) input.key] ++
    input.options.members form)

/-- The request to delete an item in a JSON form. -/
def ofJson? (json : Json) : Option DeleteInput := do
  return {
    table := ← json.within? "TableName" Json.string?
    key := ← json.within? "Key" (Item.ofJson? form)
    options := ← WriteOptions.ofJson? form json }

end DeleteInput

namespace WriteRequest

/-- The JSON form of one write in a batch. -/
def toJson? (request : WriteRequest) : Option Json :=
  let inside := fun name item => Members.object? [.part name (Item.toJson? form) (some item)]
  Members.object? [
    .part "PutRequest" (inside "Item") request.put,
    .part "DeleteRequest" (inside "Key") request.delete]

/-- One write in a batch; an item or a key that is missing is empty. -/
def ofJson? (json : Json) : Option WriteRequest := do
  let put ← json.within? "PutRequest" (·.within? "Item" (Item.ofJson? form))
  let delete ← json.within? "DeleteRequest" (·.within? "Key" (Item.ofJson? form))
  return { put := put.map (·.getD ∅), delete := delete.map (·.getD ∅) }

end WriteRequest

namespace BatchWriteInput

/-- The JSON form of a request for writes to several tables. -/
def toJson? (input : BatchWriteInput) : Option Json :=
  Members.object? [
    .map "RequestItems" (fun requests => .array <$> requests.mapM (WriteRequest.toJson? form))
      input.requests,
    .text "ReturnConsumedCapacity" input.returnConsumedCapacity,
    .text "ReturnItemCollectionMetrics" input.returnCollectionMetrics]

/-- The request for writes to several tables in a JSON form. -/
def ofJson? (json : Json) : Option BatchWriteInput := do
  return {
    requests := ← json.within? "RequestItems" (Json.map? (Json.list? (WriteRequest.ofJson? form)))
    returnConsumedCapacity := ← json.within? "ReturnConsumedCapacity" Json.string?
    returnCollectionMetrics := ← json.within? "ReturnItemCollectionMetrics" Json.string? }

end BatchWriteInput

end ItemSeal
