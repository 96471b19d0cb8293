import ItemSeal.AttributeValue

/-!
What a store is asked for. An absent part of a request is left to the store.
-/

namespace ItemSeal

/-- Which attributes of the items found a search gives. -/
inductive Selection where
  | allAttributes
  | allProjectedAttributes
  | specificAttributes
  | count
  /-- A selection of another name. -/
  | other (name : String)
  deriving DecidableEq, Repr

namespace Selection

/-- The name of a selection in requests. -/
def name : Selection → String
  | .allAttributes => "ALL_ATTRIBUTES"
  | .allProjectedAttributes => "ALL_PROJECTED_ATTRIBUTES"
  | .specificAttributes => "SPECIFIC_ATTRIBUTES"
  | .count => "COUNT"
  | .other name => name

/-- The selection of that name. -/
def ofName (name : String) : Selection :=
  match name with
  | "ALL_ATTRIBUTES" => .allAttributes
  | "ALL_PROJECTED_ATTRIBUTES" => .allProjectedAttributes
  | "SPECIFIC_ATTRIBUTES" => .specificAttributes
  | "COUNT" => .count
  | _ => .other name

end Selection

/-- What an attribute is expected to be before a write. -/
structure Expectation where
  value : Option AttributeValue := none
  present : Option Bool := none
  comparison : Option String := none
  operands : Option (List AttributeValue) := none
  deriving DecidableEq

/-- A comparison of an attribute with some values. -/
structure Condition where
  comparison : String
  operands : Option (List AttributeValue) := none
  deriving DecidableEq

/-- What a write may ask for beside the item or key it is about. -/
structure WriteOptions where
  expected : Option (NameMap Expectation) := none
  conditionalOperator : Option String := none
  condition : Option String := none
  nameAliases : Option (NameMap String) := none
  valueAliases : Option Item := none
  returnValues : Option String := none
  returnValuesOnFailure : Option String := none
  returnConsumedCapacity : Option String := none
  returnCollectionMetrics : Option String := none
  deriving DecidableEq

/-- The request to store an item. -/
structure PutInput where
  table : Option String := none
  item : Option Item := none
  options : WriteOptions := {}
  deriving DecidableEq

/-- The request to delete the item with a key. -/
structure DeleteInput where
  table : Option String := none
  key : Option Item := none
  options : WriteOptions := {}
  deriving DecidableEq

/-- How items are read. -/
structure ReadOptions where
  attributesToGet : Option (List String) := none
  projection : Option String := none
  consistent : Option Bool := none
  nameAliases : Option (NameMap String) := none
  deriving DecidableEq

/-- The request for the item with a key. -/
structure GetInput where
  table : Option String := none
  key : Option Item := none
  options : ReadOptions := {}
  returnConsumedCapacity : Option String := none
  deriving DecidableEq

/-- What every search has. -/
structure SearchOptions where
  read : ReadOptions := {}
  index : Option String := none
  select : Option Selection := none
  limit : Option Int := none
  conditionalOperator : Option String := none
  /-- The key to go on after. -/
  start : Option Item := none
  filter : Option String := none
  valueAliases : Option Item := none
  returnConsumedCapacity : Option String := none
  deriving DecidableEq

/-- The request for the items with a partition key. -/
structure QueryInput where
  table : Option String := none
  options : SearchOptions := {}
  keyCondition : Option String := none
  keyConditions : Option (NameMap Condition) := none
  conditions : Option (NameMap Condition) := none
  forward : Option Bool := none
  deriving DecidableEq

/-- The request for all items. -/
structure ScanInput where
  table : Option String := none
  options : SearchOptions := {}
  conditions : Option (NameMap Condition) := none
  segment : Option Int := none
  totalSegments : Option Int := none
  deriving DecidableEq

/-- The items of one table that a batch asks for. -/
structure KeysRequest where
  keys : List Item
  options : ReadOptions := {}
  deriving DecidableEq

/-- The request for items of several tables. -/
structure BatchGetInput where
  requests : Option (NameMap KeysRequest) := none
  returnConsumedCapacity : Option String := none
  deriving DecidableEq

/-- One write in a batch: the item to put, or else the key of the item to delete. -/
structure WriteRequest where
  put : Option Item := none
  delete : Option Item := none
  deriving DecidableEq

/-- The request for writes to several tables. -/
structure BatchWriteInput where
  requests : Option (NameMap (List WriteRequest)) := none
  returnConsumedCapacity : Option String := none
  returnCollectionMetrics : Option String := none
  deriving DecidableEq

/-- The request for names of tables. -/
structure ListInput where
  /-- The name to go on after. -/
  start : Option String := none
  limit : Option Int := none
  deriving DecidableEq

/-- The kinds of request. -/
inductive StoreOperation where
  | describe
  | list
  | batchGet
  | batchWrite
  | put
  | get
  | delete
  | query
  | scan
  deriving DecidableEq, Repr

namespace StoreOperation

/-- All kinds. -/
def all : List StoreOperation :=
  [describe, list, batchGet, batchWrite, put, get, delete, query, scan]

/-- The name of a kind. -/
def name : StoreOperation → String
  | .describe => "describe_table"
  | .list => "list_tables"
  | .batchGet => "batch_get_item"
  | .batchWrite => "batch_write_item"
  | .put => "put_item"
  | .get => "get_item"
  | .delete => "delete_item"
  | .query => "query"
  | .scan => "scan"

/-- The kind of that name. -/
def ofName? (name : String) : Option StoreOperation :=
  all.find? (·.name == name)

end StoreOperation

/-- A request of any kind. -/
inductive StoreRequest where
  | describe (table : String)
  | list (input : ListInput)
  | batchGet (input : BatchGetInput)
  | batchWrite (input : BatchWriteInput)
  | put (input : PutInput)
  | get (input : GetInput)
  | delete (input : DeleteInput)
  | query (input : QueryInput)
  | scan (input : ScanInput)
  deriving DecidableEq

/-- The kind of a request. -/
def StoreRequest.operation : StoreRequest → StoreOperation
  | .describe _ => .describe
  | .list _ => .list
  | .batchGet _ => .batchGet
  | .batchWrite _ => .batchWrite
  | .put _ => .put
  | .get _ => .get
  | .delete _ => .delete
  | .query _ => .query
  | .scan _ => .scan

end ItemSeal
