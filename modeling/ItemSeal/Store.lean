import ItemSeal.Act
import ItemSeal.Store.Input
import ItemSeal.TableSchema

/-!
A store of items in tables: nine operations over a world of any type. `Store.logged` is a store
that also notes every request that it gets.
-/

namespace ItemSeal

/-- What a request consumed, as far as it is told: the table it went to. -/
structure ConsumedCapacity where
  table : Option String := none
  deriving DecidableEq, Repr

/-- The outcome of storing or deleting an item. -/
structure WriteOutput where
  attributes : Option Item := none
  consumed : Option ConsumedCapacity := none
  deriving DecidableEq

/-- The outcome of reading an item. -/
structure GetOutput where
  item : Option Item := none
  consumed : Option ConsumedCapacity := none
  deriving DecidableEq

/-- What a search found. -/
structure SearchOutput where
  items : Option (List Item) := none
  count : Int := 0
  scanned : Int := 0
  /-- The key that the search stopped at. -/
  last : Option Item := none
  deriving DecidableEq

/-- The items that a batch found, and the keys that it did not get to. -/
structure BatchGetOutput where
  responses : Option (NameMap (List Item)) := none
  unprocessed : Option (NameMap KeysRequest) := none
  consumed : Option (List ConsumedCapacity) := none
  deriving DecidableEq

/-- The writes that a batch did not get to. -/
structure BatchWriteOutput where
  unprocessed : Option (NameMap (List WriteRequest)) := none
  consumed : Option (List ConsumedCapacity) := none
  deriving DecidableEq

/-- Names of tables, and the one that the listing stopped at. -/
structure ListOutput where
  names : Option (List String) := none
  last : Option String := none
  deriving DecidableEq

/-- A store over a world of type `σ`. -/
structure Store (σ : Type) where
  describe : String → Act σ TableDescription
  list : ListInput → Act σ ListOutput
  batchGet : BatchGetInput → Act σ BatchGetOutput
  batchWrite : BatchWriteInput → Act σ BatchWriteOutput
  put : PutInput → Act σ WriteOutput
  get : GetInput → Act σ GetOutput
  delete : DeleteInput → Act σ WriteOutput
  query : QueryInput → Act σ SearchOutput
  scan : ScanInput → Act σ SearchOutput

namespace Store

variable {σ τ : Type}

/-- The store with each operation run through a change of its action. -/
def through (store : Store σ) (change : {α : Type} → StoreRequest → Act σ α → Act τ α) :
    Store τ where
  describe table := change (.describe table) (store.describe table)
  list input := change (.list input) (store.list input)
  batchGet input := change (.batchGet input) (store.batchGet input)
  batchWrite input := change (.batchWrite input) (store.batchWrite input)
  put input := change (.put input) (store.put input)
  get input := change (.get input) (store.get input)
  delete input := change (.delete input) (store.delete input)
  query input := change (.query input) (store.query input)
  scan input := change (.scan input) (store.scan input)

/-- A store on a part of the world as one on the whole. -/
def within (part : Part τ σ) (store : Store σ) : Store τ :=
  store.through fun _ act => act.within part

/-- The store that notes each request, behind those that it has noted before. -/
def logged (store : Store σ) : Store (σ × List StoreRequest) :=
  store.through fun request act => ExceptT.mk fun (world, log) =>
    let (result, world) := act.runFrom world
    (result, world, log ++ [request])

end Store

end ItemSeal
