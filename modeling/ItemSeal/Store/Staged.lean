import ItemSeal.Store.Memory

/-!
Tables in memory behind a stage: every request is noted, and the stage can be set so that requests
fail, are answered otherwise than the tables would, or bring more than they would. What is set for
a kind of request waits for the next one of that kind.
-/

namespace ItemSeal

/-- How many requests of some kinds came through to the tables. -/
structure Tally where
  describe : Nat := 0
  list : Nat := 0
  batchGet : Nat := 0
  batchWrite : Nat := 0
  deriving DecidableEq, Repr

/-- What the next outcome of a kind brings beside its own. -/
structure Additions where
  /-- For the next item stored or deleted. -/
  attributes : Option Item := none
  /-- For the next batch of writes. -/
  unprocessedWrites : Option (NameMap (List WriteRequest)) := none
  /-- For the next batch of reads. -/
  unprocessedKeys : Option (NameMap KeysRequest) := none
  deriving DecidableEq

/-- Tables in memory and how the stage is set. -/
structure StagedStore where
  tables : MemoryStore := ∅
  tally : Tally := {}
  /-- The requests that came, the last one last. -/
  log : List StoreRequest := []
  /-- The errors that requests will fail with, in the order in which they were set. -/
  failures : List (StoreOperation × Error) := []
  /-- The answers to the next requests for names. -/
  pages : List ListOutput := []
  /-- The answers to requests for descriptions, by table. -/
  descriptions : NameMap TableDescription := ∅
  /-- What every batch of reads finds. -/
  found : Option (NameMap (List Item)) := none
  additions : Additions := {}

instance : Inhabited StagedStore := ⟨{}⟩

namespace StagedStore

/-- The tables behind the stage. -/
def tablesPart : Part StagedStore MemoryStore :=
  ⟨(·.tables), fun tables stage => { stage with tables }⟩

/-- Counts a request. -/
def count (step : Tally → Tally) : Act StagedStore Unit :=
  modify fun stage => { stage with tally := step stage.tally }

/-- Takes what is to be added next, leaving less. -/
def takeAddition {α : Type} (part : Additions → Option α) (without : Additions → Additions) :
    Act StagedStore (Option α) := do
  let addition := part (← get).additions
  modify fun stage => { stage with additions := without stage.additions }
  return addition

/-- Fails if a failure waits for this kind of request. -/
def failIfSet (operation : StoreOperation) : Act StagedStore Unit := do
  let waiting := (← get).failures
  match waiting.find? (·.1 == operation) with
  | some (_, error) =>
      modify fun stage => { stage with failures := waiting.eraseP (·.1 == operation) }
      throw error
  | none => return ()

/-- Notes a request, then fails if that is set. -/
def receive (request : StoreRequest) : Act StagedStore Unit := do
  modify fun stage => { stage with log := stage.log ++ [request] }
  failIfSet request.operation

/-- The tables, counting what comes through to them. -/
def behind : Store StagedStore :=
  MemoryStore.store.within tablesPart

/-- The description that is set for the table, or its own. -/
def describe (table : String) : Act StagedStore TableDescription := do
  match (← get).descriptions.get? table with
  | some description => return description
  | none =>
      count fun tally => { tally with describe := tally.describe + 1 }
      behind.describe table

/-- The page that is set, or the names of the tables. -/
def list (input : ListInput) : Act StagedStore ListOutput := do
  match (← get).pages with
  | page :: rest =>
      modify fun stage => { stage with pages := rest }
      return page
  | [] =>
      count fun tally => { tally with list := tally.list + 1 }
      behind.list input

/-- The items that are set, or those of the tables; with keys added if that is set. -/
def batchGet (input : BatchGetInput) : Act StagedStore BatchGetOutput := do
  count fun tally => { tally with batchGet := tally.batchGet + 1 }
  let output ←
    match (← get).found with
    | some found => pure { responses := some found }
    | none => behind.batchGet input
  let unprocessed ← takeAddition (·.unprocessedKeys) ({ · with unprocessedKeys := none })
  return { output with unprocessed }

/-- The outcome of the tables, with writes added if that is set. -/
def batchWrite (input : BatchWriteInput) : Act StagedStore BatchWriteOutput := do
  count fun tally => { tally with batchWrite := tally.batchWrite + 1 }
  let output ← behind.batchWrite input
  let unprocessed ← takeAddition (·.unprocessedWrites) ({ · with unprocessedWrites := none })
  return { output with unprocessed }

/-- The outcome of storing or deleting an item, with attributes added if that is set. -/
def withAttributes (write : Act StagedStore WriteOutput) : Act StagedStore WriteOutput := do
  let output ← write
  let attributes ← takeAddition (·.attributes) ({ · with attributes := none })
  return { output with attributes }

/-- The store on the stage. -/
def store : Store StagedStore :=
  let answering : Store StagedStore := { behind with
    describe, list, batchGet, batchWrite
    put := fun input => withAttributes (behind.put input)
    delete := fun input => withAttributes (behind.delete input) }
  answering.through fun request act => do
    receive request
    act

/-! ## Setting the stage -/

/-- The stage with one more table, in place of any other of its name. -/
def addTable (stage : StagedStore) (name : String) (table : MemoryTable) : StagedStore :=
  { stage with tables := NameMap.insert stage.tables name table }

/-- The stage with a description set for a table. -/
def describeAs (stage : StagedStore) (name : String) (description : TableDescription) :
    StagedStore :=
  { stage with descriptions := NameMap.insert stage.descriptions name description }

/-- The stage with one more failure waiting. -/
def failNext (stage : StagedStore) (operation : StoreOperation) (error : Error) : StagedStore :=
  { stage with failures := stage.failures ++ [(operation, error)] }

/-- The stage with more pages waiting. -/
def pageNext (stage : StagedStore) (pages : List ListOutput) : StagedStore :=
  { stage with pages := stage.pages ++ pages }

/-- The stage with the items of a table changed. -/
def changeTable (stage : StagedStore) (name : String) (f : MemoryTable → MemoryTable) :
    StagedStore :=
  match stage.tables.get? name with
  | some table => stage.addTable name (f table)
  | none => stage

/-- The items of a table. -/
def stored (stage : StagedStore) (name : String) : List Item :=
  match stage.tables.get? name with
  | some table => table.items
  | none => []

/-- A number of steps in which every listing ends: one for each page and each name in it, once for
the pages that are set and once for the tables, whose names come at least one to a page. -/
def listingBound (stage : StagedStore) : Nat :=
  stage.pages.foldr (fun page bound => (page.names.getD []).length + 1 + bound)
    (2 * stage.tables.size + 2)

end StagedStore

end ItemSeal
