import ItemSeal.Store

/-!
Tables in memory. Items keep the order in which they came; an item takes the place of the one with
the same key. Names that the key lacks count as equal where both items lack them.
-/

namespace ItemSeal

/-- A table in memory. -/
structure MemoryTable where
  keys : IndexKeys
  /-- The keys of its global indexes. -/
  globalIndexes : List IndexKeys := []
  items : List Item := []
  deriving DecidableEq

namespace MemoryTable

/-- The values of an item's key attributes. -/
def keyOf (table : MemoryTable) (item : Item) : List (Option AttributeValue) :=
  table.keys.attributes.map item.get?

/-- The item has that key. -/
def hasKey (table : MemoryTable) (key item : Item) : Bool :=
  table.keyOf item == table.keyOf key

/-- The item with that key. -/
def find? (table : MemoryTable) (key : Item) : Option Item :=
  table.items.find? (table.hasKey key)

/-- The items with one put in the place of the first that has its key, or at the end. -/
def putInto (table : MemoryTable) (item : Item) : List Item → List Item
  | [] => [item]
  | other :: rest =>
      if table.hasKey item other then item :: rest else other :: table.putInto item rest

/-- The table with that item stored. -/
def put (table : MemoryTable) (item : Item) : MemoryTable :=
  { table with items := table.putInto item table.items }

/-- The table without the item with that key. -/
def delete (table : MemoryTable) (key : Item) : MemoryTable :=
  { table with items := table.items.eraseP (table.hasKey key) }

/-- The table after one write of a batch; a put goes before a delete. -/
def write (table : MemoryTable) (request : WriteRequest) : MemoryTable :=
  match request.put, request.delete with
  | some item, _ => table.put item
  | none, some key => table.delete key
  | none, none => table

/-- The key schema of an index. -/
def elements (keys : IndexKeys) : List KeyElement :=
  ⟨keys.partition, .partition⟩ :: keys.sort.toList.map (⟨·, .sort⟩)

/-- The description of the table. Without a global index it does not mention any. -/
def description (name : String) (table : MemoryTable) : TableDescription where
  name := some name
  keySchema := some (elements table.keys)
  globalIndexes :=
    if table.globalIndexes.isEmpty then none
    else some (table.globalIndexes.map (some <| elements ·))

/-- All items of the table, as a search finds them. -/
def search (table : MemoryTable) : SearchOutput where
  items := some table.items
  count := table.items.length

end MemoryTable

/-- Tables in memory, by name. -/
abbrev MemoryStore := NameMap MemoryTable

namespace MemoryStore

/-- The table of that name. -/
def table (name : String) : Act MemoryStore MemoryTable := do
  match (← get).get? name with
  | some table => return table
  | none => throw (.tableNotFound name)

/-- Changes the table of that name. -/
def change (name : String) (f : MemoryTable → MemoryTable) : Act MemoryStore Unit := do
  let old ← table name
  modify fun tables => NameMap.insert tables name (f old)

/-- The number of names on a page: a hundred if not said, and no limit if negative. -/
def pageOf (limit : Option Int) (names : List String) : List String :=
  match limit with
  | none => names.take 100
  | some limit => if limit < 0 then names else names.take limit.toNat

/-- The names after the start, as many as fit on a page. -/
def listPage (tables : MemoryStore) (input : ListInput) : ListOutput :=
  let after := tables.names.filter fun name =>
    match input.start with
    | none => true
    | some start => decide (start < name)
  let page := pageOf input.limit after
  { names := some page
    last := if page.length < after.length then page.getLast? else none }

/-- The items that a batch asks of one table. -/
def batchFind (name : String) (request : KeysRequest) : Act MemoryStore (List Item) := do
  return request.keys.filterMap (← table name).find?

/-- Carries out the writes of a batch on one table. -/
def batchChange (name : String) (requests : List WriteRequest) : Act MemoryStore Unit :=
  change name fun table => requests.foldl MemoryTable.write table

/-- The store of tables in memory. A request without a table is about the
one with the empty name. -/
def store : Store MemoryStore where
  describe name := do return (← table name).description name
  list input := do return listPage (← get) input
  batchGet input := do
    let responses ← (input.requests.getD ∅).mapEntriesM batchFind
    return { responses := some responses }
  batchWrite input := do
    let _ ← (input.requests.getD ∅).mapEntriesM batchChange
    return {}
  put input := do
    change (input.table.getD "") fun table => table.put (input.item.getD ∅)
    return {}
  get input := do
    let found := (← table (input.table.getD "")).find? (input.key.getD ∅)
    return { item := found }
  delete input := do
    change (input.table.getD "") fun table => table.delete (input.key.getD ∅)
    return {}
  query input := do return (← table (input.table.getD "")).search
  scan input := do return (← table (input.table.getD "")).search

end MemoryStore

end ItemSeal
