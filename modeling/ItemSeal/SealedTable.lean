import ItemSeal.SchemaCache
import ItemSeal.Sealing
import ItemSeal.Store.ReadGuard

/-!
One table of a store, its items sealed on the way in and unsealed on the way out. Requests for
other tables, and reads that do not give whole items, are refused before the store hears of them.
-/

namespace ItemSeal

/-- The configuration of a table, any exemption against the policy being noted. -/
def Session.configure {σ : Type} (provider : MaterialsProvider σ) (policy : ActionPolicy)
    (schema : TableSchema) : Act (Session σ) (SealConfig σ) := do
  let config ← SealConfig.forTable provider policy schema
  warn (policy.overriddenBy schema)
  return config

/-- A sealed view of one table. -/
structure SealedTable (σ : Type) where
  store : Store σ
  schema : TableSchema
  /-- The policy as it was given, with no key exempt. -/
  policy : ActionPolicy
  autoRefresh : Bool
  config : SealConfig σ

namespace SealedTable

variable {σ : Type}

/-- The view of a table with that schema. -/
def create (store : Store σ) (provider : MaterialsProvider σ) (policy : ActionPolicy)
    (schema : TableSchema) (autoRefresh : Bool) : Act (Session σ) (SealedTable σ) := do
  let config ← Session.configure provider policy schema
  return { store, schema, policy, autoRefresh, config }

/-- The name of the table. -/
def name (table : SealedTable σ) : String :=
  table.schema.name

/-- The view with what a new description of the table says; the same view
without automatic refreshing. -/
def refresh (table : SealedTable σ) : Act (Session σ) (SealedTable σ) := do
  if table.autoRefresh then
    let description ← Session.call (table.store.describe table.name)
    let schema ← TableSchema.ofDescription table.name description
    let config ← Session.configure table.config.provider table.policy schema
    return { table with schema, config }
  else return table

/-- A request is for this table if it names none or this one. -/
def checkTarget (table : SealedTable σ) : Option String → Except Error Unit
  | some name => if name = table.name then .ok () else .error (.otherTable name table.name)
  | none => .ok ()

/-- Items unsealed in order, all of them or none. -/
def unsealAll (config : SealConfig σ) (items : List Item) : Act σ (List Item) :=
  items.mapM (Item.unsealWith config)

/-- Stores an item, sealed. -/
def put (table : SealedTable σ) (nonces : ItemNonces) (input : PutInput) : Act σ WriteOutput := do
  table.checkTarget input.table
  match input.item with
  | none => throw .putWithoutItem
  | some item =>
      let hidden ← item.sealWith table.config nonces
      table.store.put { input with table := some table.name, item := some hidden }

/-- Reads an item, unsealed. -/
def get (table : SealedTable σ) (input : GetInput) : Act σ GetOutput := do
  table.checkTarget input.table
  input.options.check none
  let output ← table.store.get { input with table := some table.name }
  let item ← output.item.mapM (Item.unsealWith table.config)
  return { output with item }

/-- Deletes an item. Its key is never encrypted, so the request goes through as it is. -/
def delete (table : SealedTable σ) (input : DeleteInput) : Act σ WriteOutput := do
  table.checkTarget input.table
  table.store.delete { input with table := some table.name }

/-- What a search found, unsealed. -/
def unsealFound (table : SealedTable σ) (output : SearchOutput) : Act σ SearchOutput := do
  let items ← output.items.mapM (unsealAll table.config)
  return { output with items }

/-- The items with a partition key, unsealed. -/
def query (table : SealedTable σ) (input : QueryInput) : Act σ SearchOutput := do
  table.checkTarget input.table
  input.options.read.check input.options.select
  let output ← table.store.query { input with table := some table.name }
  table.unsealFound output

/-- All items, unsealed. -/
def scan (table : SealedTable σ) (input : ScanInput) : Act σ SearchOutput := do
  table.checkTarget input.table
  input.options.read.check input.options.select
  let output ← table.store.scan { input with table := some table.name }
  table.unsealFound output

end SealedTable

end ItemSeal
