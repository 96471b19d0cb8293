import ItemSeal.Arrangement
import ItemSeal.SealedTable

/-!
All tables of a store, sealed. Batches go to several tables at once: a batch of writes is
sealed whole before anything is sent, and a batch of reads is given whole or not at all.
The tables of a batch come in no fixed order, so each call is given the arrangement that
it goes by. A configuration given for one call is used for all its tables as it is, with
no look at their schemas.
-/

namespace ItemSeal

/-- A sealed view of a store. -/
structure SealedStore (σ : Type) where
  store : Store σ
  provider : MaterialsProvider σ
  policy : ActionPolicy := {}
  autoRefresh : Bool := true

/-- What one table has of its own, in place of what all tables of the store have. -/
structure TableOverrides (σ : Type) where
  provider : Option (MaterialsProvider σ) := none
  policy : Option ActionPolicy := none
  autoRefresh : Option Bool := none

namespace SealedStore

variable {σ : Type}

/-- The schema of a table. -/
def schema (sealed : SealedStore σ) (table : String) : Act (Session σ) TableSchema :=
  Session.schema sealed.store sealed.autoRefresh table

/-- The configuration of a table: the one given for the call, or that of its schema. -/
def config (sealed : SealedStore σ) (override : Option (SealConfig σ)) (table : String) :
    Act (Session σ) (SealConfig σ) :=
  match override with
  | some config => return config
  | none => do
      let schema ← sealed.schema table
      Session.configure sealed.provider sealed.policy schema

/-- The view of one table. -/
def table (sealed : SealedStore σ) (name : String) (overrides : TableOverrides σ) :
    Act (Session σ) (SealedTable σ) := do
  let schema ← sealed.schema name
  SealedTable.create sealed.store (overrides.provider.getD sealed.provider)
    (overrides.policy.getD sealed.policy) schema (overrides.autoRefresh.getD sealed.autoRefresh)

/-! ## Batches -/

/-- Every part of a batch of reads gives whole items. -/
def checkReads (arrangement : Arrangement) (requests : NameMap KeysRequest) : Except Error Unit :=
  (requests.arranged arrangement).forM fun (_, request) => request.options.check none

/-- The items that came from one table, unsealed. -/
def unsealResponse (sealed : SealedStore σ) (override : Option (SealConfig σ)) (table : String)
    (items : List Item) : Act (Session σ) (List Item) := do
  let config ← sealed.config override table
  Session.call (SealedTable.unsealAll config items)

/-- Reads items of several tables, unsealed, the tables as they are arranged. -/
def batchGet (sealed : SealedStore σ) (override : Option (SealConfig σ))
    (arrangement : Arrangement) (input : BatchGetInput) : Act (Session σ) BatchGetOutput := do
  checkReads arrangement (input.requests.getD ∅)
  let output ← Session.call (sealed.store.batchGet input)
  let responses ← output.responses.mapM
    (NameMap.mapArrangedM arrangement (sealed.unsealResponse override))
  return { output with responses }

/-- One write with the item to put sealed. -/
def sealWrite (config : SealConfig σ) (nonces : ItemNonces) (request : WriteRequest) :
    Act σ WriteRequest := do
  let put ← request.put.mapM (Item.sealWith config nonces)
  return { request with put }

/-- The writes to one table with the items to put sealed, each with the nonces of its place. -/
def sealWrites (sealed : SealedStore σ) (override : Option (SealConfig σ))
    (nonces : String → Nat → ItemNonces) (table : String) (requests : List WriteRequest) :
    Act (Session σ) (List WriteRequest) := do
  let config ← sealed.config override table
  Session.call (requests.zipIdx.mapM fun (request, place) =>
    sealWrite config (nonces table place) request)

/-- Writes items to several tables, sealed, and deletes others, the tables as they
are arranged. -/
def batchWrite (sealed : SealedStore σ) (override : Option (SealConfig σ))
    (arrangement : Arrangement) (nonces : String → Nat → ItemNonces) (input : BatchWriteInput) :
    Act (Session σ) BatchWriteOutput := do
  let requests ← input.requests.mapM
    (NameMap.mapArrangedM arrangement (sealed.sealWrites override nonces))
  Session.call (sealed.store.batchWrite { input with requests })

end SealedStore

end ItemSeal
