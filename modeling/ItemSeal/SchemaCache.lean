import ItemSeal.ActionPolicy
import ItemSeal.Store

/-!
Schemas of tables, looked up once and kept. With automatic refreshing, a table that is not known,
or not known fully, is described and remembered; without, only what has been entered is served.
-/

namespace ItemSeal

/-- The schemas that are known, by the name they were asked for. -/
abbrev SchemaCache := NameMap TableSchema

/-- A world together with what is remembered about it. -/
structure Session (σ : Type) where
  world : σ
  schemas : SchemaCache := ∅
  /-- The exemptions of keys that a policy asks to protect, as they were made. -/
  warnings : List Overriding := []

namespace Session

variable {σ : Type}

/-- The world in a session. -/
def worldPart : Part (Session σ) σ :=
  ⟨(·.world), fun world session => { session with world }⟩

/-- An action on the world. -/
def call {α : Type} (act : Act σ α) : Act (Session σ) α :=
  act.within worldPart

/-- Notes exemptions. -/
def warn (overridings : List Overriding) : Act (Session σ) Unit :=
  modify fun session => { session with warnings := session.warnings ++ overridings }

/-- Remembers a schema under a name. -/
def remember (name : String) (schema : TableSchema) : Act (Session σ) Unit :=
  modify fun session => { session with schemas := NameMap.insert session.schemas name schema }

/-- Enters a schema under its own name. -/
def enterSchema (schema : TableSchema) : Act (Session σ) Unit :=
  remember schema.name schema

/-- Forgets the schema of a table. -/
def forgetSchema (table : String) : Act (Session σ) Unit :=
  modify fun session => { session with schemas := session.schemas.erase table }

/-- The schema that a table's description gives. -/
def describeSchema (store : Store σ) (table : String) : Act σ TableSchema := do
  let description ←
    match ← (store.describe table).attempt with
    | .ok description => pure description
    | .error cause => throw (.describeFailed table cause)
  TableSchema.ofDescription table description

/-- Describes a table again and remembers its schema under the name asked for. -/
def refreshSchema (store : Store σ) (table : String) : Act (Session σ) TableSchema := do
  let schema ← call (describeSchema store table)
  remember table schema
  return schema

/-- The schema of a table, described on first use if that may be done. -/
def schema (store : Store σ) (autoRefresh : Bool) (table : String) :
    Act (Session σ) TableSchema := do
  match (← get).schemas.get? table, autoRefresh with
  | some known, false => return known
  | none, false => throw (.notCached table)
  | none, true => refreshSchema store table
  | some known, true => if known.isComplete then return known else refreshSchema store table

end Session

end ItemSeal
