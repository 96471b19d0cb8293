import ItemSeal.ActionPolicy
import ItemSeal.MaterialsProvider

/-!
What it takes to seal the items of a table and to unseal them: where keys come from, what the seal
is bound to, and what is done to each attribute.
-/

namespace ItemSeal

/-- How items are sealed, over a world of type `σ`. -/
structure SealConfig (σ : Type) where
  provider : MaterialsProvider σ
  context : EncryptionContext
  policy : ActionPolicy

namespace SealConfig

variable {σ : Type}

/-- The configuration of a table whose schema is known: its index keys are exempt. -/
def forTable (provider : MaterialsProvider σ) (policy : ActionPolicy) (schema : TableSchema) :
    Except Error (SealConfig σ) := do
  let keys ← schema.protectedKeys
  return { provider, context := .ofSchema schema, policy := policy.withIndexKeys keys }

/-- The configuration with an item's key values in the context. -/
def withItem (config : SealConfig σ) (item : Item) : SealConfig σ :=
  { config with context := config.context.bind item }

end SealConfig

/-- The entries of a policy that exempting a table's index keys overrides. -/
def ActionPolicy.overriddenBy (policy : ActionPolicy) (schema : TableSchema) : List Overriding :=
  match schema.protectedKeys with
  | .ok keys => policy.overridden keys
  | .error _ => []

end ItemSeal
