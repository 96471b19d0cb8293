import ItemSeal.AttributeValue.Constructed
import ItemSeal.Bytes.Base64
import ItemSeal.TableSchema

/-!
The data that is no secret and that every signature, and every wrapped data key, is bound to:
where an item belongs, the values of its keys, and how its keys were come by.
-/

namespace ItemSeal

/-- How the keys of an item are found again. -/
abbrev MaterialDescription := NameMap String

/-- The data that an item's protection is bound to. -/
structure EncryptionContext where
  table : Option String := none
  /-- The name of the partition key attribute. -/
  partition : Option String := none
  /-- The name of the sort key attribute. -/
  sort : Option String := none
  /-- The values of the key attributes of the item at hand. -/
  attributes : Item := ∅
  description : MaterialDescription := ∅
  deriving DecidableEq

namespace EncryptionContext

/-- The context of a table of which only the name is known. -/
def forTable (table : String) : EncryptionContext :=
  { table := some table }

/-- The context of a table: its name and those of its primary keys. -/
def ofSchema (schema : TableSchema) : EncryptionContext where
  table := some schema.name
  partition := schema.primary.map (·.partition)
  sort := schema.primary.bind (·.sort)

/-- The names of the key attributes that are known, the partition key first. -/
def keyNames (context : EncryptionContext) : List String :=
  context.partition.toList ++ context.sort.toList

/-- The context with the values that an item gives its key attributes. -/
def bind (context : EncryptionContext) (item : Item) : EncryptionContext :=
  { context with
    attributes := context.keyNames.foldl
      (fun attributes key =>
        match item.get? key with
        | some value => NameMap.insert attributes key value
        | none => attributes)
      context.attributes }

/-- The text of a value: that of a text or number itself, base64 for bytes, and constructor
notation for all other types. -/
def valueText : AttributeValue → String
  | .string text => text
  | .number text => text
  | .binary bytes => Base64.encode bytes
  | value => value.constructed

/-- The name under which an attribute's value goes to a key service. -/
def attributeLabel (name : String) : String :=
  "aws-ddb-attr-" ++ name

/-- The entries that go to a key service. -/
def labelled (context : EncryptionContext) : List (String × String) :=
  context.table.toList.map ("aws-ddb-table-name", ·) ++
    context.partition.toList.map ("aws-ddb-partition-key", ·) ++
    context.sort.toList.map ("aws-ddb-sort-key", ·) ++
    context.attributes.toList.map fun (name, value) => (attributeLabel name, valueText value)

/-- The context as texts by name, as a key service takes it. The description is not part of it. -/
def strings (context : EncryptionContext) : NameMap String :=
  NameMap.ofList context.labelled

end EncryptionContext

end ItemSeal
