import ItemSeal.ActionPolicy
import ItemSeal.EncryptionContext

/-!
What a signature covers: the names of the table and of its keys, the values in the context, the
description, and every attribute that is not left alone, with what is done to it. `Coverage.bytes`
writes it for signing, each part after its length and values in their canonical form.
-/

namespace ItemSeal

/-- An attribute under a signature. -/
structure SignedAttribute where
  name : String
  action : Action
  value : AttributeValue
  deriving DecidableEq

/-- All that a signature covers. -/
structure Coverage where
  /-- The names of the table, the partition key and the sort key; an absent one is empty. -/
  names : List String
  /-- The values in the context, by name. -/
  context : Item
  description : MaterialDescription
  /-- The signed attributes in the order of their names. -/
  attributes : List SignedAttribute
  deriving DecidableEq

namespace Coverage

/-- The attributes of an item that are not left alone. -/
def signedAttributes (policy : ActionPolicy) (item : Item) : List SignedAttribute :=
  (item.toList.map fun (name, value) => ⟨name, policy.action name, value⟩).filter fun attr =>
    attr.action ≠ .doNothing

/-- What the signature of an item covers. -/
def ofItem (policy : ActionPolicy) (context : EncryptionContext) (item : Item) : Coverage where
  names := [context.table.getD "", context.partition.getD "", context.sort.getD ""]
  context := context.attributes
  description := context.description
  attributes := signedAttributes policy item

/-- Bytes after their number, which takes eight bytes. -/
def field (bytes : Bytes) : Bytes :=
  Bytes.ofNat 8 bytes.length ++ bytes

/-- A text as a field. -/
def textField (text : String) : Bytes :=
  field (Bytes.ofString text)

/-- A value in canonical form as a field. -/
def valueField (value : AttributeValue) : Except EncodeError Bytes :=
  value.serializeCanonical.map field

/-- A name and its value. -/
def entryBytes (name : String) (value : AttributeValue) : Except EncodeError Bytes :=
  (valueField value).map (textField name ++ ·)

/-- A signed attribute: its name, the byte of its action, and its value. -/
def attributeBytes (signed : SignedAttribute) : Except EncodeError Bytes :=
  (valueField signed.value).map fun value =>
    textField signed.name ++ signed.action.byte :: value

/-- The bytes that are signed. -/
def bytes (coverage : Coverage) : Except EncodeError Bytes := do
  let context ← coverage.context.toList.mapM fun (name, value) => entryBytes name value
  let attributes ← coverage.attributes.mapM attributeBytes
  return coverage.names.flatMap textField ++ context.flatten ++
    coverage.description.toList.flatMap (fun (key, text) => textField key ++ textField text) ++
    attributes.flatten

end Coverage

end ItemSeal
