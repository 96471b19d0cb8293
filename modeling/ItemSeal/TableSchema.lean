import ItemSeal.Error

/-!
The key attributes of a table's indexes, taken from its description. A schema may lack the primary
index, if it has not been discovered yet; then nobody is told what the keys are.
-/

namespace ItemSeal

/-- What an attribute is in the key of an index. -/
inductive KeyRole where
  | partition
  | sort
  /-- A role of another name. -/
  | other (name : String)
  deriving DecidableEq, Repr

/-- An attribute in the key of an index, as a description lists it. -/
structure KeyElement where
  /-- The name of the attribute. -/
  name : String
  role : KeyRole
  deriving DecidableEq, Repr

/-- What a store tells about a table, as far as its indexes go. -/
structure TableDescription where
  name : Option String := none
  keySchema : Option (List KeyElement) := none
  /-- The key schema of each global index. -/
  globalIndexes : Option (List (Option (List KeyElement))) := none
  /-- The key schema of each local index. -/
  localIndexes : Option (List (Option (List KeyElement))) := none
  deriving DecidableEq, Repr

/-- The key attributes of an index. -/
structure IndexKeys where
  partition : String
  sort : Option String := none
  deriving DecidableEq, Repr

namespace IndexKeys

/-- The names of the key attributes, the partition key first. -/
def attributes (keys : IndexKeys) : List String :=
  keys.partition :: keys.sort.toList

/-- The last attribute of that role. -/
def lastOf (role : KeyRole) (elements : List KeyElement) : Option String :=
  (elements.filter (·.role == role)).getLast?.map (·.name)

/-- The keys that a key schema names; none without a partition key. Of several attributes in
one role the last counts. -/
def ofElements? (elements : List KeyElement) : Option IndexKeys :=
  (lastOf .partition elements).map fun partition => ⟨partition, lastOf .sort elements⟩

end IndexKeys

/-- The name of a table and the keys of its indexes. -/
structure TableSchema where
  name : String
  /-- The primary index; none if it has not been discovered. -/
  primary : Option IndexKeys := none
  secondary : List IndexKeys := []
  deriving DecidableEq, Repr

namespace TableSchema

/-- The primary index is known. -/
def isComplete (schema : TableSchema) : Bool :=
  schema.primary.isSome

/-- The keys of the indexes that have a partition key. -/
def indexKeys (indexes : Option (List (Option (List KeyElement)))) : List IndexKeys :=
  (indexes.getD []).filterMap fun elements => IndexKeys.ofElements? (elements.getD [])

/-- The schema that a description gives of the table asked for. Its own name for the table goes
before the one asked for, and global indexes before local ones. -/
def ofDescription (name : String) (description : TableDescription) : Except Error TableSchema :=
  match IndexKeys.ofElements? (description.keySchema.getD []) with
  | none => .error (.noPartitionKey name)
  | some primary =>
      .ok {
        name := description.name.getD name
        primary
        secondary := indexKeys description.globalIndexes ++ indexKeys description.localIndexes }

/-- All indexes, the primary one first. -/
def indexes (schema : TableSchema) : List IndexKeys :=
  schema.primary.toList ++ schema.secondary

/-- The names of all key attributes, each once, in order. Without a primary
index there is no saying. -/
def protectedKeys (schema : TableSchema) : Except Error (List String) :=
  if schema.isComplete then
    .ok (NameMap.ofList ((schema.indexes.flatMap IndexKeys.attributes).map (·, ()))).names
  else .error (.primaryUnknown schema.name)

end TableSchema

end ItemSeal
