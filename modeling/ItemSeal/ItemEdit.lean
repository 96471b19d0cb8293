import ItemSeal.AttributeValue

/-!
Changes that a store, or whoever gets at it, may make to a stored item.
-/

namespace ItemSeal

/-- A change to an item. -/
inductive ItemEdit where
  | set (name : String) (value : AttributeValue)
  | remove (name : String)
  /-- The value of one name under another. -/
  | rename (name new : String)
  /-- The values of two names, or the lack of them, exchanged. -/
  | swap (first second : String)
  /-- A byte of a binary value changed by its bits; a negative index counts from the end. -/
  | flip (name : String) (index : Int) (bits : UInt8)
  /-- A binary value cut to a length. -/
  | truncate (name : String) (length : Nat)
  /-- A binary value made longer. -/
  | append (name : String) (bytes : Bytes)
  deriving DecidableEq

namespace ItemEdit

/-- The place that an index means in a list of that length. -/
def place (length : Nat) (index : Int) : Option Nat :=
  let fromStart := if index < 0 then index + length else index
  if 0 ≤ fromStart ∧ fromStart < length then some fromStart.toNat else none

/-- The bytes with that one changed; nothing if there is none. -/
def flipAt (bytes : Bytes) (index : Int) (bits : UInt8) : Bytes :=
  match place bytes.length index with
  | some i => bytes.modify i (· ^^^ bits)
  | none => bytes

/-- Changes the bytes of a binary value. -/
def onBinary (item : Item) (name : String) (change : Bytes → Bytes) : Item :=
  match item.get? name with
  | some (.binary bytes) => NameMap.insert item name (.binary (change bytes))
  | _ => item

/-- Gives a name a value or takes its value away. -/
def put (item : Item) (name : String) : Option AttributeValue → Item
  | some value => NameMap.insert item name value
  | none => item.erase name

/-- The changed item. -/
def apply (item : Item) : ItemEdit → Item
  | .set name value => NameMap.insert item name value
  | .remove name => item.erase name
  | .rename name new =>
      match item.get? name with
      | some value => NameMap.insert (item.erase name) new value
      | none => item
  | .swap first second =>
      put (put item first (item.get? second)) second (item.get? first)
  | .flip name index bits => onBinary item name (flipAt · index bits)
  | .truncate name length => onBinary item name (·.take length)
  | .append name bytes => onBinary item name (· ++ bytes)

/-- The item after changes one after the other. -/
def applyAll (item : Item) (edits : List ItemEdit) : Item :=
  edits.foldl apply item

end ItemEdit

end ItemSeal
