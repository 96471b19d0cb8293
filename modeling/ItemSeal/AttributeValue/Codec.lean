import ItemSeal.AttributeValue.Encoded
import ItemSeal.Bytes.Hex

/-!
Values as bytes. `serialize` keeps the order of set members, so that a value is read back as it
was; `serializeCanonical` sorts them, so that equal sets give equal bytes. A null is written
without its flag and read back with it set.
-/

namespace ItemSeal

/-- Why a value has no written form. -/
inductive EncodeError where
  /-- Some part of it is of an unknown type. -/
  | unsupported
  /-- Some length or count takes more than four bytes. -/
  | tooLarge
  deriving DecidableEq, Repr

namespace AttributeValue

mutual

/-- The tree of a value's written form. -/
def encoded : AttributeValue → Except EncodeError Encoded
  | .string text => .ok (.string text)
  | .number text => .ok (.number text)
  | .binary bytes => .ok (.binary bytes)
  | .stringSet members => .ok (.stringSet members)
  | .numberSet members => .ok (.numberSet members)
  | .binarySet members => .ok (.binarySet members)
  | .map entries => (encodedEntries entries).map .map
  | .list items => (encodedItems items).map .list
  | .null _ => .ok .null
  | .bool flag => .ok (.bool (if flag then 1 else 0))
  | .unknown => .error .unsupported

/-- The trees of items. -/
def encodedItems : List AttributeValue → Except EncodeError (List Encoded)
  | [] => .ok []
  | item :: rest => do
      let first ← item.encoded
      let others ← encodedItems rest
      return first :: others

/-- The trees of entries, in the order of their names. -/
def encodedEntries : {bound : Option String} → Ascending AttributeValue bound →
    Except EncodeError (List (String × Encoded))
  | _, .nil => .ok []
  | _, .cons name _ value rest => do
      let first ← value.encoded
      let others ← encodedEntries rest
      return (name, first) :: others

end

/-- What is wrong with a length or count. -/
def lengthFault? (length : Nat) : Option EncodeError :=
  if length < Encoded.lengthBound then none else some .tooLarge

/-- What is wrong with the length of a text. -/
def textFault? (text : String) : Option EncodeError :=
  lengthFault? (Bytes.ofString text).length

mutual

/-- What a value has no written form for: the first such thing in the order
in which it is written. -/
def fault? : AttributeValue → Option EncodeError
  | .string text => textFault? text
  | .number text => textFault? text
  | .binary bytes => lengthFault? bytes.length
  | .stringSet members => (lengthFault? members.length).or (members.findSome? textFault?)
  | .numberSet members => (lengthFault? members.length).or (members.findSome? textFault?)
  | .binarySet members =>
      (lengthFault? members.length).or (members.findSome? (lengthFault? ·.length))
  | .map entries => (lengthFault? entries.size).or (entriesFault? entries)
  | .list items => (lengthFault? items.length).or (itemsFault? items)
  | .null _ => none
  | .bool _ => none
  | .unknown => some .unsupported

/-- The first thing that items have no written form for. -/
def itemsFault? : List AttributeValue → Option EncodeError
  | [] => none
  | item :: rest => item.fault?.or (itemsFault? rest)

/-- The first thing that entries have no written form for, names included. -/
def entriesFault? : {bound : Option String} → Ascending AttributeValue bound → Option EncodeError
  | _, .nil => none
  | _, .cons name _ value rest => (textFault? name).or (value.fault?.or (entriesFault? rest))

end

/-- The bytes of a value; set members keep their order. -/
def serialize (value : AttributeValue) : Except EncodeError Bytes :=
  match value.fault? with
  | some fault => .error fault
  | none => value.encoded.map Encoded.write

mutual

/-- The value that stands for all that differ from it only in the order of set members and the
flags of nulls: its sets are sorted, texts by their bytes, and its nulls are flagged. -/
def canonical : AttributeValue → AttributeValue
  | .stringSet members => .stringSet (members.mergeSort fun a b => decide (a ≤ b))
  | .numberSet members => .numberSet (members.mergeSort fun a b => decide (a ≤ b))
  | .binarySet members => .binarySet (members.mergeSort fun a b => decide (a ≤ b))
  | .map entries => .map (canonicalEntries entries)
  | .list items => .list (canonicalItems items)
  | .null _ => .null true
  | .string text => .string text
  | .number text => .number text
  | .binary bytes => .binary bytes
  | .bool flag => .bool flag
  | .unknown => .unknown

/-- The canonical items of a list. -/
def canonicalItems : List AttributeValue → List AttributeValue
  | [] => []
  | item :: rest => item.canonical :: canonicalItems rest

/-- The canonical values of entries. -/
def canonicalEntries : {bound : Option String} → Ascending AttributeValue bound →
    Ascending AttributeValue bound
  | _, .nil => .nil
  | _, .cons name above value rest => .cons name above value.canonical (canonicalEntries rest)

end

/-- The bytes of a value, the same for sets that differ in the order of their members only. -/
def serializeCanonical (value : AttributeValue) : Except EncodeError Bytes :=
  value.canonical.serialize

end AttributeValue

namespace Encoded

mutual

/-- The value that a written form stands for: of entries with one name the last counts, and any
payload but zero is true. -/
def value : Encoded → AttributeValue
  | .string text => .string text
  | .number text => .number text
  | .binary bytes => .binary bytes
  | .stringSet members => .stringSet members
  | .numberSet members => .numberSet members
  | .binarySet members => .binarySet members
  | .map entries => .map (NameMap.ofList (entryValues entries))
  | .list items => .list (itemValues items)
  | .null => .null true
  | .bool payload => .bool (payload != 0)

/-- The values of items. -/
def itemValues : List Encoded → List AttributeValue
  | [] => []
  | item :: rest => item.value :: itemValues rest

/-- The values of entries, under their names. -/
def entryValues : List (String × Encoded) → List (String × AttributeValue)
  | [] => []
  | (name, encoded) :: rest => (name, encoded.value) :: entryValues rest

end

end Encoded

/-- The value that a byte string is the written form of, read with room for all
that its maps announce. -/
def AttributeValue.deserialize (bytes : Bytes) : Except DecodeError AttributeValue :=
  (Encoded.ofBytes bytes).map Encoded.value

/-- Memory that is given out as room for the entries of maps: what is left of it once there is
room for so many of them, unless it is refused. -/
abbrev Allocator (σ : Type) := Nat → StateT σ Option Unit

/-- Memory with room for so many entries in all. -/
def Allocator.upTo : Allocator Nat := fun count left =>
  if count ≤ left then some ((), left - count) else none

/-- The value that a byte string is the written form of, read in a memory. Where this refuses what
is asked of it the reading breaks off, and comes to nothing: neither a value nor a fault. -/
def AttributeValue.deserializeIn {σ : Type} (allocator : Allocator σ) (bytes : Bytes) :
    StateT σ Option (Except DecodeError AttributeValue) := do
  let tree ← Encoded.ofBytesWith allocator bytes
  return tree.map Encoded.value

/-- The report of a value that cannot be written. -/
def EncodeError.message : EncodeError → String
  | .unsupported => "unsupported attribute type: Unknown"
  | .tooLarge => "attribute value too large to serialize"

/-- The report of bytes that cannot be read. -/
def DecodeError.message : DecodeError → String
  | .truncated => "serialized attribute is truncated"
  | .invalidText fault => s!"invalid UTF-8 in attribute: {fault.message}"
  | .unknownTag tag =>
      s!"unknown attribute type tag: 0x{String.ofList (Hex.ofByte tag)}"
  | .trailing count => s!"{count} trailing bytes after serialized attribute"

end ItemSeal
