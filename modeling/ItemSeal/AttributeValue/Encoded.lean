import ItemSeal.AttributeValue
import ItemSeal.Text.Utf8

/-!
The written form of a value: a tag byte, then lengths and counts of four bytes in front of what
they measure. `Encoded` holds a written form as a tree, just as it stands in the bytes: a map's
entries in their written order, repeated names included, and a truth value's payload byte.
`Encoded.write` and `Encoded.read` go between the tree and the bytes.

Reading sets room aside for the entries of a map before the first of them, as much as the map
announces. How that is done is left to the monad in which one reads: `Encoded.ofBytes` has all the
room that it asks for, and `Encoded.ofBytesWith` also reads in a memory that may refuse it.
-/

namespace ItemSeal

/-- Why a byte string is not the written form of a value. -/
inductive DecodeError where
  /-- The bytes end too early. -/
  | truncated
  /-- A text is not UTF-8. -/
  | invalidText (fault : Utf8.Fault)
  /-- No type of value has this tag. -/
  | unknownTag (tag : UInt8)
  /-- Bytes are left over after the value. -/
  | trailing (count : Nat)
  deriving DecidableEq, Repr

/-- The types of value that have a written form. -/
inductive Tag where
  | string
  | number
  | binary
  | stringSet
  | numberSet
  | binarySet
  | map
  | list
  | null
  | bool
  deriving DecidableEq, Repr

/-- The byte of a tag: letters for the types with content, small ones for sets, a zero for null
and a question mark for truth values. -/
def Tag.byte : Tag → UInt8
  | .string => 0x53
  | .number => 0x4E
  | .binary => 0x42
  | .stringSet => 0x73
  | .numberSet => 0x6E
  | .binarySet => 0x62
  | .map => 0x4D
  | .list => 0x4C
  | .null => 0x30
  | .bool => 0x3F

/-- All tags. -/
def Tag.all : List Tag :=
  [.string, .number, .binary, .stringSet, .numberSet, .binarySet, .map, .list, .null, .bool]

/-- The tag that a byte stands for. -/
def Tag.ofByte? (byte : UInt8) : Option Tag :=
  Tag.all.find? fun tag => tag.byte == byte

@[simp] theorem Tag.ofByte?_byte (tag : Tag) : Tag.ofByte? tag.byte = some tag := by
  cases tag <;> rfl

theorem Tag.byte_of_ofByte? {byte : UInt8} {tag : Tag} (found : Tag.ofByte? byte = some tag) :
    tag.byte = byte := by
  have := List.find?_some found
  simpa using this

/-- The tree of a written form. -/
inductive Encoded where
  | string (text : String)
  | number (text : String)
  | binary (bytes : Bytes)
  | stringSet (members : List String)
  | numberSet (members : List String)
  | binarySet (members : List Bytes)
  | map (entries : List (String × Encoded))
  | list (items : List Encoded)
  | null
  | bool (payload : UInt8)

namespace Encoded

/-! ## Writing -/

/-- Lengths and counts are below this number, so that four bytes hold them. -/
def lengthBound : Nat := 4294967296

/-- A length or count, in four bytes. -/
def lengthBytes (n : Nat) : Bytes :=
  Bytes.ofNat 4 n

/-- A byte string after its length. -/
def fieldBytes (bytes : Bytes) : Bytes :=
  lengthBytes bytes.length ++ bytes

/-- The bytes of a text after their number. -/
def textBytes (text : String) : Bytes :=
  fieldBytes (Bytes.ofString text)

mutual

/-- The bytes of a written form. -/
def write : Encoded → Bytes
  | .string text => Tag.string.byte :: textBytes text
  | .number text => Tag.number.byte :: textBytes text
  | .binary bytes => Tag.binary.byte :: fieldBytes bytes
  | .stringSet members =>
      Tag.stringSet.byte :: (lengthBytes members.length ++ members.flatMap textBytes)
  | .numberSet members =>
      Tag.numberSet.byte :: (lengthBytes members.length ++ members.flatMap textBytes)
  | .binarySet members =>
      Tag.binarySet.byte :: (lengthBytes members.length ++ members.flatMap fieldBytes)
  | .map entries => Tag.map.byte :: (lengthBytes entries.length ++ writeEntries entries)
  | .list items => Tag.list.byte :: (lengthBytes items.length ++ writeItems items)
  | .null => [Tag.null.byte]
  | .bool payload => [Tag.bool.byte, payload]

/-- Items one after the other. -/
def writeItems : List Encoded → Bytes
  | [] => []
  | item :: rest => item.write ++ writeItems rest

/-- Entries one after the other, each name before its value. -/
def writeEntries : List (String × Encoded) → Bytes
  | [] => []
  | (name, value) :: rest => textBytes name ++ value.write ++ writeEntries rest

end

/-- The length of a text's bytes fits. -/
def textFits (text : String) : Bool :=
  decide ((Bytes.ofString text).length < lengthBound)

/-- The length of a byte string fits. -/
def fieldFits (bytes : Bytes) : Bool :=
  decide (bytes.length < lengthBound)

mutual

/-- Every length and count of the tree fits into four bytes. -/
def fits : Encoded → Bool
  | .string text => textFits text
  | .number text => textFits text
  | .binary bytes => fieldFits bytes
  | .stringSet members => decide (members.length < lengthBound) && members.all textFits
  | .numberSet members => decide (members.length < lengthBound) && members.all textFits
  | .binarySet members => decide (members.length < lengthBound) && members.all fieldFits
  | .map entries => decide (entries.length < lengthBound) && entriesFit entries
  | .list items => decide (items.length < lengthBound) && itemsFit items
  | .null => true
  | .bool _ => true

/-- Every length and count of the items fits. -/
def itemsFit : List Encoded → Bool
  | [] => true
  | item :: rest => item.fits && itemsFit rest

/-- Every length and count of the entries fits. -/
def entriesFit : List (String × Encoded) → Bool
  | [] => true
  | (name, value) :: rest => textFits name && value.fits && entriesFit rest

end

/-! ## Reading -/

/-- Takes a part off the front of a byte string and leaves what follows. Whatever else
reading needs, it has of `m`. -/
abbrev Reader (m : Type → Type) := StateT Bytes (ExceptT DecodeError m)

section Readers

variable {m : Type → Type} [Monad m] {α : Type}

/-- The reader that does this to the bytes and needs nothing else. -/
def Reader.of (step : Bytes → Except DecodeError (α × Bytes)) : Reader m α := fun bytes =>
  ExceptT.mk (pure (step bytes))

/-- The first `count` bytes. -/
def readBytes (count : Nat) : Reader m Bytes := .of fun bytes =>
  if count ≤ bytes.length then .ok (bytes.take count, bytes.drop count) else .error .truncated

/-- The first byte. -/
def readByte : Reader m UInt8 := .of fun
  | byte :: rest => .ok (byte, rest)
  | [] => .error .truncated

/-- A length or count. -/
def readLength : Reader m Nat := do
  let digits ← readBytes 4
  return digits.toNat

/-- A byte string after its length. -/
def readField : Reader m Bytes := do
  let length ← readLength
  readBytes length

/-- A text after its length. -/
def readText : Reader m String := do
  let field ← readField
  match Utf8.decode field with
  | .ok text => return text
  | .error fault => throw (.invalidText fault)

/-- As many parts as `count` says, one after the other. -/
def readMany (readOne : Reader m α) : (count : Nat) → Reader m (List α)
  | 0 => return []
  | count + 1 => do
      let first ← readOne
      let others ← readMany readOne count
      return first :: others

/-- A count and as many parts. -/
def readCounted (readOne : Reader m α) : Reader m (List α) := do
  let count ← readLength
  readMany readOne count

/-- A count and as many parts, with room for all of them before the first is read. -/
def readReserved (reserve : Nat → m Unit) (readOne : Reader m α) : Reader m (List α) := do
  let count ← readLength
  reserve count
  readMany readOne count

/-- A name and the value after it. -/
def readEntry (readValue : Reader m Encoded) : Reader m (String × Encoded) := do
  let name ← readText
  let value ← readValue
  return (name, value)

/-- What follows a tag, the values inside being read by `readValue`. Only a map has room set aside
for as many entries as it announces; all else grows as it is read. -/
def readPayload (reserve : Nat → m Unit) (readValue : Reader m Encoded) : Tag → Reader m Encoded
  | .string => return .string (← readText)
  | .number => return .number (← readText)
  | .binary => return .binary (← readField)
  | .stringSet => return .stringSet (← readCounted readText)
  | .numberSet => return .numberSet (← readCounted readText)
  | .binarySet => return .binarySet (← readCounted readField)
  | .map => return .map (← readReserved reserve (readEntry readValue))
  | .list => return .list (← readCounted readValue)
  | .null => return .null
  | .bool => return .bool (← readByte)

/-- A value at the front of at most `bound` bytes. Each value inside starts at least one byte
later, so the bound runs out only where the bytes do. -/
def readWithin (reserve : Nat → m Unit) : (bound : Nat) → Reader m Encoded
  | 0 => throw .truncated
  | bound + 1 => do
      let first ← readByte
      match Tag.ofByte? first with
      | some tag => readPayload reserve (readWithin reserve bound) tag
      | none => throw (.unknownTag first)

/-- The outcome of reading a whole byte string: what is read at its front, if nothing follows. -/
def whole (found : Encoded × Bytes) : Except DecodeError Encoded :=
  if found.2 = [] then .ok found.1 else .error (.trailing found.2.length)

/-- The written form that a whole byte string is, where `reserve` gives room
for the entries of maps. -/
def ofBytesWith (reserve : Nat → m Unit) (bytes : Bytes) : m (Except DecodeError Encoded) := do
  let outcome ← ((readWithin reserve bytes.length).run bytes).run
  return outcome >>= whole

end Readers

/-- There is always room. -/
def ample (_ : Nat) : Id Unit := pure ()

/-- What a reader comes to that needs nothing else. -/
def Reader.outcome {α : Type} (reader : Reader Id α) (bytes : Bytes) :
    Except DecodeError (α × Bytes) :=
  (reader.run bytes).run.run

/-- The written form at the front of a byte string, and what follows it. -/
def read (bytes : Bytes) : Except DecodeError (Encoded × Bytes) :=
  (readWithin ample bytes.length).outcome bytes

/-- The written form that a whole byte string is. -/
def ofBytes (bytes : Bytes) : Except DecodeError Encoded :=
  (ofBytesWith ample bytes).run

end Encoded

end ItemSeal
