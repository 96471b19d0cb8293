import ItemSeal.AttributeValue.Codec

/-!
Reading a value by position. A scan goes over bytes that stay as they are, with a cursor that
holds its place and the slices that it has taken. Nothing about it is safe by its form: parts of
the bytes are taken by their indices, values inside values are read to any depth, as many members
or entries are tried as a count says, and a map has room set aside for as many entries as its
count says. A scan breaks off where an index is out of range, its depth is used up or the memory
refuses the room, and comes to nothing then, neither a value nor a fault.
-/

namespace ItemSeal

/-- A part of a byte string, by the place of its first byte and the place after its last. -/
structure Slice where
  start : Nat
  stop : Nat
  deriving DecidableEq, Repr

/-- The bytes of a slice, if it lies inside. -/
def Slice.of? (slice : Slice) (bytes : Bytes) : Option Bytes :=
  if slice.start ≤ slice.stop ∧ slice.stop ≤ bytes.length then
    some ((bytes.take slice.stop).drop slice.start)
  else none

/-- How far some bytes have been read, and the slices that were taken on the
way, the latest first. -/
structure Cursor where
  position : Nat := 0
  taken : List Slice := []
  deriving DecidableEq, Repr

/-- Reads from given bytes in a memory and moves a cursor over them, or breaks off. -/
abbrev Scan (σ : Type) := ReaderT Bytes (ExceptT DecodeError (StateT Cursor (StateT σ Option)))

namespace Scan

variable {σ α : Type}

/-- What a scan comes to, the cursor that it leaves and the memory, unless it breaks off. -/
def runFrom (scan : Scan σ α) (bytes : Bytes) (cursor : Cursor) (memory : σ) :
    Option ((Except DecodeError α × Cursor) × σ) :=
  (((scan.run bytes).run).run cursor).run memory

/-- The scan that breaks off unless there is a value. -/
def ofOption (value : Option α) : Scan σ α := fun _ => ExceptT.mk fun cursor memory =>
  value.map fun found => ((.ok found, cursor), memory)

/-- Sets room aside for so many entries of a map. -/
def reserve (allocator : Allocator σ) (count : Nat) : Scan σ Unit :=
  liftM (allocator count)

/-- The next `count` bytes. -/
def take (count : Nat) : Scan σ Bytes := do
  let bytes ← read
  let cursor ← get
  let slice : Slice := ⟨cursor.position, cursor.position + count⟩
  if slice.stop ≤ bytes.length then
    let part ← ofOption (slice.of? bytes)
    set ({ position := slice.stop, taken := slice :: cursor.taken } : Cursor)
    return part
  else throw .truncated

/-- The next byte. -/
def readByte : Scan σ UInt8 := do
  let part ← take 1
  ofOption part[0]?

/-- A length or count. -/
def readLength : Scan σ Nat := do
  let part ← take 4
  let digits ← ofOption ([0, 1, 2, 3].mapM (part[·]?))
  return Bytes.toNat digits

/-- A byte string after its length. -/
def readField : Scan σ Bytes := do
  let length ← readLength
  take length

/-- A text after its length. -/
def readText : Scan σ String := do
  let field ← readField
  match Utf8.decode field with
  | .ok text => return text
  | .error fault => throw (.invalidText fault)

/-- As many parts as `count` says, one after the other. -/
def readMany (readOne : Scan σ α) : (count : Nat) → Scan σ (List α)
  | 0 => return []
  | count + 1 => do
      let first ← readOne
      let others ← readMany readOne count
      return first :: others

/-- A count and as many parts. -/
def readCounted (readOne : Scan σ α) : Scan σ (List α) := do
  let count ← readLength
  readMany readOne count

/-- A count and as many parts, with room for all of them before the first is read. -/
def readReserved (allocator : Allocator σ) (readOne : Scan σ α) : Scan σ (List α) := do
  let count ← readLength
  reserve allocator count
  readMany readOne count

/-- A name and the value after it. -/
def readEntry (readValue : Scan σ Encoded) : Scan σ (String × Encoded) := do
  let name ← readText
  let value ← readValue
  return (name, value)

/-- What follows a tag, the values inside being read by `readValue`. -/
def readPayload (allocator : Allocator σ) (readValue : Scan σ Encoded) : Tag → Scan σ Encoded
  | .string => return .string (← readText)
  | .number => return .number (← readText)
  | .binary => return .binary (← readField)
  | .stringSet => return .stringSet (← readCounted readText)
  | .numberSet => return .numberSet (← readCounted readText)
  | .binarySet => return .binarySet (← readCounted readField)
  | .map => return .map (← readReserved allocator (readEntry readValue))
  | .list => return .list (← readCounted readValue)
  | .null => return .null
  | .bool => return .bool (← readByte)

/-- A value in which values stand inside each other `depth` deep at most. -/
def readWithin (allocator : Allocator σ) : (depth : Nat) → Scan σ Encoded
  | 0 => ofOption none
  | depth + 1 => do
      let first ← readByte
      match Tag.ofByte? first with
      | some tag => readPayload allocator (readWithin allocator depth) tag
      | none => throw (.unknownTag first)

/-- The value that all the bytes are the written form of, as deep as it may be. -/
def deserialize (allocator : Allocator σ) (depth : Nat) : Scan σ AttributeValue := do
  let tree ← readWithin allocator depth
  let bytes ← read
  let cursor ← get
  if cursor.position = bytes.length then return tree.value
  else throw (.trailing (bytes.length - cursor.position))

end Scan

end ItemSeal
