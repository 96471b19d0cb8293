import ItemSeal.Error
import ItemSeal.Proofs.Codec.RoundTrip

/-!
Which values have a written form. `AttributeValue.parts` lists a value with all values inside it
and `AttributeValue.lengths` the lengths and counts that one of them is written with. A value has
a tree unless some part of it is of an unknown type (`AttributeValue.exists_encoded_iff`), and the
tree fits unless some length takes more than four bytes (`AttributeValue.fits_encoded_iff`). With
the law of reading back this gives the law of the codec: `AttributeValue.deserialize_serialize`.
-/

namespace ItemSeal.AttributeValue

mutual

/-- The value and all values inside it, at any depth. -/
def parts : AttributeValue → List AttributeValue
  | .map entries => .map entries :: entryParts entries
  | .list items => .list items :: itemParts items
  | .string text => [.string text]
  | .number text => [.number text]
  | .binary bytes => [.binary bytes]
  | .stringSet members => [.stringSet members]
  | .numberSet members => [.numberSet members]
  | .binarySet members => [.binarySet members]
  | .null flag => [.null flag]
  | .bool flag => [.bool flag]
  | .unknown => [.unknown]

def itemParts : List AttributeValue → List AttributeValue
  | [] => []
  | item :: rest => item.parts ++ itemParts rest

def entryParts : {bound : Option String} → Ascending AttributeValue bound → List AttributeValue
  | _, .nil => []
  | _, .cons _ _ value rest => value.parts ++ entryParts rest

end

/-- The number of bytes of a text. -/
def textLength (text : String) : Nat :=
  (Bytes.ofString text).length

/-- The lengths and counts of a value itself, those of its set members and
of its names included. -/
def lengths : AttributeValue → List Nat
  | .string text | .number text => [textLength text]
  | .binary bytes => [bytes.length]
  | .stringSet members | .numberSet members => members.length :: members.map textLength
  | .binarySet members => members.length :: members.map List.length
  | .map entries => entries.size :: entries.names.map textLength
  | .list items => [items.length]
  | .null _ | .bool _ | .unknown => []

/-- All lengths of the value itself fit into four bytes. -/
def Short (value : AttributeValue) : Prop :=
  ∀ length ∈ value.lengths, length < Encoded.lengthBound

/-! ## Values with a tree -/

mutual

/-- A value has a tree unless some part of it is of an unknown type. -/
theorem exists_encoded_iff : (value : AttributeValue) →
    ((∃ tree, value.encoded = .ok tree) ↔ .unknown ∉ value.parts)
  | .string _ => by simp [encoded, parts]
  | .number _ => by simp [encoded, parts]
  | .binary _ => by simp [encoded, parts]
  | .stringSet _ => by simp [encoded, parts]
  | .numberSet _ => by simp [encoded, parts]
  | .binarySet _ => by simp [encoded, parts]
  | .map entries => by
      have inside := exists_encodedEntries_iff entries
      rw [parts, List.mem_cons, not_or, ← inside]
      constructor
      · rintro ⟨tree, encodes⟩
        obtain ⟨trees, encodedInside, -⟩ := Except.map_eq_ok_iff.1 encodes
        exact ⟨AttributeValue.noConfusion, trees, encodedInside⟩
      · rintro ⟨-, trees, encodedInside⟩
        exact ⟨.map trees, Except.map_eq_ok_iff.2 ⟨trees, encodedInside, rfl⟩⟩
  | .list items => by
      have inside := exists_encodedItems_iff items
      rw [parts, List.mem_cons, not_or, ← inside]
      constructor
      · rintro ⟨tree, encodes⟩
        obtain ⟨trees, encodedInside, -⟩ := Except.map_eq_ok_iff.1 encodes
        exact ⟨AttributeValue.noConfusion, trees, encodedInside⟩
      · rintro ⟨-, trees, encodedInside⟩
        exact ⟨.list trees, Except.map_eq_ok_iff.2 ⟨trees, encodedInside, rfl⟩⟩
  | .null _ => by simp [encoded, parts]
  | .bool _ => by simp [encoded, parts]
  | .unknown => by simp [encoded, parts]

theorem exists_encodedItems_iff : (items : List AttributeValue) →
    ((∃ trees, encodedItems items = .ok trees) ↔ .unknown ∉ itemParts items)
  | [] => by simp [encodedItems, itemParts]
  | item :: rest => by
      rw [itemParts, List.mem_append, not_or, ← exists_encoded_iff item,
        ← exists_encodedItems_iff rest]
      constructor
      · rintro ⟨trees, encodes⟩
        obtain ⟨first, others, head, tail, -⟩ := encodedItems_cons_eq_ok encodes
        exact ⟨⟨first, head⟩, others, tail⟩
      · rintro ⟨⟨first, head⟩, others, tail⟩
        exact ⟨first :: others, Except.bind_eq_ok_iff.2 ⟨first, head,
          Except.bind_eq_ok_iff.2 ⟨others, tail, rfl⟩⟩⟩

theorem exists_encodedEntries_iff : {bound : Option String} →
    (entries : Ascending AttributeValue bound) →
    ((∃ trees, encodedEntries entries = .ok trees) ↔ .unknown ∉ entryParts entries)
  | _, .nil => by simp [encodedEntries, entryParts]
  | _, .cons name above value rest => by
      rw [entryParts, List.mem_append, not_or, ← exists_encoded_iff value,
        ← exists_encodedEntries_iff rest]
      constructor
      · rintro ⟨trees, encodes⟩
        obtain ⟨first, others, head, tail, -⟩ := encodedEntries_cons_eq_ok encodes
        exact ⟨⟨first, head⟩, others, tail⟩
      · rintro ⟨⟨first, head⟩, others, tail⟩
        exact ⟨(name, first) :: others, Except.bind_eq_ok_iff.2 ⟨first, head,
          Except.bind_eq_ok_iff.2 ⟨others, tail, rfl⟩⟩⟩

end

/-! ## Trees that fit -/

mutual

/-- The tree of a value fits exactly if all parts of the value are short. -/
theorem fits_encoded_iff :
    {value : AttributeValue} → {tree : Encoded} → value.encoded = .ok tree →
    (tree.fits = true ↔ ∀ part ∈ value.parts, part.Short)
  | .string _, _, encodes => by
      cases encodes; simp [Encoded.fits, Encoded.textFits, parts, Short, lengths, textLength]
  | .number _, _, encodes => by
      cases encodes; simp [Encoded.fits, Encoded.textFits, parts, Short, lengths, textLength]
  | .binary _, _, encodes => by
      cases encodes; simp [Encoded.fits, Encoded.fieldFits, parts, Short, lengths]
  | .stringSet _, _, encodes => by
      cases encodes; simp [Encoded.fits, Encoded.textFits, parts, Short, lengths, textLength]
  | .numberSet _, _, encodes => by
      cases encodes; simp [Encoded.fits, Encoded.textFits, parts, Short, lengths, textLength]
  | .binarySet _, _, encodes => by
      cases encodes; simp [Encoded.fits, Encoded.fieldFits, parts, Short, lengths]
  | .map entries, _, encodes => by
      obtain ⟨trees, inside, rfl⟩ := Except.map_eq_ok_iff.1 encodes
      have itself : (AttributeValue.map entries).Short ↔
          entries.size < Encoded.lengthBound ∧ ∀ name ∈ entries.names,
            Encoded.textFits name = true := by
        simp [Short, lengths, Encoded.textFits, textLength]
      rw [parts, List.forall_mem_cons, itself, Encoded.fits, Bool.and_eq_true, decide_eq_true_eq,
        length_of_encodedEntries inside, entriesFit_encoded_iff inside, and_assoc]
  | .list items, _, encodes => by
      obtain ⟨trees, inside, rfl⟩ := Except.map_eq_ok_iff.1 encodes
      rw [parts, List.forall_mem_cons, ← itemsFit_encoded_iff inside, Encoded.fits,
        Bool.and_eq_true, decide_eq_true_eq, length_of_encodedItems inside]
      simp [Short, lengths]
  | .null _, _, encodes => by cases encodes; simp [Encoded.fits, parts, Short, lengths]
  | .bool _, _, encodes => by cases encodes; simp [Encoded.fits, parts, Short, lengths]
  | .unknown, _, encodes => by cases encodes

theorem itemsFit_encoded_iff : {items : List AttributeValue} → {trees : List Encoded} →
    encodedItems items = .ok trees →
    (Encoded.itemsFit trees = true ↔ ∀ part ∈ itemParts items, part.Short)
  | [], _, encodes => by cases encodes; simp [Encoded.itemsFit, itemParts]
  | item :: rest, _, encodes => by
      obtain ⟨first, others, head, tail, rfl⟩ := encodedItems_cons_eq_ok encodes
      rw [Encoded.itemsFit, Bool.and_eq_true, fits_encoded_iff head, itemsFit_encoded_iff tail,
        itemParts, List.forall_mem_append]

theorem entriesFit_encoded_iff :
    {bound : Option String} → {entries : Ascending AttributeValue bound} →
    {trees : List (String × Encoded)} → encodedEntries entries = .ok trees →
    (Encoded.entriesFit trees = true ↔
      (∀ name ∈ entries.names, Encoded.textFits name = true) ∧
        ∀ part ∈ entryParts entries, part.Short)
  | _, .nil, _, encodes => by
      cases encodes; simp [Encoded.entriesFit, entryParts, Ascending.names, Ascending.toList]
  | _, .cons name above value rest, _, encodes => by
      obtain ⟨first, others, head, tail, rfl⟩ := encodedEntries_cons_eq_ok encodes
      have names : (Ascending.cons name above value rest).names = name :: rest.names := rfl
      rw [Encoded.entriesFit, Bool.and_eq_true, Bool.and_eq_true, fits_encoded_iff head,
        entriesFit_encoded_iff tail, entryParts, List.forall_mem_append, names,
        List.forall_mem_cons, and_and_and_comm]

end

/-! ## Values that come back -/

/-- A value has bytes exactly if none of its parts is of an unknown type and all are short. -/
theorem exists_serialize_iff {value : AttributeValue} :
    (∃ bytes, value.serialize = .ok bytes) ↔
      ∀ part ∈ value.parts, part ≠ .unknown ∧ part.Short := by
  constructor
  · rintro ⟨bytes, written⟩ part member
    obtain ⟨tree, encodes, fits, -⟩ := serialize_eq_ok_iff.1 written
    have known := (exists_encoded_iff value).1 ⟨tree, encodes⟩
    exact ⟨fun unknown => known (unknown ▸ member), (fits_encoded_iff encodes).1 fits part member⟩
  · intro each
    have known : .unknown ∉ value.parts := fun member => (each .unknown member).1 rfl
    obtain ⟨tree, encodes⟩ := (exists_encoded_iff value).2 known
    have fits := (fits_encoded_iff encodes).2 fun part member => (each part member).2
    exact ⟨tree.write, serialize_eq_ok_iff.2 ⟨tree, encodes, fits, rfl⟩⟩

mutual

/-- Settling changes nothing but nulls whose flag is not set. -/
theorem settled_eq_self_iff : (value : AttributeValue) →
    (value.settled = value ↔ .null false ∉ value.parts)
  | .string _ => by simp [settled, parts]
  | .number _ => by simp [settled, parts]
  | .binary _ => by simp [settled, parts]
  | .stringSet _ => by simp [settled, parts]
  | .numberSet _ => by simp [settled, parts]
  | .binarySet _ => by simp [settled, parts]
  | .map entries => by
      rw [settled, parts, List.mem_cons, not_or, ← settledEntries_eq_self_iff entries,
        AttributeValue.map.injEq]
      exact ⟨fun same => ⟨AttributeValue.noConfusion, same⟩, And.right⟩
  | .list items => by
      rw [settled, parts, List.mem_cons, not_or, ← settledItems_eq_self_iff items,
        AttributeValue.list.injEq]
      exact ⟨fun same => ⟨AttributeValue.noConfusion, same⟩, And.right⟩
  | .null flag => by cases flag <;> simp [settled, parts]
  | .bool _ => by simp [settled, parts]
  | .unknown => by simp [settled, parts]

theorem settledItems_eq_self_iff : (items : List AttributeValue) →
    (settledItems items = items ↔ .null false ∉ itemParts items)
  | [] => by simp [settledItems, itemParts]
  | item :: rest => by
      rw [settledItems, itemParts, List.mem_append, not_or, List.cons.injEq,
        settled_eq_self_iff item, settledItems_eq_self_iff rest]

theorem settledEntries_eq_self_iff : {bound : Option String} →
    (entries : Ascending AttributeValue bound) →
    (settledEntries entries = entries ↔ .null false ∉ entryParts entries)
  | _, .nil => by simp [settledEntries, entryParts]
  | _, .cons name above value rest => by
      rw [settledEntries, entryParts, List.mem_append, not_or, ← settled_eq_self_iff value,
        ← settledEntries_eq_self_iff rest]
      simp

end

/-- A value that is written is read back settled, so as it was but for the flags of its nulls. It
fails to be written exactly if some part of it is of an unknown type or has a length that takes
more than four bytes, and that is an error of encryption. -/
theorem deserialize_serialize (value : AttributeValue) :
    (∀ bytes, value.serialize = .ok bytes → deserialize bytes = .ok value.settled) ∧
      (value.settled = value ↔ .null false ∉ value.parts) ∧
      ((∃ fault, value.serialize = .error fault) ↔
        ∃ part ∈ value.parts, part = .unknown ∨ ∃ length ∈ part.lengths, 2 ^ 32 - 1 < length) ∧
      ∀ error, value.serialize.mapError Error.unencodable = .error error →
        error.kind = .encryption := by
  refine ⟨fun bytes written => deserialize_of_serialize written,
    settled_eq_self_iff value, ?_, ?_⟩
  · have fails : (∃ fault, value.serialize = .error fault) ↔
        ¬ ∃ bytes, value.serialize = .ok bytes := by
      cases value.serialize <;> simp
    have long : ∀ part : AttributeValue,
        ¬ part.Short ↔ ∃ length ∈ part.lengths, 2 ^ 32 - 1 < length := by
      intro part
      simp [Short, Encoded.lengthBound, Nat.succ_le_iff]
    rw [fails, exists_serialize_iff]
    simp only [Classical.not_forall, Classical.not_and_iff_not_or_not, Classical.not_not, long,
      exists_prop]
  · intro error failed
    cases written : value.serialize with
    | ok bytes =>
        rw [written] at failed
        cases failed
    | error fault =>
        rw [written] at failed
        cases failed
        rfl

namespace Sample

-- A false null and a set with a repeated member, in a list in a map.
def tagged : AttributeValue :=
  .map (NameMap.ofList [("Tags", .list [.null false, .stringSet ["b", "a", "b"]]),
    ("Id", .number "1")])

def opaqueInside : AttributeValue := .list [.bool true, .list [.unknown]]

def tooLong (length : Nat) : AttributeValue := .list [.binary (List.replicate length 0)]

end Sample

open Sample in
theorem deserialize_serialize_samples :
    (∃ bytes, tagged.serialize = .ok bytes ∧ deserialize bytes = .ok tagged.settled) ∧
      tagged.settled ≠ tagged ∧ (∃ fault, opaqueInside.serialize = .error fault) ∧
      ∃ fault, (tooLong (2 ^ 32)).serialize = .error fault := by
  have written : ∃ bytes, tagged.serialize = .ok bytes := ⟨_, rfl⟩
  have long : ∀ length, ∃ part ∈ (tooLong length).parts, length ∈ part.lengths := fun length =>
    ⟨.binary (List.replicate length 0), by simp [tooLong, parts, itemParts], by simp [lengths]⟩
  obtain ⟨bytes, written⟩ := written
  obtain ⟨part, member, length⟩ := long (2 ^ 32)
  refine ⟨⟨bytes, written, (deserialize_serialize tagged).1 bytes written⟩, ?_, ?_, ?_⟩
  · rw [ne_eq, (deserialize_serialize tagged).2.1]
    decide
  · exact (deserialize_serialize opaqueInside).2.2.1.2 ⟨.unknown, by decide, .inl rfl⟩
  · exact (deserialize_serialize (tooLong (2 ^ 32))).2.2.1.2
      ⟨part, member, .inr ⟨2 ^ 32, length, by decide⟩⟩

end ItemSeal.AttributeValue
