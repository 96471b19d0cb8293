import ItemSeal.Proofs.ByteStrings
import ItemSeal.Proofs.Codec.Rearranging
import ItemSeal.Proofs.Codec.Writability

/-!
Values of known types. What is short as a whole has no part that is too long to be written
(`Encoded.fits_of_length_write`), so a value that is short when it is written can be written if
all its parts are of known types (`AttributeValue.exists_serialize_of_known`). The canonical value
has the parts of the value, each canonical, so it can be written exactly if the value can
(`AttributeValue.exists_serializeCanonical_iff`).
-/

namespace ItemSeal

namespace Encoded

theorem length_fieldBytes (bytes : Bytes) : (fieldBytes bytes).length = 4 + bytes.length := by
  simp [fieldBytes, lengthBytes]

theorem length_textBytes (text : String) :
    (textBytes text).length = 4 + (Bytes.ofString text).length :=
  length_fieldBytes _

/-- Counted parts that are short together are not too many, and each of them is short. -/
theorem counted_short {α : Type} {write : α → Bytes} {parts : List α}
    (nonempty : ∀ part ∈ parts, 0 < (write part).length)
    (short : (lengthBytes parts.length ++ parts.flatMap write).length < lengthBound) :
    parts.length < lengthBound ∧ ∀ part ∈ parts, (write part).length < lengthBound := by
  rw [List.length_append] at short
  constructor
  · have count := Bytes.length_le_length_flatMap nonempty
    omega
  · intro part member
    have inside : (write part).length ≤ (parts.flatMap write).length :=
      Bytes.length_le_flatMap member
    omega

theorem textFits_of_short {text : String} (short : (textBytes text).length < lengthBound) :
    textFits text = true := by
  rw [length_textBytes] at short
  exact decide_eq_true (by omega)

theorem fieldFits_of_short {bytes : Bytes} (short : (fieldBytes bytes).length < lengthBound) :
    fieldFits bytes = true := by
  rw [length_fieldBytes] at short
  exact decide_eq_true (by omega)

theorem textsFit_of_short {members : List String}
    (short : (lengthBytes members.length ++ members.flatMap textBytes).length < lengthBound) :
    (decide (members.length < lengthBound) && members.all textFits) = true := by
  obtain ⟨count, each⟩ := counted_short (fun text _ => by rw [length_textBytes]; omega) short
  rw [decide_eq_true count, Bool.true_and, List.all_eq_true]
  exact fun text member => textFits_of_short (each text member)

/-- A tree whose bytes are not more than four bytes can count fits. -/
theorem fits_of_length_write {tree : Encoded} (short : tree.write.length < lengthBound) :
    tree.fits = true := by
  -- Induction on the number of bytes: those of what is inside are fewer.
  induction size : tree.write.length using Nat.strongRecOn generalizing tree with
  | ind size ih =>
      subst size
      have smaller : ∀ child ∈ tree.children, child.fits = true := by
        intro child member
        have inside := length_write_le_payload member
        have whole := congrArg List.length tree.write_eq
        rw [List.length_cons] at whole
        exact ih _ (by omega) (by omega) rfl
      have payload : tree.payload.length < lengthBound := by
        rw [write_eq, List.length_cons] at short
        omega
      cases tree with
      | string text => exact textFits_of_short payload
      | number text => exact textFits_of_short payload
      | binary bytes => exact fieldFits_of_short payload
      | stringSet members => exact textsFit_of_short payload
      | numberSet members => exact textsFit_of_short payload
      | binarySet members =>
          obtain ⟨count, each⟩ :=
            counted_short (fun bytes _ => by rw [length_fieldBytes]; omega) payload
          rw [fits, decide_eq_true count, Bool.true_and, List.all_eq_true]
          exact fun bytes member => fieldFits_of_short (each bytes member)
      | map entries =>
          have nonempty : ∀ entry ∈ entries, 0 < (entryBytes entry).length := by
            intro entry _
            rw [entryBytes, List.length_append, length_textBytes]
            omega
          obtain ⟨count, each⟩ := counted_short nonempty payload
          rw [fits, decide_eq_true count, Bool.true_and, entriesFit_iff]
          intro entry member
          have short := each entry member
          rw [entryBytes, List.length_append] at short
          exact ⟨textFits_of_short (by omega), smaller entry.2 (List.mem_map_of_mem member)⟩
      | list items =>
          have nonempty : ∀ item ∈ items, 0 < item.write.length := by
            intro item _
            rw [write_eq, List.length_cons]
            omega
          obtain ⟨count, -⟩ := counted_short nonempty payload
          rw [fits, decide_eq_true count, Bool.true_and, itemsFit_iff]
          exact smaller
      | null => rfl
      | bool payload => rfl

end Encoded

namespace AttributeValue

/-- A value that can be written has no part of an unknown type. -/
theorem known_of_serialize {value : AttributeValue}
    (writable : ∃ bytes, value.serialize = .ok bytes) :
    .unknown ∉ value.parts :=
  fun member => (exists_serialize_iff.1 writable .unknown member).1 rfl

/-- A value without such parts can be written, if its written form is short. -/
theorem exists_serialize_of_known {value : AttributeValue}
    (short : ∀ tree, value.encoded = .ok tree → tree.write.length < Encoded.lengthBound)
    (known : .unknown ∉ value.parts) : ∃ bytes, value.serialize = .ok bytes := by
  obtain ⟨tree, encodes⟩ := (exists_encoded_iff value).2 known
  have fits := Encoded.fits_of_length_write (short tree encodes)
  exact ⟨tree.write, serialize_eq_ok_iff.2 ⟨tree, encodes, fits, rfl⟩⟩

/-! ## Canonical values -/

mutual

/-- The parts of a canonical value are the canonical parts of the value. -/
theorem parts_canonical :
    (value : AttributeValue) → value.canonical.parts = value.parts.map canonical
  | .string _ => by simp [canonical, parts]
  | .number _ => by simp [canonical, parts]
  | .binary _ => by simp [canonical, parts]
  | .stringSet _ => by simp [canonical, parts]
  | .numberSet _ => by simp [canonical, parts]
  | .binarySet _ => by simp [canonical, parts]
  | .map entries => by
      rw [canonical, parts, parts, List.map_cons, canonical, entryParts_canonical entries]
  | .list items => by
      rw [canonical, parts, parts, List.map_cons, canonical, itemParts_canonical items]
  | .null _ => by simp [canonical, parts]
  | .bool _ => by simp [canonical, parts]
  | .unknown => by simp [canonical, parts]

theorem itemParts_canonical : (items : List AttributeValue) →
    itemParts (canonicalItems items) = (itemParts items).map canonical
  | [] => by simp [canonicalItems, itemParts]
  | item :: rest => by
      rw [canonicalItems, itemParts, itemParts, List.map_append, parts_canonical item,
        itemParts_canonical rest]

theorem entryParts_canonical :
    {bound : Option String} → (entries : Ascending AttributeValue bound) →
    entryParts (canonicalEntries entries) = (entryParts entries).map canonical
  | _, .nil => by simp [canonicalEntries, entryParts]
  | _, .cons name above value rest => by
      rw [canonicalEntries, entryParts, entryParts, List.map_append, parts_canonical value,
        entryParts_canonical rest]

end

/-- Sorting the members of sets changes no length and no count. -/
theorem short_canonical {value : AttributeValue} : value.canonical.Short ↔ value.Short := by
  cases value with
  | map entries =>
      have names : (canonicalEntries entries).names = entries.names := by
        rw [canonicalEntries_eq_mapEntries, Ascending.names, Ascending.toList_mapEntries,
          List.map_map]
        rfl
      have size : (canonicalEntries entries).size = entries.size := by
        rw [canonicalEntries_eq_mapEntries, Ascending.size, Ascending.toList_mapEntries,
          List.length_map]
        rfl
      simp only [canonical, Short, lengths, names, size]
  | list items =>
      simp only [canonical, Short, lengths, canonicalItems_eq_map, List.length_map]
  | _ => simp [canonical, Short, lengths]

theorem canonical_eq_unknown_iff {value : AttributeValue} :
    value.canonical = .unknown ↔ value = .unknown := by
  cases value <;> simp [canonical]

/-- A value has canonical bytes exactly if it has bytes. -/
theorem exists_serializeCanonical_iff {value : AttributeValue} :
    (∃ bytes, value.serializeCanonical = .ok bytes) ↔ ∃ bytes, value.serialize = .ok bytes := by
  unfold serializeCanonical
  rw [exists_serialize_iff, exists_serialize_iff, parts_canonical, List.forall_mem_map]
  simp only [ne_eq, canonical_eq_unknown_iff, short_canonical]

/-- Bytes as a value can be written if their number can. -/
theorem exists_serializeCanonical_binary_iff {stored : Bytes} :
    (∃ bytes, (AttributeValue.binary stored).serializeCanonical = .ok bytes) ↔
      stored.length < Encoded.lengthBound := by
  rw [exists_serializeCanonical_iff, exists_serialize_iff]
  simp [parts, Short, lengths]

end AttributeValue

end ItemSeal
