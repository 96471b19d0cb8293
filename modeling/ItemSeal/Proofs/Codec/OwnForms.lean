import ItemSeal.Proofs.Codec.Decoding
import ItemSeal.Proofs.Codec.RoundTrip
import ItemSeal.Proofs.NameMapLists
import ItemSeal.Proofs.TextOrder

/-!
Bytes that are read and written again. Reading accepts more than writing gives: entries in any
order, entries that are overwritten by later ones of the same name, and any payload of a truth
value. `Encoded.tidied` is the tree that the value of a tree is written as; it is as long as the
tree exactly if no entry of it is overwritten, and the tree itself exactly if the tree is tidy at
every place. `AttributeValue.serialize_of_deserialize` says this of the bytes.
-/

namespace ItemSeal

theorem AttributeValue.encodedEntries_eq_mapEntriesM {bound : Option String}
    (entries : Ascending AttributeValue bound) :
    encodedEntries entries =
      (entries.mapEntriesM fun _ (value : AttributeValue) =>
        value.encoded).map Ascending.toList := by
  induction entries with
  | nil => rfl
  | cons name above value rest ih =>
      rw [encodedEntries, Ascending.mapEntriesM, ih]
      cases value.encoded with
      | error failure => rfl
      | ok first =>
          cases rest.mapEntriesM fun _ (value : AttributeValue) => value.encoded with
          | error failure => rfl
          | ok others => rfl

namespace Encoded

/-! ## Trees and their parts -/

mutual

/-- The tree and all trees inside it, at any depth. -/
def parts : Encoded → List Encoded
  | .map entries => .map entries :: entryParts entries
  | .list items => .list items :: itemParts items
  | .string text => [.string text]
  | .number text => [.number text]
  | .binary bytes => [.binary bytes]
  | .stringSet members => [.stringSet members]
  | .numberSet members => [.numberSet members]
  | .binarySet members => [.binarySet members]
  | .null => [.null]
  | .bool payload => [.bool payload]

def itemParts : List Encoded → List Encoded
  | [] => []
  | item :: rest => item.parts ++ itemParts rest

def entryParts : List (String × Encoded) → List Encoded
  | [] => []
  | (_, value) :: rest => value.parts ++ entryParts rest

end

/-- The names of a map's entries as they stand in the bytes; other trees have none. -/
def names : Encoded → List String
  | .map entries => entries.map (·.1)
  | _ => []

/-- The tree is one that writing gives, but for the trees inside: a map's entries stand in the
order of the bytes of their names, no name twice, and a truth value's payload is zero or one. -/
def Tidy : Encoded → Prop
  | .map entries => (entries.map fun entry => Bytes.ofString entry.1).Pairwise (· < ·)
  | .bool payload => payload = 0 ∨ payload = 1
  | _ => True

mutual

/-- The tree that the value of a tree is written as. -/
def tidied : Encoded → Encoded
  | .map entries => .map (NameMap.ofList (tidiedEntries entries)).toList
  | .list items => .list (tidiedItems items)
  | .bool payload => .bool (if payload != 0 then 1 else 0)
  | .string text => .string text
  | .number text => .number text
  | .binary bytes => .binary bytes
  | .stringSet members => .stringSet members
  | .numberSet members => .numberSet members
  | .binarySet members => .binarySet members
  | .null => .null

def tidiedItems : List Encoded → List Encoded
  | [] => []
  | item :: rest => item.tidied :: tidiedItems rest

/-- The entries in their own order, with the tidied values. -/
def tidiedEntries : List (String × Encoded) → List (String × Encoded)
  | [] => []
  | (name, value) :: rest => (name, value.tidied) :: tidiedEntries rest

end

theorem names_tidiedEntries (entries : List (String × Encoded)) :
    (tidiedEntries entries).map (·.1) = entries.map (·.1) := by
  induction entries with
  | nil => rfl
  | cons entry rest ih => rw [tidiedEntries, List.map_cons, List.map_cons, ih]

theorem length_tidiedEntries (entries : List (String × Encoded)) :
    (tidiedEntries entries).length = entries.length := by
  simpa using congrArg List.length (names_tidiedEntries entries)

theorem length_tidiedItems (items : List Encoded) :
    (tidiedItems items).length = items.length := by
  induction items with
  | nil => rfl
  | cons item rest ih => rw [tidiedItems, List.length_cons, List.length_cons, ih]

/-! ## The tree of the value -/

mutual

/-- The value of a tree is written as the tidied tree. -/
theorem encoded_value : (tree : Encoded) → tree.value.encoded = .ok tree.tidied
  | .map entries => by
      rw [value, AttributeValue.encoded, AttributeValue.encodedEntries_eq_mapEntriesM,
        NameMap.mapEntriesM_ofList (encoded_entryValues entries), tidied]
      rfl
  | .list items => by
      rw [value, AttributeValue.encoded, encodedItems_itemValues items, tidied]
      rfl
  | .string _ => by simp only [value, AttributeValue.encoded, tidied]
  | .number _ => by simp only [value, AttributeValue.encoded, tidied]
  | .binary _ => by simp only [value, AttributeValue.encoded, tidied]
  | .stringSet _ => by simp only [value, AttributeValue.encoded, tidied]
  | .numberSet _ => by simp only [value, AttributeValue.encoded, tidied]
  | .binarySet _ => by simp only [value, AttributeValue.encoded, tidied]
  | .null => by simp only [value, AttributeValue.encoded, tidied]
  | .bool _ => by simp only [value, AttributeValue.encoded, tidied]

theorem encodedItems_itemValues : (items : List Encoded) →
    AttributeValue.encodedItems (itemValues items) = .ok (tidiedItems items)
  | [] => by rw [itemValues, AttributeValue.encodedItems, tidiedItems]
  | item :: rest => by
      rw [itemValues, AttributeValue.encodedItems, encoded_value item,
        encodedItems_itemValues rest, tidiedItems]
      rfl

theorem encoded_entryValues : (entries : List (String × Encoded)) →
    List.Forall₂ (fun before after => before.1 = after.1 ∧ before.2.encoded = .ok after.2)
      (entryValues entries) (tidiedEntries entries)
  | [] => by
      rw [entryValues, tidiedEntries]
      exact .nil
  | (name, tree) :: rest => by
      rw [entryValues, tidiedEntries]
      exact .cons ⟨rfl, encoded_value tree⟩ (encoded_entryValues rest)

end

/-! ## Trees that fit -/

mutual

/-- A tree that fits does so when it is tidied. -/
theorem fits_tidied : {tree : Encoded} → tree.fits = true → tree.tidied.fits = true
  | .map entries, fit => by
      simp only [fits, Bool.and_eq_true, decide_eq_true_eq] at fit
      obtain ⟨count, inside⟩ := fit
      obtain ⟨overwritten, perm, -⟩ := NameMap.exists_overwritten (tidiedEntries entries)
      have fewer : (NameMap.ofList (tidiedEntries entries)).toList.length < lengthBound := by
        have lengths := perm.length_eq
        rw [length_tidiedEntries, List.length_append] at lengths
        omega
      rw [tidied, fits, decide_eq_true fewer, Bool.true_and, entriesFit_iff]
      exact fun entry member =>
        entriesFit_iff.1 (entriesFit_tidied inside) entry (NameMap.mem_of_mem_ofList member)
  | .list items, fit => by
      simp only [fits, Bool.and_eq_true, decide_eq_true_eq] at fit
      rw [tidied, fits, length_tidiedItems, decide_eq_true fit.1, Bool.true_and]
      exact itemsFit_tidied fit.2
  | .string _, fit => by rwa [tidied]
  | .number _, fit => by rwa [tidied]
  | .binary _, fit => by rwa [tidied]
  | .stringSet _, fit => by rwa [tidied]
  | .numberSet _, fit => by rwa [tidied]
  | .binarySet _, fit => by rwa [tidied]
  | .null, fit => by rwa [tidied]
  | .bool _, _ => by rw [tidied, fits]

theorem itemsFit_tidied :
    {items : List Encoded} → itemsFit items = true → itemsFit (tidiedItems items) = true
  | [], _ => by rw [tidiedItems, itemsFit]
  | item :: rest, fit => by
      simp only [itemsFit, Bool.and_eq_true] at fit
      rw [tidiedItems, itemsFit, fits_tidied fit.1, itemsFit_tidied fit.2, Bool.and_self]

theorem entriesFit_tidied : {entries : List (String × Encoded)} → entriesFit entries = true →
    entriesFit (tidiedEntries entries) = true
  | [], _ => by rw [tidiedEntries, entriesFit]
  | (name, tree) :: rest, fit => by
      simp only [entriesFit, Bool.and_eq_true] at fit
      rw [tidiedEntries, entriesFit, fit.1.1, fits_tidied fit.1.2, entriesFit_tidied fit.2]
      rfl

end

/-! ## Bytes that are dropped -/

theorem length_entryBytes_pos (entry : String × Encoded) : 0 < (entryBytes entry).length := by
  rw [entryBytes, textBytes, fieldBytes, lengthBytes]
  simp only [List.length_append, Bytes.length_ofNat]
  omega

/-- The entries of the map of a list take the bytes of the list, but for those
of overwritten entries. -/
theorem exists_overwritten_length (entries : List (String × Encoded)) :
    ∃ dropped, (writeEntries entries).length =
        (writeEntries (NameMap.ofList entries).toList).length + dropped ∧
      (dropped = 0 ↔ (entries.map (·.1)).Nodup) := by
  obtain ⟨overwritten, perm, distinct⟩ := NameMap.exists_overwritten entries
  refine ⟨(writeEntries overwritten).length, ?_, ?_⟩
  · rw [writeEntries_eq, (perm.flatMap_right entryBytes).length_eq, List.flatMap_append,
      List.length_append, writeEntries_eq, writeEntries_eq]
  · rw [← distinct]
    cases overwritten with
    | nil => simp [writeEntries]
    | cons entry rest =>
        have positive := length_entryBytes_pos entry
        rw [writeEntries_eq, List.flatMap_cons, List.length_append]
        exact iff_of_false (by omega) (List.cons_ne_nil _ _)

mutual

/-- Tidying drops some bytes of a tree, and none exactly if no map inside repeats a name. -/
theorem exists_dropped : (tree : Encoded) →
    ∃ dropped, tree.write.length = tree.tidied.write.length + dropped ∧
      (dropped = 0 ↔ ∀ part ∈ tree.parts, part.names.Nodup)
  | .map entries => by
      obtain ⟨inside, entriesLength, noneInside⟩ := exists_droppedEntries entries
      obtain ⟨here, mapLength, noneHere⟩ := exists_overwritten_length (tidiedEntries entries)
      refine ⟨inside + here, ?_, ?_⟩
      · simp only [tidied, write, List.length_cons, List.length_append, lengthBytes,
          Bytes.length_ofNat]
        omega
      · rw [parts, List.forall_mem_cons, names, ← noneInside, ← names_tidiedEntries, ← noneHere]
        omega
  | .list items => by
      obtain ⟨dropped, length, noneInside⟩ := exists_droppedItems items
      refine ⟨dropped, ?_, ?_⟩
      · simp only [tidied, write, List.length_cons, List.length_append, lengthBytes,
          Bytes.length_ofNat]
        omega
      · simp only [parts, List.forall_mem_cons, names, List.nodup_nil, true_and, noneInside]
  | .string _ => ⟨0, by simp [tidied], by simp [parts, names]⟩
  | .number _ => ⟨0, by simp [tidied], by simp [parts, names]⟩
  | .binary _ => ⟨0, by simp [tidied], by simp [parts, names]⟩
  | .stringSet _ => ⟨0, by simp [tidied], by simp [parts, names]⟩
  | .numberSet _ => ⟨0, by simp [tidied], by simp [parts, names]⟩
  | .binarySet _ => ⟨0, by simp [tidied], by simp [parts, names]⟩
  | .null => ⟨0, by simp [tidied], by simp [parts, names]⟩
  | .bool _ => ⟨0, by simp [tidied, write], by simp [parts, names]⟩

theorem exists_droppedItems : (items : List Encoded) →
    ∃ dropped, (writeItems items).length = (writeItems (tidiedItems items)).length + dropped ∧
      (dropped = 0 ↔ ∀ part ∈ itemParts items, part.names.Nodup)
  | [] => ⟨0, by simp [tidiedItems], by simp [itemParts]⟩
  | item :: rest => by
      obtain ⟨first, firstLength, noneFirst⟩ := exists_dropped item
      obtain ⟨others, othersLength, noneOthers⟩ := exists_droppedItems rest
      refine ⟨first + others, ?_, ?_⟩
      · simp only [tidiedItems, writeItems, List.length_append]
        omega
      · rw [itemParts, List.forall_mem_append, ← noneFirst, ← noneOthers]
        omega

theorem exists_droppedEntries : (entries : List (String × Encoded)) →
    ∃ dropped,
      (writeEntries entries).length = (writeEntries (tidiedEntries entries)).length + dropped ∧
      (dropped = 0 ↔ ∀ part ∈ entryParts entries, part.names.Nodup)
  | [] => ⟨0, by simp [tidiedEntries], by simp [entryParts]⟩
  | (name, tree) :: rest => by
      obtain ⟨first, firstLength, noneFirst⟩ := exists_dropped tree
      obtain ⟨others, othersLength, noneOthers⟩ := exists_droppedEntries rest
      refine ⟨first + others, ?_, ?_⟩
      · simp only [tidiedEntries, writeEntries, List.length_append]
        omega
      · rw [entryParts, List.forall_mem_append, ← noneFirst, ← noneOthers]
        omega

end

/-! ## Tidy trees -/

mutual

/-- Tidying leaves a tree as it is exactly if every part of it is tidy. -/
theorem tidied_eq_self_iff :
    (tree : Encoded) → (tree.tidied = tree ↔ ∀ part ∈ tree.parts, part.Tidy)
  | .map entries => by
      have ordered : (Encoded.map entries).Tidy ↔ (entries.map (·.1)).Pairwise (· < ·) := by
        rw [Tidy, List.pairwise_map, List.pairwise_map]
        simp only [Bytes.ofString_lt_iff]
      rw [tidied, Encoded.map.injEq, NameMap.toList_ofList_eq_iff (names_tidiedEntries entries),
        parts, List.forall_mem_cons, ordered, tidiedEntries_eq_self_iff entries]
  | .list items => by
      rw [tidied, Encoded.list.injEq, parts, List.forall_mem_cons, tidiedItems_eq_self_iff items]
      simp only [Tidy, true_and]
  | .bool payload => by
      simp only [tidied, Encoded.bool.injEq, parts, List.forall_mem_singleton, Tidy, bne_iff_ne]
      split
      · next nonzero => simp [nonzero, eq_comm]
      · next zero => simp [not_not.1 zero]
  | .string _ => by simp [tidied, parts, Tidy]
  | .number _ => by simp [tidied, parts, Tidy]
  | .binary _ => by simp [tidied, parts, Tidy]
  | .stringSet _ => by simp [tidied, parts, Tidy]
  | .numberSet _ => by simp [tidied, parts, Tidy]
  | .binarySet _ => by simp [tidied, parts, Tidy]
  | .null => by simp [tidied, parts, Tidy]

theorem tidiedItems_eq_self_iff : (items : List Encoded) →
    (tidiedItems items = items ↔ ∀ part ∈ itemParts items, part.Tidy)
  | [] => by simp [tidiedItems, itemParts]
  | item :: rest => by
      rw [tidiedItems, List.cons.injEq, tidied_eq_self_iff item, tidiedItems_eq_self_iff rest,
        itemParts, List.forall_mem_append]

theorem tidiedEntries_eq_self_iff : (entries : List (String × Encoded)) →
    (tidiedEntries entries = entries ↔ ∀ part ∈ entryParts entries, part.Tidy)
  | [] => by simp [tidiedEntries, entryParts]
  | (name, tree) :: rest => by
      rw [tidiedEntries, List.cons.injEq, Prod.mk.injEq, tidied_eq_self_iff tree,
        tidiedEntries_eq_self_iff rest, entryParts, List.forall_mem_append]
      simp

end

/-- Trees that fit are told apart by their bytes. -/
theorem write_injective {left right : Encoded} (fitsLeft : left.fits = true)
    (fitsRight : right.fits = true) (same : left.write = right.write) : left = right := by
  have read := ofBytes_write fitsLeft
  rw [same, ofBytes_write fitsRight] at read
  exact (Except.ok.inj read).symm

end Encoded

/-! ## Bytes that are read and written again -/

namespace AttributeValue

/-- What is read can be written. The bytes read are those of one tree, and the bytes written are
not more: they are as many exactly if no map of the tree, at any depth, repeats a name, and they
are the same exactly if the names of every map ascend in the order of their bytes and the payload
of every truth value is zero or one. -/
theorem serialize_of_deserialize {bytes : Bytes} {value : AttributeValue}
    (read : deserialize bytes = .ok value) :
    ∃ tree written, Encoded.ofBytes bytes = .ok tree ∧ tree.write = bytes ∧ tree.value = value ∧
      value.serialize = .ok written ∧ written.length ≤ bytes.length ∧
      (written.length = bytes.length ↔ ∀ part ∈ tree.parts, part.names.Nodup) ∧
      (written = bytes ↔ ∀ part ∈ tree.parts, part.Tidy) := by
  obtain ⟨tree, readsTree, rfl⟩ := Except.map_eq_ok_iff.1 read
  obtain ⟨fits, rfl⟩ := Encoded.ofBytes_eq_ok_iff.1 readsTree
  have fitsTidied := Encoded.fits_tidied fits
  obtain ⟨dropped, lengths, noneDropped⟩ := tree.exists_dropped
  refine ⟨tree, tree.tidied.write, readsTree, rfl, rfl, ?_, by omega, ?_, ?_⟩
  · exact serialize_eq_ok_iff.2 ⟨tree.tidied, tree.encoded_value, fitsTidied, rfl⟩
  · rw [← noneDropped]
    omega
  · rw [← tree.tidied_eq_self_iff]
    exact ⟨Encoded.write_injective fitsTidied fits, congrArg Encoded.write⟩

namespace Sample

-- Maps inside a list: one repeats a name, one has its names in another order and a payload
-- of seven, one is tidy.
def repeating : Encoded :=
  .list [.map [("b", .bool 7), ("a", .null), ("b", .bool 1)]]

def disordered : Encoded :=
  .list [.map [("b", .bool 7), ("a", .null)]]

def orderly : Encoded :=
  .list [.map [("a", .null), ("b", .bool 1)]]

end Sample

open Sample in
theorem serialize_of_deserialize_samples :
    (∃ written, deserialize repeating.write = .ok repeating.value ∧
      repeating.value.serialize = .ok written ∧
      written.length < repeating.write.length) ∧
    (∃ written, deserialize disordered.write = .ok disordered.value ∧
      disordered.value.serialize = .ok written ∧
      written.length = disordered.write.length ∧ written ≠ disordered.write) ∧
    deserialize orderly.write = .ok orderly.value ∧
      orderly.value.serialize = .ok orderly.write := by
  have reads : ∀ {tree : Encoded}, tree.fits = true →
      deserialize tree.write = .ok tree.value := by
    intro tree fits
    rw [deserialize, Encoded.ofBytes_write fits]
    rfl
  have repeatingFits : repeating.fits = true := by decide
  have disorderedFits : disordered.fits = true := by decide
  have orderlyFits : orderly.fits = true := by decide
  refine ⟨?_, ?_, reads orderlyFits, ?_⟩
  · obtain ⟨tree, written, found, -, -, writes, notLonger, same, -⟩ :=
      serialize_of_deserialize (reads repeatingFits)
    cases (Encoded.ofBytes_write repeatingFits).symm.trans found
    have repeats : ¬ ∀ part ∈ repeating.parts, part.names.Nodup := by decide
    rw [← same] at repeats
    exact ⟨written, reads repeatingFits, writes, by omega⟩
  · obtain ⟨tree, written, found, -, -, writes, -, same, own⟩ :=
      serialize_of_deserialize (reads disorderedFits)
    cases (Encoded.ofBytes_write disorderedFits).symm.trans found
    have untidy : ¬ (Encoded.bool 7).Tidy := by simp [Encoded.Tidy]
    refine ⟨written, reads disorderedFits, writes, same.2 (by decide),
      fun equal => untidy (own.1 equal _ ?_)⟩
    simp [disordered, Encoded.parts, Encoded.itemParts, Encoded.entryParts]
  · obtain ⟨tree, written, found, -, -, writes, -, -, own⟩ :=
      serialize_of_deserialize (reads orderlyFits)
    cases (Encoded.ofBytes_write orderlyFits).symm.trans found
    have ascends : Bytes.ofString "a" < Bytes.ofString "b" := Bytes.ofString_lt_iff.2 (by decide)
    have tidy : ∀ part ∈ orderly.parts, part.Tidy := by
      simp [orderly, Encoded.parts, Encoded.itemParts, Encoded.entryParts, Encoded.Tidy, ascends]
    rw [writes, own.2 tidy]

end AttributeValue

end ItemSeal
