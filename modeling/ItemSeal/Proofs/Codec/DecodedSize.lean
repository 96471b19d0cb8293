import ItemSeal.Proofs.Codec.Demands
import ItemSeal.Proofs.Codec.KnownValues
import ItemSeal.Proofs.Codec.OwnForms
import ItemSeal.Proofs.Codec.Scanning

/-!
What reading any bytes at all comes to (`AttributeValue.deserializeIn_decided`). It breaks off if
the memory refuses room that it asks for, and a map may ask for room for as many entries as four
bytes can count, in a byte string of five bytes. Wherever the room is granted it comes to a value
or to a fault, inside the bytes, and the value has no more parts than there were bytes, whatever
counts stood in these (`AttributeValue.extent_le_of_deserialize`): every value, set member and map
entry takes a byte at least where it is written.
-/

namespace ItemSeal.AttributeValue

/-! ## Counting -/

/-- The set members or map entries of the value itself. -/
def memberCount : AttributeValue → Nat
  | .stringSet members | .numberSet members => members.length
  | .binarySet members => members.length
  | .map entries => entries.size
  | _ => 0

/-- The number of some values together with their set members and map entries. -/
def extentOf : List AttributeValue → Nat
  | [] => 0
  | value :: rest => 1 + value.memberCount + extentOf rest

/-- The number of values, set members and map entries that a value is made of, at any depth. -/
def extent (value : AttributeValue) : Nat :=
  extentOf value.parts

theorem extentOf_append (front back : List AttributeValue) :
    extentOf (front ++ back) = extentOf front + extentOf back := by
  induction front with
  | nil => rw [List.nil_append, extentOf, Nat.zero_add]
  | cons value rest ih =>
      rw [List.cons_append, extentOf, extentOf, ih]
      omega

/-! ## Values and their bytes -/

theorem texts_le_bytes (members : List String) :
    members.length ≤ (members.flatMap Encoded.textBytes).length := by
  apply Bytes.length_le_length_flatMap
  intro text _
  rw [Encoded.length_textBytes]
  omega

theorem fields_le_bytes (members : List Bytes) :
    members.length ≤ (members.flatMap Encoded.fieldBytes).length := by
  apply Bytes.length_le_length_flatMap
  intro bytes _
  rw [Encoded.length_fieldBytes]
  omega

mutual

/-- A value is made of no more parts than it takes bytes. -/
theorem extent_le_of_encoded :
    {value : AttributeValue} → {tree : Encoded} → value.encoded = .ok tree →
    value.extent ≤ tree.write.length
  | .string _, _, encodes => by
      cases encodes; simp [extent, extentOf, parts, memberCount, Encoded.write]
  | .number _, _, encodes => by
      cases encodes; simp [extent, extentOf, parts, memberCount, Encoded.write]
  | .binary _, _, encodes => by
      cases encodes; simp [extent, extentOf, parts, memberCount, Encoded.write]
  | .stringSet members, _, encodes => by
      cases encodes
      have membersLe := texts_le_bytes members
      simp only [extent, extentOf, parts, memberCount, Encoded.write, List.length_cons,
        List.length_append]
      omega
  | .numberSet members, _, encodes => by
      cases encodes
      have membersLe := texts_le_bytes members
      simp only [extent, extentOf, parts, memberCount, Encoded.write, List.length_cons,
        List.length_append]
      omega
  | .binarySet members, _, encodes => by
      cases encodes
      have membersLe := fields_le_bytes members
      simp only [extent, extentOf, parts, memberCount, Encoded.write, List.length_cons,
        List.length_append]
      omega
  | .map entries, _, encodes => by
      obtain ⟨trees, inside, rfl⟩ := Except.map_eq_ok_iff.1 encodes
      have entriesLe := extent_le_of_encodedEntries inside
      simp only [extent, extentOf, parts, memberCount, Encoded.write, List.length_cons,
        List.length_append]
      omega
  | .list items, _, encodes => by
      obtain ⟨trees, inside, rfl⟩ := Except.map_eq_ok_iff.1 encodes
      have itemsLe := extent_le_of_encodedItems inside
      simp only [extent, extentOf, parts, memberCount, Encoded.write, List.length_cons,
        List.length_append]
      omega
  | .null _, _, encodes => by
      cases encodes; simp [extent, extentOf, parts, memberCount, Encoded.write]
  | .bool _, _, encodes => by
      cases encodes; simp [extent, extentOf, parts, memberCount, Encoded.write]
  | .unknown, _, encodes => by cases encodes

theorem extent_le_of_encodedItems : {items : List AttributeValue} → {trees : List Encoded} →
    encodedItems items = .ok trees →
      extentOf (itemParts items) ≤ (Encoded.writeItems trees).length
  | [], _, encodes => by cases encodes; simp [itemParts, extentOf]
  | item :: rest, _, encodes => by
      obtain ⟨first, others, head, tail, rfl⟩ := encodedItems_cons_eq_ok encodes
      have firstLe : extentOf item.parts ≤ first.write.length := extent_le_of_encoded head
      have othersLe := extent_le_of_encodedItems tail
      simp only [itemParts, extentOf_append, Encoded.writeItems, List.length_append]
      omega

/-- An entry counts beside its value, and takes the bytes of its name
beside those of the value. -/
theorem extent_le_of_encodedEntries :
    {bound : Option String} → {entries : Ascending AttributeValue bound} →
    {trees : List (String × Encoded)} → encodedEntries entries = .ok trees →
    entries.size + extentOf (entryParts entries) ≤ (Encoded.writeEntries trees).length
  | _, .nil, _, encodes => by
      cases encodes; simp [entryParts, extentOf, Ascending.size, Ascending.toList]
  | _, .cons name above value rest, _, encodes => by
      obtain ⟨first, others, head, tail, rfl⟩ := encodedEntries_cons_eq_ok encodes
      have firstLe : extentOf value.parts ≤ first.write.length := extent_le_of_encoded head
      have othersLe := extent_le_of_encodedEntries tail
      have size : (Ascending.cons name above value rest).size = rest.size + 1 := rfl
      simp only [entryParts, extentOf_append, Encoded.writeEntries, List.length_append, size,
        Encoded.length_textBytes]
      omega

end

/-- A value that is read is of known types throughout, and made of no more parts
than there were bytes. -/
theorem extent_le_of_deserialize {bytes : Bytes} {value : AttributeValue}
    (read : deserialize bytes = .ok value) :
    .unknown ∉ value.parts ∧ value.extent ≤ bytes.length := by
  obtain ⟨tree, readsTree, rfl⟩ := Except.map_eq_ok_iff.1 read
  obtain ⟨-, rfl⟩ := Encoded.ofBytes_eq_ok_iff.1 readsTree
  -- The value's own form may be shorter than the bytes: entries that are
  -- overwritten are not in it.
  obtain ⟨dropped, lengths, -⟩ := tree.exists_dropped
  have ownLe := extent_le_of_encoded tree.encoded_value
  exact ⟨(exists_encoded_iff _).1 ⟨_, tree.encoded_value⟩, by omega⟩

/-! ## Room -/

/-- Requests for room in a row come to the request for all of it. -/
theorem run_forM_upTo (counts : List Nat) (room : Nat) :
    (forM counts Allocator.upTo).run room =
      if counts.sum ≤ room then some ((), room - counts.sum) else none := by
  induction counts generalizing room with
  | nil => rfl
  | cons count rest ih =>
      rw [List.forM_cons, StateT.run_bind, List.sum_cons]
      change Option.bind (if _ then _ else _) _ = _
      by_cases first : count ≤ room
      · rw [if_pos first, Option.bind_some, ih, Nat.sub_sub]
        have same : rest.sum ≤ room - count ↔ count + rest.sum ≤ room := by omega
        simp only [same]
      · rw [if_neg first, if_neg (by omega)]
        rfl

section Memory

variable {σ : Type} (allocator : Allocator σ) (bytes : Bytes) (memory : σ)

/-- Reading in a memory is its requests for room and then the outcome that it has
where there is always room. -/
theorem run_deserializeIn :
    (deserializeIn allocator bytes).run memory =
      ((forM (Encoded.demands bytes) allocator).run memory).map fun got =>
        (deserialize bytes, got.2) := by
  rw [deserializeIn, Encoded.ofBytesWith_eq, bind_assoc, StateT.run_bind]
  cases (forM (Encoded.demands bytes) allocator).run memory <;> rfl

/-- A map that announces more entries than the memory has room for breaks the reading
off, whatever follows. -/
theorem run_deserializeIn_of_refused {count : Nat} (counted : count < Encoded.lengthBound)
    (more : Bytes) (refused : (allocator count).run memory = none) :
    (deserializeIn allocator (Tag.map.byte :: (Encoded.lengthBytes count ++ more))).run memory =
      none := by
  obtain ⟨later, asks⟩ := Encoded.demands_map counted more
  rw [run_deserializeIn, asks, List.forM_cons, StateT.run_bind, refused]
  rfl

/-- A scan to any depth above the number of the bytes breaks off where reading does, and else
comes to what this comes to, by slices that lie inside and are not more than the bytes. -/
theorem exists_runFrom_deserialize {depth : Nat} (deep : bytes.length < depth) :
    ∃ cursor,
      (Scan.deserialize allocator depth).runFrom bytes {} memory =
        ((forM (Encoded.demands bytes) allocator).run memory).map
          (fun got => ((deserialize bytes, cursor), got.2)) ∧
      cursor.Inside bytes ∧
      (∀ slice ∈ cursor.taken, slice.start ≤ slice.stop ∧ slice.stop ≤ bytes.length) ∧
      cursor.taken.length ≤ bytes.length := by
  have reads := run_deserializeIn allocator bytes memory
  rcases Scan.runFrom_deserialize deep memory with ⟨scans, breaks⟩ |
    ⟨outcome, cursor, left, scans, comes, advances⟩
  · refine ⟨{}, ?_, Cursor.inside_start bytes,
      fun slice member => absurd member List.not_mem_nil, Nat.zero_le _⟩
    rw [breaks] at reads
    rw [scans, Option.map_eq_none_iff.1 reads.symm]
    rfl
  · rw [comes] at reads
    obtain ⟨got, granted, same⟩ := Option.map_eq_some_iff.1 reads.symm
    obtain ⟨rfl, rfl⟩ := Prod.mk.inj same
    have within := advances.inside.within
    have paid := advances.paid
    refine ⟨cursor, ?_, advances.inside, fun slice member => ?_, ?_⟩
    · rw [scans, granted]
      rfl
    · have placed := advances.inside.tile.le member
      exact ⟨placed.1, Nat.le_trans placed.2 within⟩
    · simp only [List.length_nil] at paid
      omega

end Memory

/-! ## Reading any bytes -/

theorem kind_of_deserialize {bytes : Bytes} {error : Error}
    (fails : (deserialize bytes).mapError Error.undecodable = .error error) :
    error.kind = .decryption := by
  cases outcome : deserialize bytes with
  | ok value =>
      rw [outcome] at fails
      cases fails
  | error fault =>
      rw [outcome] at fails
      cases fails
      rfl

/-- What reading any bytes in any memory comes to. The bytes alone settle the outcome and the room
that is asked for on the way, and reading breaks off exactly where some of this room is refused.
In a memory with room for so many entries that is where the bytes ask for more; and whatever the
memory, bytes that begin as a map break it off as soon as the announced entries have no room.

Else it comes to an end. A scan does not break off either if its depth is above the number of the
bytes: it comes to the same value or fault, which is reported as a failed decryption, and its
cursor has gone over the bytes by slices that all lie inside, not more than there are bytes. A
value that it comes to is of known types throughout, its values, set members and map entries are
together not more than there are bytes, and for no more entries than that was room asked for: what
breaks off in a memory with as much room as bytes is no value. -/
theorem deserializeIn_decided {σ : Type} (allocator : Allocator σ) (bytes : Bytes) :
    (∀ memory, (deserializeIn allocator bytes).run memory =
      ((forM (Encoded.demands bytes) allocator).run memory).map fun got =>
        (deserialize bytes, got.2)) ∧
    (∀ room, (deserializeIn Allocator.upTo bytes).run room = none ↔
      room < (Encoded.demands bytes).sum) ∧
    (∀ count more memory, bytes = Tag.map.byte :: (Encoded.lengthBytes count ++ more) →
      count < Encoded.lengthBound → (allocator count).run memory = none →
      (deserializeIn allocator bytes).run memory = none) ∧
    (∀ depth memory, bytes.length < depth → ∃ cursor,
      (Scan.deserialize allocator depth).runFrom bytes {} memory =
        ((forM (Encoded.demands bytes) allocator).run memory).map
          (fun got => ((deserialize bytes, cursor), got.2)) ∧
        cursor.Inside bytes ∧
        (∀ slice ∈ cursor.taken, slice.start ≤ slice.stop ∧ slice.stop ≤ bytes.length) ∧
        cursor.taken.length ≤ bytes.length) ∧
    (∀ error, (deserialize bytes).mapError Error.undecodable = .error error →
      error.kind = .decryption) ∧
    ∀ value, deserialize bytes = .ok value →
      .unknown ∉ value.parts ∧ value.extent ≤ bytes.length ∧
        (Encoded.demands bytes).sum ≤ bytes.length := by
  refine ⟨run_deserializeIn allocator bytes, fun room => ?_, ?_,
    fun depth memory deep => exists_runFrom_deserialize allocator bytes memory deep,
    fun error fails => kind_of_deserialize fails, fun value read => ?_⟩
  · rw [run_deserializeIn, Option.map_eq_none_iff, run_forM_upTo, ite_eq_right_iff]
    simp
  · rintro count more memory rfl counted refused
    exact run_deserializeIn_of_refused allocator memory counted more refused
  · obtain ⟨known, few⟩ := extent_le_of_deserialize read
    obtain ⟨tree, reads, -⟩ := Except.map_eq_ok_iff.1 read
    exact ⟨known, few, Encoded.sum_demands_le reads⟩

namespace Sample

-- A map that is said to have as many entries as four bytes can say, and has none.
def announced : Bytes := [0x4D, 0xFF, 0xFF, 0xFF, 0xFF]

-- A list of a set with one member and a map with two entries of one name.
def crowded : Encoded :=
  .list [.stringSet ["a"], .map [("b", .null), ("b", .bool 1)]]

end Sample

-- A depth that is used up shows: a null in a list stands two deep.
example :
    (Scan.deserialize Allocator.upTo 1).runFrom (Encoded.list [.null]).write {} 0 = none := rfl

open Sample in
/-- Five bytes break the reading off in a memory with room for a thousand million entries, where
they are only cut short; an entry that is overwritten has its room but is not counted. -/
theorem deserializeIn_announced :
    (deserializeIn Allocator.upTo announced).run 1000000000 = none ∧
    deserialize announced = .error .truncated ∧
    (∃ cursor, (Scan.deserialize Allocator.upTo 34).runFrom crowded.write {} 2 =
        some ((.ok crowded.value, cursor), 0) ∧ cursor.taken.length ≤ 33) ∧
    crowded.value.extent ≤ crowded.write.length := by
  have whole : deserialize crowded.write = .ok crowded.value := rfl
  obtain ⟨-, -, breaks, -⟩ := deserializeIn_decided Allocator.upTo announced
  obtain ⟨-, -, -, scans, -, values⟩ := deserializeIn_decided Allocator.upTo crowded.write
  obtain ⟨cursor, runs, -, -, few⟩ := scans 34 2 (by decide)
  have asked : Encoded.demands crowded.write = [2] := rfl
  rw [whole, asked] at runs
  exact ⟨breaks 4294967295 [] 1000000000 rfl (by decide) rfl, rfl, ⟨cursor, runs, few⟩,
    (values _ whole).2.1⟩

end ItemSeal.AttributeValue
