import ItemSeal.AttributeValue.Codec
import ItemSeal.Proofs.Codec.Reading
import ItemSeal.Proofs.NameMapViews

/-!
A value is read back from its bytes as it was, but for the flags of nulls, which are not written:
`AttributeValue.settled` is the value as it comes back, and
`AttributeValue.deserialize_of_serialize` the law.
-/

namespace ItemSeal.AttributeValue

mutual

/-- The value with the flags of all nulls set, at any depth, and nothing else changed. -/
def settled : AttributeValue → AttributeValue
  | .string text => .string text
  | .number text => .number text
  | .binary bytes => .binary bytes
  | .stringSet members => .stringSet members
  | .numberSet members => .numberSet members
  | .binarySet members => .binarySet members
  | .map entries => .map (settledEntries entries)
  | .list items => .list (settledItems items)
  | .null _ => .null true
  | .bool flag => .bool flag
  | .unknown => .unknown

/-- The items with the flags of all nulls set. -/
def settledItems : List AttributeValue → List AttributeValue
  | [] => []
  | item :: rest => item.settled :: settledItems rest

/-- The entries with the flags of all nulls set. -/
def settledEntries : {bound : Option String} → Ascending AttributeValue bound →
    Ascending AttributeValue bound
  | _, .nil => .nil
  | _, .cons name above value rest => .cons name above value.settled (settledEntries rest)

end

/-! ## Trees of values -/

/-- The trees of items start with the first one's. -/
theorem encodedItems_cons_eq_ok {item : AttributeValue} {rest : List AttributeValue}
    {trees : List Encoded} (encodes : encodedItems (item :: rest) = .ok trees) :
    ∃ first others, item.encoded = .ok first ∧ encodedItems rest = .ok others ∧
      trees = first :: others := by
  obtain ⟨first, head, more⟩ := Except.bind_eq_ok_iff.1 encodes
  obtain ⟨others, tail, built⟩ := Except.bind_eq_ok_iff.1 more
  exact ⟨first, others, head, tail, (Except.ok.inj built).symm⟩

/-- The trees of entries start with the first one's. -/
theorem encodedEntries_cons_eq_ok {bound : Option String} {name : String}
    {above : Follows bound name} {value : AttributeValue}
    {rest : Ascending AttributeValue (some name)} {trees : List (String × Encoded)}
    (encodes : encodedEntries (Ascending.cons name above value rest) = .ok trees) :
    ∃ first others, value.encoded = .ok first ∧ encodedEntries rest = .ok others ∧
      trees = (name, first) :: others := by
  obtain ⟨first, head, more⟩ := Except.bind_eq_ok_iff.1 encodes
  obtain ⟨others, tail, built⟩ := Except.bind_eq_ok_iff.1 more
  exact ⟨first, others, head, tail, (Except.ok.inj built).symm⟩

mutual

/-- The tree of a value stands for the settled value. -/
theorem value_of_encoded : {value : AttributeValue} → {tree : Encoded} →
    value.encoded = .ok tree → tree.value = value.settled
  | .string _, _, encodes => by cases encodes; simp only [Encoded.value, settled]
  | .number _, _, encodes => by cases encodes; simp only [Encoded.value, settled]
  | .binary _, _, encodes => by cases encodes; simp only [Encoded.value, settled]
  | .stringSet _, _, encodes => by cases encodes; simp only [Encoded.value, settled]
  | .numberSet _, _, encodes => by cases encodes; simp only [Encoded.value, settled]
  | .binarySet _, _, encodes => by cases encodes; simp only [Encoded.value, settled]
  | .map entries, _, encodes => by
      obtain ⟨trees, inside, rfl⟩ := Except.map_eq_ok_iff.1 encodes
      rw [Encoded.value, settled, entryValues_of_encoded inside, NameMap.ofList_toList]
  | .list items, _, encodes => by
      obtain ⟨trees, inside, rfl⟩ := Except.map_eq_ok_iff.1 encodes
      rw [Encoded.value, settled, itemValues_of_encoded inside]
  | .null _, _, encodes => by cases encodes; simp only [Encoded.value, settled]
  | .bool flag, _, encodes => by cases encodes; cases flag <;> simp [Encoded.value, settled]
  | .unknown, _, encodes => by cases encodes

theorem itemValues_of_encoded : {items : List AttributeValue} → {trees : List Encoded} →
    encodedItems items = .ok trees → Encoded.itemValues trees = settledItems items
  | [], _, encodes => by cases encodes; rw [Encoded.itemValues, settledItems]
  | item :: rest, _, encodes => by
      obtain ⟨first, others, head, tail, rfl⟩ := encodedItems_cons_eq_ok encodes
      rw [Encoded.itemValues, settledItems, value_of_encoded head, itemValues_of_encoded tail]

theorem entryValues_of_encoded : {bound : Option String} →
    {entries : Ascending AttributeValue bound} → {trees : List (String × Encoded)} →
    encodedEntries entries = .ok trees →
      Encoded.entryValues trees = (settledEntries entries).toList
  | _, .nil, _, encodes => by
      cases encodes; rw [Encoded.entryValues, settledEntries, Ascending.toList]
  | _, .cons name above value rest, _, encodes => by
      obtain ⟨first, others, head, tail, rfl⟩ := encodedEntries_cons_eq_ok encodes
      rw [Encoded.entryValues, settledEntries, Ascending.toList, value_of_encoded head,
        entryValues_of_encoded tail]

end

/-! ## Trees that fit -/

theorem length_of_encodedItems {items : List AttributeValue} {trees : List Encoded}
    (encodes : encodedItems items = .ok trees) : trees.length = items.length := by
  induction items generalizing trees with
  | nil =>
      cases encodes
      rfl
  | cons item rest ih =>
      obtain ⟨first, others, -, tail, rfl⟩ := encodedItems_cons_eq_ok encodes
      rw [List.length_cons, List.length_cons, ih tail]

theorem length_of_encodedEntries {bound : Option String}
    {entries : Ascending AttributeValue bound} {trees : List (String × Encoded)}
    (encodes : encodedEntries entries = .ok trees) :
    trees.length = entries.size := by
  induction entries generalizing trees with
  | nil =>
      cases encodes
      rfl
  | cons name above value rest ih =>
      obtain ⟨first, others, -, tail, rfl⟩ := encodedEntries_cons_eq_ok encodes
      have same : others.length = rest.size := ih tail
      rw [List.length_cons, same]
      rfl

theorem lengthFault?_eq_none_iff {length : Nat} :
    lengthFault? length = none ↔ length < Encoded.lengthBound := by
  rw [lengthFault?, ite_eq_left_iff]
  simp

theorem textFault?_eq_none_iff {text : String} :
    textFault? text = none ↔ Encoded.textFits text = true := by
  rw [textFault?, lengthFault?_eq_none_iff, Encoded.textFits, decide_eq_true_iff]

mutual

/-- Nothing is wrong with a value exactly if it has a tree that fits. -/
theorem fault?_eq_none_iff : (value : AttributeValue) →
    (value.fault? = none ↔ ∃ tree, value.encoded = .ok tree ∧ tree.fits = true)
  | .string _ => by simp [fault?, encoded, textFault?_eq_none_iff, Encoded.fits]
  | .number _ => by simp [fault?, encoded, textFault?_eq_none_iff, Encoded.fits]
  | .binary _ => by
      simp [fault?, encoded, lengthFault?_eq_none_iff, Encoded.fits, Encoded.fieldFits]
  | .stringSet _ => by
      simp [fault?, encoded, lengthFault?_eq_none_iff, textFault?_eq_none_iff, Encoded.fits]
  | .numberSet _ => by
      simp [fault?, encoded, lengthFault?_eq_none_iff, textFault?_eq_none_iff, Encoded.fits]
  | .binarySet _ => by
      simp [fault?, encoded, lengthFault?_eq_none_iff, Encoded.fits, Encoded.fieldFits]
  | .map entries => by
      rw [fault?, Option.or_eq_none_iff, lengthFault?_eq_none_iff, entriesFault?_eq_none_iff]
      constructor
      · rintro ⟨few, trees, inside, fit⟩
        refine ⟨.map trees, Except.map_eq_ok_iff.2 ⟨trees, inside, rfl⟩, ?_⟩
        rw [Encoded.fits, length_of_encodedEntries inside, fit, decide_eq_true few]
        rfl
      · rintro ⟨tree, encodes, fits⟩
        obtain ⟨trees, inside, rfl⟩ := Except.map_eq_ok_iff.1 encodes
        rw [Encoded.fits, Bool.and_eq_true, decide_eq_true_iff,
          length_of_encodedEntries inside] at fits
        exact ⟨fits.1, trees, inside, fits.2⟩
  | .list items => by
      rw [fault?, Option.or_eq_none_iff, lengthFault?_eq_none_iff, itemsFault?_eq_none_iff]
      constructor
      · rintro ⟨few, trees, inside, fit⟩
        refine ⟨.list trees, Except.map_eq_ok_iff.2 ⟨trees, inside, rfl⟩, ?_⟩
        rw [Encoded.fits, length_of_encodedItems inside, fit, decide_eq_true few]
        rfl
      · rintro ⟨tree, encodes, fits⟩
        obtain ⟨trees, inside, rfl⟩ := Except.map_eq_ok_iff.1 encodes
        rw [Encoded.fits, Bool.and_eq_true, decide_eq_true_iff,
          length_of_encodedItems inside] at fits
        exact ⟨fits.1, trees, inside, fits.2⟩
  | .null _ => by simp [fault?, encoded, Encoded.fits]
  | .bool _ => by simp [fault?, encoded, Encoded.fits]
  | .unknown => by simp [fault?, encoded]

theorem itemsFault?_eq_none_iff : (items : List AttributeValue) →
    (itemsFault? items = none ↔
      ∃ trees, encodedItems items = .ok trees ∧ Encoded.itemsFit trees = true)
  | [] => by simp [itemsFault?, encodedItems, Encoded.itemsFit]
  | item :: rest => by
      rw [itemsFault?, Option.or_eq_none_iff, fault?_eq_none_iff, itemsFault?_eq_none_iff]
      constructor
      · rintro ⟨⟨first, head, fits⟩, others, tail, fit⟩
        refine ⟨first :: others, Except.bind_eq_ok_iff.2 ⟨first, head,
          Except.bind_eq_ok_iff.2 ⟨others, tail, rfl⟩⟩, ?_⟩
        rw [Encoded.itemsFit, fits, fit]
        rfl
      · rintro ⟨trees, encodes, fit⟩
        obtain ⟨first, others, head, tail, rfl⟩ := encodedItems_cons_eq_ok encodes
        rw [Encoded.itemsFit, Bool.and_eq_true] at fit
        exact ⟨⟨first, head, fit.1⟩, others, tail, fit.2⟩

theorem entriesFault?_eq_none_iff : {bound : Option String} →
    (entries : Ascending AttributeValue bound) →
    (entriesFault? entries = none ↔
      ∃ trees, encodedEntries entries = .ok trees ∧ Encoded.entriesFit trees = true)
  | _, .nil => by simp [entriesFault?, encodedEntries, Encoded.entriesFit]
  | _, .cons name above value rest => by
      rw [entriesFault?, Option.or_eq_none_iff, Option.or_eq_none_iff, textFault?_eq_none_iff,
        fault?_eq_none_iff, entriesFault?_eq_none_iff]
      constructor
      · rintro ⟨short, ⟨first, head, fits⟩, others, tail, fit⟩
        refine ⟨(name, first) :: others, Except.bind_eq_ok_iff.2 ⟨first, head,
          Except.bind_eq_ok_iff.2 ⟨others, tail, rfl⟩⟩, ?_⟩
        rw [Encoded.entriesFit, short, fits, fit]
        rfl
      · rintro ⟨trees, encodes, fit⟩
        obtain ⟨first, others, head, tail, rfl⟩ := encodedEntries_cons_eq_ok encodes
        rw [Encoded.entriesFit, Bool.and_eq_true, Bool.and_eq_true] at fit
        exact ⟨fit.1.1, ⟨first, head, fit.1.2⟩, others, tail, fit.2⟩

end

/-! ## Bytes of values -/

/-- The bytes of a value are those of its tree, if it has one and this fits. -/
theorem serialize_eq_ok_iff {value : AttributeValue} {bytes : Bytes} :
    value.serialize = .ok bytes ↔
      ∃ tree, value.encoded = .ok tree ∧ tree.fits = true ∧ bytes = tree.write := by
  constructor
  · intro written
    cases faulty : value.fault? with
    | some fault =>
        rw [serialize, faulty] at written
        cases written
    | none =>
        obtain ⟨tree, encodes, fits⟩ := (fault?_eq_none_iff value).1 faulty
        rw [serialize, faulty, encodes] at written
        exact ⟨tree, encodes, fits, (Except.ok.inj written).symm⟩
  · rintro ⟨tree, encodes, fits, rfl⟩
    rw [serialize, (fault?_eq_none_iff value).2 ⟨tree, encodes, fits⟩, encodes]
    rfl

/-- What is read back is the value with the flags of its nulls set. -/
theorem deserialize_of_serialize {value : AttributeValue} {bytes : Bytes}
    (written : value.serialize = .ok bytes) : deserialize bytes = .ok value.settled := by
  obtain ⟨tree, encodes, fits, rfl⟩ := serialize_eq_ok_iff.1 written
  rw [deserialize, Encoded.ofBytes_write fits, ← value_of_encoded encodes]
  rfl

end ItemSeal.AttributeValue
