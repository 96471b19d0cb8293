import ItemSeal.MaterialsProvider
import ItemSeal.Proofs.Signing.CoveredItems

/-!
How entries move between the context and the description. The bytes under a signature hold both in
one row, so the last entry of the context can be read as the first of the description, if it
stands in order there and its value is the bytes of a text. With the description that a provider
of fixed keys writes that is the only way to read the row differently:
`Coverage.moved_of_entrySegments_eq`, and conversely `Coverage.bytes_moved`.
-/

namespace ItemSeal

/-! ## Values that read as texts -/

/-- A tag and a length below 128 as the characters of their bytes. -/
def headerText (tag : Tag) (length : Nat) : String :=
  String.ofList ([tag.byte.toNat, 0, 0, 0, length].map Char.ofNat)

theorem ofString_headerText : ∀ tag ∈ [Tag.string, Tag.number], ∀ length < 128,
    Bytes.ofString (headerText tag length) = tag.byte :: Bytes.ofNat 4 length := by
  decide +kernel

theorem exists_text_of_header (tag : Tag) {content : String}
    (known : tag ∈ [Tag.string, Tag.number]) (short : (Bytes.ofString content).length < 128) :
    ∃ text, Bytes.ofString text = tag.byte :: Encoded.textBytes content := by
  refine ⟨headerText tag (Bytes.ofString content).length ++ content, ?_⟩
  rw [Bytes.ofString_append, ofString_headerText tag known _ short]
  rfl

/-- The canonical bytes of a short text or number are those of a text. -/
theorem AttributeValue.exists_text_of_short {value : AttributeValue} {content : String}
    (shape : value = .string content ∨ value = .number content)
    (short : (Bytes.ofString content).length < 128) :
    ∃ text, value.serializeCanonical = .ok (Bytes.ofString text) := by
  have fits : Encoded.textFits content = true := by
    rw [Encoded.textFits, Encoded.lengthBound, decide_eq_true_eq]
    omega
  rcases shape with rfl | rfl
  · obtain ⟨text, same⟩ := exists_text_of_header .string (by simp) short
    exact ⟨text, serialize_eq_ok_iff.2 ⟨.string content, rfl, fits, same⟩⟩
  · obtain ⟨text, same⟩ := exists_text_of_header .number (by simp) short
    exact ⟨text, serialize_eq_ok_iff.2 ⟨.number content, rfl, fits, same⟩⟩

/-- The description of fixed keys with one more entry. -/
def MaterialDescription.rawWith (key text : String) : MaterialDescription :=
  NameMap.insert raw key text

namespace Coverage

open MaterialDescription

theorem descriptionSegments_raw :
    descriptionSegments .raw = [.entry (Bytes.ofString providerEntry)
      (Bytes.ofString rawProvider)] := rfl

theorem contextSegments_of_concat {context : Item} {front : List (String × AttributeValue)}
    {key : String} {value : AttributeValue} (ends : context.toList = front ++ [(key, value)]) :
    contextSegments context = front.map (fun (name, value) =>
      Segment.entry (Bytes.ofString name) value.canonicalBytes) ++
        [.entry (Bytes.ofString key) value.canonicalBytes] := by
  rw [contextSegments, ends, List.map_append]
  rfl

/-- A name that a context has no entry of before the last is no name of a shorter context. -/
theorem get?_eq_none_of_front {context other : Item} {front : List (String × AttributeValue)}
    {key : String} {value : AttributeValue} {rest : List Segment}
    (ends : context.toList = front ++ [(key, value)])
    (fronts : front.map (fun (name, value) =>
      Segment.entry (Bytes.ofString name) value.canonicalBytes) = contextSegments other ++ rest) :
    other.get? key = none := by
  rw [Option.eq_none_iff_forall_not_mem]
  intro value' found
  have inOther :
      Segment.entry (Bytes.ofString key) value'.canonicalBytes ∈ contextSegments other :=
    List.mem_map_of_mem (Ascending.mem_toList_iff.2 found)
  have inFront := List.mem_append_left rest inOther
  rw [← fronts] at inFront
  obtain ⟨entry, member, isEntry⟩ := List.mem_map.1 inFront
  simp only [Segment.entry.injEq, ofString_eq_iff] at isEntry
  have less := Ascending.lt_of_toList_eq_concat ends member
  rw [isEntry.1] at less
  exact String.lt_irrefl key less

/-- A row that ends with the description of fixed keys ends with the entry of the provider, and so
does the other description. -/
theorem eq_append_of_entrySegments_eq {context other : Item} {description : MaterialDescription}
    (accepted : description.get? providerEntry = some rawProvider)
    (same : contextSegments context ++ descriptionSegments .raw =
      contextSegments other ++ descriptionSegments description) :
    ∃ before, description.toList = before ++ [(providerEntry, rawProvider)] ∧
      contextSegments context = contextSegments other ++
        before.map fun (key, text) => .entry (Bytes.ofString key) (Bytes.ofString text) := by
  rcases Ascending.eq_nil_or_toList_eq_concat description with empty | ⟨before, key, text, ends⟩
  · have inDescription := Ascending.mem_toList_iff.2 accepted
    rw [empty] at inDescription
    cases inDescription
  · rw [descriptionSegments_raw, descriptionSegments, ends, List.map_append,
      ← List.append_assoc] at same
    obtain ⟨contexts, lasts⟩ := List.append_inj' same rfl
    simp only [List.map_cons, List.map_nil, List.cons.injEq, Segment.entry.injEq, ofString_eq_iff,
      and_true] at lasts
    obtain ⟨rfl, rfl⟩ := lasts
    exact ⟨before, ends, contexts⟩

/-- A row that ends with the description of fixed keys is read back as the same context and
description, or the last entry of the context has become the first of the description. -/
theorem moved_of_entrySegments_eq {context other : Item} {description : MaterialDescription}
    (accepted : description.get? providerEntry = some rawProvider)
    (same : contextSegments context ++ descriptionSegments .raw =
      contextSegments other ++ descriptionSegments description) :
    (description = .raw ∧ contextSegments context = contextSegments other) ∨
      ∃ front key value text, context.toList = front ++ [(key, value)] ∧ key < providerEntry ∧
        value.canonicalBytes = Bytes.ofString text ∧ other.get? key = none := by
  obtain ⟨before, ends, contexts⟩ := eq_append_of_entrySegments_eq accepted same
  rcases List.eq_nil_or_concat before with rfl | ⟨start, ⟨key, text⟩, split⟩
  · refine .inl ⟨Ascending.toList_injective ends, ?_⟩
    rw [contexts, List.map_nil, List.append_nil]
  rw [List.concat_eq_append] at split
  have moved : (key, text) ∈ before := by
    rw [split]
    exact List.mem_append_right start List.mem_cons_self
  rw [split, List.map_append, ← List.append_assoc] at contexts
  -- What stands before the entry of the provider is the last of the context.
  rcases Ascending.eq_nil_or_toList_eq_concat context with empty |
    ⟨front, key', value, contextEnds⟩
  · rw [contextSegments, empty] at contexts
    simp at contexts
  rw [contextSegments_of_concat contextEnds] at contexts
  obtain ⟨fronts, finals⟩ := List.append_inj' contexts rfl
  simp only [List.map_cons, List.map_nil, List.cons.injEq, Segment.entry.injEq, ofString_eq_iff,
    and_true] at finals
  obtain ⟨rfl, valueText⟩ := finals
  exact .inr ⟨front, key', value, text, contextEnds, Ascending.lt_of_toList_eq_concat ends moved,
    valueText, get?_eq_none_of_front contextEnds fronts⟩

theorem toList_rawWith {key : String} (text : String) (before : key < providerEntry) :
    (rawWith key text).toList = [(key, text), (providerEntry, rawProvider)] := by
  simp only [rawWith, NameMap.insert, raw, NameMap.singleton, Ascending.insertAbove, before,
    dif_pos]
  rfl

/-- The last entry of the context moves to the description, and the row stays the same. -/
theorem entrySegments_of_moved {context : Item} {key text : String} {value : AttributeValue}
    (found : context.get? key = some value) (greatest : ∀ name ∈ context.names, name ≤ key)
    (before : key < providerEntry) (reads : value.canonicalBytes = Bytes.ofString text) :
    contextSegments (context.erase key) ++ descriptionSegments (rawWith key text) =
      contextSegments context ++ descriptionSegments .raw := by
  rw [contextSegments, contextSegments, Ascending.toList_eq_erase_append found greatest,
    descriptionSegments, toList_rawWith text before, List.map_append, List.append_assoc]
  simp only [List.map_cons, List.map_nil, reads]
  rfl

/-- The coverage with an entry of its context moved to the description of fixed keys. -/
def moved (coverage : Coverage) (key text : String) : Coverage :=
  { coverage with context := coverage.context.erase key, description := rawWith key text }

theorem bytes_moved {coverage : Coverage} {key text : String} {value : AttributeValue}
    {bytes : Bytes} (described : coverage.description = .raw)
    (found : coverage.context.get? key = some value)
    (greatest : ∀ name ∈ coverage.context.names, name ≤ key) (before : key < providerEntry)
    (reads : value.serializeCanonical = .ok (Bytes.ofString text))
    (covered : coverage.bytes = .ok bytes) :
    (coverage.moved key text).bytes = .ok bytes := by
  obtain ⟨⟨contextWritable, attributesWritable⟩, rfl⟩ := bytes_eq_ok covered
  have writable : (coverage.moved key text).Writable := by
    refine ⟨fun entry member => contextWritable entry ?_, attributesWritable⟩
    rw [Ascending.toList_eq_erase_append found greatest]
    exact List.mem_append_left _ member
  have entries :=
    entrySegments_of_moved found greatest before (AttributeValue.canonicalBytes_of_ok reads)
  have rows : (coverage.moved key text).segments = coverage.segments := by
    rw [segments_eq_iff]
    refine ⟨entries.trans ?_, rfl⟩
    rw [entrySegments, described]
  rw [bytes_of_writable writable, rows]
  rfl

end Coverage

end ItemSeal
