import ItemSeal.Coverage
import ItemSeal.Proofs.Codec.Canonical

/-!
The segments of the bytes under a signature. Behind the three names come entries, of the context
and then of the description, and behind them the signed attributes, with no counts and nothing
between them. An attribute differs from an entry in the byte after its name: there stands the byte
of an action, where an entry has the first byte of a length, and that is zero as long as no field
is enormous (`Segment.bytes_append_inj`). The bytes therefore determine the names and the row of
segments (`Coverage.bytes_eq_iff`), but not where the context ends and the description begins.
-/

namespace ItemSeal

/-- A segment of the bytes under a signature. -/
inductive Segment where
  /-- A name of the context or the description, and what stands under it. -/
  | entry (name content : Bytes)
  /-- The name, the action and the value of an attribute. -/
  | signed (name : Bytes) (action : Action) (content : Bytes)

namespace Segment

/-- The segment as it is signed. -/
def bytes : Segment → Bytes
  | .entry name content => Coverage.field name ++ Coverage.field content
  | .signed name action content => Coverage.field name ++ action.byte :: Coverage.field content

/-- The byte strings of a segment that are written after their lengths. -/
def fields : Segment → List Bytes
  | .entry name content => [name, content]
  | .signed name _ content => [name, content]

/-- The segment is no attribute. -/
def isEntry : Segment → Bool
  | .entry .. => true
  | .signed .. => false

/-- A signed attribute in the segment is not left alone. -/
def Acts : Segment → Prop
  | .entry .. => True
  | .signed _ action _ => action ≠ .doNothing

/-- No field of the segment is so long that its length takes all eight bytes, and
an attribute is signed. -/
def Plain (segment : Segment) : Prop :=
  segment.Acts ∧ ∀ field ∈ segment.fields, field.length < 2 ^ 56

end Segment

/-! ## Fields -/

namespace Coverage

theorem field_append_inj {left right leftRest rightRest : Bytes} (fitsLeft : left.length < 2 ^ 64)
    (fitsRight : right.length < 2 ^ 64)
    (same : field left ++ leftRest = field right ++ rightRest) :
    left = right ∧ leftRest = rightRest := by
  simp only [field, List.append_assoc] at same
  obtain ⟨lengths, contents⟩ := List.append_inj same (by simp)
  exact List.append_inj contents (Bytes.ofNat_injective fitsLeft fitsRight lengths)

/-- A field that is not enormous starts with a zero. -/
theorem field_eq_zero_cons {bytes : Bytes} (fits : bytes.length < 2 ^ 56) :
    field bytes = 0 :: (Bytes.ofNat 7 bytes.length ++ bytes) := by
  rw [field, Bytes.ofNat_succ_of_lt fits, List.cons_append]

theorem textField_append_inj {left right : String} {leftRest rightRest : Bytes}
    (fitsLeft : (Bytes.ofString left).length < 2 ^ 64)
    (fitsRight : (Bytes.ofString right).length < 2 ^ 64)
    (same : textField left ++ leftRest = textField right ++ rightRest) :
    left = right ∧ leftRest = rightRest := by
  obtain ⟨names, rests⟩ := field_append_inj fitsLeft fitsRight same
  exact ⟨Bytes.ofString_injective names, rests⟩

end Coverage

/-! ## Segments in a row -/

theorem Action.byte_ne_zero {action : Action} (acts : action ≠ .doNothing) : action.byte ≠ 0 :=
  fun zero => acts (Action.byte_injective zero)

namespace Segment

theorem bytes_ne_nil (segment : Segment) : segment.bytes ≠ [] := by
  intro empty
  have length := congrArg List.length empty
  cases segment <;> simp [bytes, Coverage.field] at length

/-- An entry is not taken for a signed attribute, whatever follows them. -/
theorem entry_append_ne {name content name' content' rest rest' : Bytes} {action : Action}
    (plain : (Segment.entry name content).Plain)
    (plain' : (Segment.signed name' action content').Plain) :
    (Segment.entry name content).bytes ++ rest ≠
      (Segment.signed name' action content').bytes ++ rest' := by
  intro same
  have nameFits := plain.2 name (by simp [fields])
  have contentFits := plain.2 content (by simp [fields])
  have nameFits' := plain'.2 name' (by simp [fields])
  simp only [bytes, List.append_assoc, List.cons_append] at same
  obtain ⟨-, behind⟩ := Coverage.field_append_inj (by omega) (by omega) same
  rw [Coverage.field_eq_zero_cons contentFits, List.cons_append, List.cons.injEq] at behind
  exact Action.byte_ne_zero plain'.1 behind.1.symm

/-- A plain segment is split off what it stands in front of. -/
theorem bytes_append_inj {left right : Segment} {leftRest rightRest : Bytes}
    (plainLeft : left.Plain) (plainRight : right.Plain)
    (same : left.bytes ++ leftRest = right.bytes ++ rightRest) :
    left = right ∧ leftRest = rightRest := by
  have fitsLeft : ∀ field ∈ left.fields, field.length < 2 ^ 64 :=
    fun field member => Nat.lt_trans (plainLeft.2 field member) (by decide)
  have fitsRight : ∀ field ∈ right.fields, field.length < 2 ^ 64 :=
    fun field member => Nat.lt_trans (plainRight.2 field member) (by decide)
  cases left with
  | entry name content =>
      cases right with
      | entry name' content' =>
          simp only [bytes, List.append_assoc] at same
          obtain ⟨rfl, behind⟩ := Coverage.field_append_inj (fitsLeft name (by simp [fields]))
            (fitsRight name' (by simp [fields])) same
          obtain ⟨rfl, rests⟩ := Coverage.field_append_inj (fitsLeft content (by simp [fields]))
            (fitsRight content' (by simp [fields])) behind
          exact ⟨rfl, rests⟩
      | signed name' action' content' =>
          exact absurd same (entry_append_ne plainLeft plainRight)
  | signed name action content =>
      cases right with
      | entry name' content' =>
          exact absurd same.symm (entry_append_ne plainRight plainLeft)
      | signed name' action' content' =>
          simp only [bytes, List.append_assoc, List.cons_append] at same
          obtain ⟨rfl, behind⟩ := Coverage.field_append_inj (fitsLeft name (by simp [fields]))
            (fitsRight name' (by simp [fields])) same
          obtain ⟨actions, more⟩ := List.cons.inj behind
          obtain rfl := Action.byte_injective actions
          obtain ⟨rfl, rests⟩ := Coverage.field_append_inj (fitsLeft content (by simp [fields]))
            (fitsRight content' (by simp [fields])) more
          exact ⟨rfl, rests⟩

/-- Rows of plain segments are told apart by their bytes. -/
theorem row_injective {left right : List Segment} (plainLeft : ∀ segment ∈ left, segment.Plain)
    (plainRight : ∀ segment ∈ right, segment.Plain)
    (same : left.flatMap bytes = right.flatMap bytes) :
    left = right := by
  induction left generalizing right with
  | nil =>
      cases right with
      | nil => rfl
      | cons segment rest =>
          rw [List.flatMap_nil, List.flatMap_cons] at same
          exact absurd (List.append_eq_nil_iff.1 same.symm).1 (bytes_ne_nil segment)
  | cons segment rest ih =>
      cases right with
      | nil =>
          rw [List.flatMap_nil, List.flatMap_cons] at same
          exact absurd (List.append_eq_nil_iff.1 same).1 (bytes_ne_nil segment)
      | cons segment' rest' =>
          obtain ⟨plainSegment, plainRest⟩ := List.forall_mem_cons.1 plainLeft
          obtain ⟨plainSegment', plainRest'⟩ := List.forall_mem_cons.1 plainRight
          rw [List.flatMap_cons, List.flatMap_cons] at same
          obtain ⟨rfl, rests⟩ := bytes_append_inj plainSegment plainSegment' same
          rw [ih plainRest plainRest' rests]

end Segment

/-! ## The segments of a coverage -/

/-- The canonical bytes of a value; none if it cannot be written. -/
def AttributeValue.canonicalBytes (value : AttributeValue) : Bytes :=
  value.serializeCanonical.toOption.getD []

theorem AttributeValue.canonicalBytes_of_ok {value : AttributeValue} {bytes : Bytes}
    (written : value.serializeCanonical = .ok bytes) : value.canonicalBytes = bytes := by
  rw [canonicalBytes, written]
  rfl

namespace Coverage

/-- The entries of the context. -/
def contextSegments (context : Item) : List Segment :=
  context.toList.map fun (name, value) => .entry (Bytes.ofString name) value.canonicalBytes

/-- The entries of the description. -/
def descriptionSegments (description : MaterialDescription) : List Segment :=
  description.toList.map fun (key, text) => .entry (Bytes.ofString key) (Bytes.ofString text)

/-- The signed attributes. -/
def attributeSegments (attributes : List SignedAttribute) : List Segment :=
  attributes.map fun signed =>
    .signed (Bytes.ofString signed.name) signed.action signed.value.canonicalBytes

/-- The entries in the order in which they are signed. -/
def entrySegments (coverage : Coverage) : List Segment :=
  contextSegments coverage.context ++ descriptionSegments coverage.description

/-- All segments in the order in which they are signed. -/
def segments (coverage : Coverage) : List Segment :=
  coverage.entrySegments ++ attributeSegments coverage.attributes

/-- All byte strings that are written after their lengths. -/
def fields (coverage : Coverage) : List Bytes :=
  coverage.names.map Bytes.ofString ++ coverage.segments.flatMap Segment.fields

/-- All values that are covered can be written. -/
def Writable (coverage : Coverage) : Prop :=
  (∀ entry ∈ coverage.context.toList, ∃ bytes, entry.2.serializeCanonical = .ok bytes) ∧
    ∀ signed ∈ coverage.attributes, ∃ bytes, signed.value.serializeCanonical = .ok bytes

theorem entryBytes_eq {name : String} {value : AttributeValue}
    (writable : ∃ bytes, value.serializeCanonical = .ok bytes) :
    entryBytes name value = .ok
      (Segment.entry (Bytes.ofString name) value.canonicalBytes).bytes := by
  obtain ⟨bytes, written⟩ := writable
  rw [entryBytes, valueField, written, AttributeValue.canonicalBytes_of_ok written]
  rfl

theorem attributeBytes_eq {signed : SignedAttribute}
    (writable : ∃ bytes, signed.value.serializeCanonical = .ok bytes) :
    attributeBytes signed = .ok
      (Segment.signed (Bytes.ofString signed.name) signed.action
        signed.value.canonicalBytes).bytes := by
  obtain ⟨bytes, written⟩ := writable
  rw [attributeBytes, valueField, written, AttributeValue.canonicalBytes_of_ok written]
  rfl

/-- If all values can be written, what is signed is the names, then the segments. -/
theorem bytes_of_writable {coverage : Coverage} (writable : coverage.Writable) :
    coverage.bytes =
      .ok (coverage.names.flatMap textField ++ coverage.segments.flatMap Segment.bytes) := by
  have context : coverage.context.toList.mapM (fun (name, value) => entryBytes name value) =
      .ok ((contextSegments coverage.context).map Segment.bytes) := by
    rw [contextSegments, List.map_map]
    exact Except.mapM_eq_ok_map fun entry member => entryBytes_eq (writable.1 entry member)
  have attributes : coverage.attributes.mapM attributeBytes =
      .ok ((attributeSegments coverage.attributes).map Segment.bytes) := by
    rw [attributeSegments, List.map_map]
    exact Except.mapM_eq_ok_map fun signed member => attributeBytes_eq (writable.2 signed member)
  have described : (coverage.description.toList.flatMap fun (key, text) =>
      textField key ++ textField text) =
        (descriptionSegments coverage.description).flatMap Segment.bytes := by
    rw [descriptionSegments, List.flatMap_map]
    rfl
  simp only [bytes, context, attributes, described, segments, entrySegments, List.flatMap_append,
    List.append_assoc]
  rfl

theorem writable_of_bytes {coverage : Coverage} {bytes : Bytes}
    (covered : coverage.bytes = .ok bytes) :
    coverage.Writable := by
  obtain ⟨context, contextOk, more⟩ := Except.bind_eq_ok_iff.1 covered
  obtain ⟨attributes, attributesOk, -⟩ := Except.bind_eq_ok_iff.1 more
  constructor
  · intro entry member
    obtain ⟨written, entryOk⟩ := Except.exists_of_mapM_eq_ok contextOk entry member
    obtain ⟨value, valueOk, -⟩ := Except.map_eq_ok_iff.1 entryOk
    obtain ⟨bytes, bytesOk, -⟩ := Except.map_eq_ok_iff.1 valueOk
    exact ⟨bytes, bytesOk⟩
  · intro signed member
    obtain ⟨written, attributeOk⟩ := Except.exists_of_mapM_eq_ok attributesOk signed member
    obtain ⟨value, valueOk, -⟩ := Except.map_eq_ok_iff.1 attributeOk
    obtain ⟨bytes, bytesOk, -⟩ := Except.map_eq_ok_iff.1 valueOk
    exact ⟨bytes, bytesOk⟩

/-- What is signed is the names, then the segments. -/
theorem bytes_eq_ok {coverage : Coverage} {bytes : Bytes} (covered : coverage.bytes = .ok bytes) :
    coverage.Writable ∧
      bytes = coverage.names.flatMap textField ++ coverage.segments.flatMap Segment.bytes := by
  have writable := writable_of_bytes covered
  rw [bytes_of_writable writable] at covered
  exact ⟨writable, (Except.ok.inj covered).symm⟩

theorem length_field_le_of_mem_fields {segment : Segment} {field : Bytes}
    (member : field ∈ segment.fields) :
    field.length ≤ segment.bytes.length := by
  cases segment with
  | entry name content =>
      simp only [Segment.fields, List.mem_cons, List.not_mem_nil, or_false] at member
      rcases member with rfl | rfl <;> simp [Segment.bytes, Coverage.field] <;> omega
  | signed name action content =>
      simp only [Segment.fields, List.mem_cons, List.not_mem_nil, or_false] at member
      rcases member with rfl | rfl <;> simp [Segment.bytes, Coverage.field] <;> omega

/-- No field is longer than all that is signed. -/
theorem length_le_of_mem_fields {coverage : Coverage} {bytes field : Bytes}
    (covered : coverage.bytes = .ok bytes) (member : field ∈ coverage.fields) :
    field.length ≤ bytes.length := by
  obtain ⟨-, rfl⟩ := bytes_eq_ok covered
  rw [List.length_append]
  rcases List.mem_append.1 member with inNames | inSegments
  · obtain ⟨name, isName, rfl⟩ := List.mem_map.1 inNames
    have named : (textField name).length ≤ (coverage.names.flatMap textField).length :=
      Bytes.length_le_flatMap isName
    simp only [textField, field, List.length_append] at named ⊢
    omega
  · obtain ⟨segment, inRow, inSegment⟩ := List.mem_flatMap.1 inSegments
    have fits := length_field_le_of_mem_fields inSegment
    have inside : segment.bytes.length ≤ (coverage.segments.flatMap Segment.bytes).length :=
      Bytes.length_le_flatMap inRow
    omega

theorem isEntry_of_mem_entrySegments {coverage : Coverage} {segment : Segment}
    (member : segment ∈ coverage.entrySegments) : segment.isEntry = true := by
  rcases List.mem_append.1 member with inContext | inDescription
  · obtain ⟨entry, -, rfl⟩ := List.mem_map.1 inContext
    rfl
  · obtain ⟨entry, -, rfl⟩ := List.mem_map.1 inDescription
    rfl

theorem isEntry_of_mem_attributeSegments {attributes : List SignedAttribute} {segment : Segment}
    (member : segment ∈ attributeSegments attributes) : segment.isEntry = false := by
  obtain ⟨signed, -, rfl⟩ := List.mem_map.1 member
  rfl

/-- The entries and the attributes of a row of segments can be told apart. -/
theorem segments_eq_iff {left right : Coverage} :
    left.segments = right.segments ↔ left.entrySegments = right.entrySegments ∧
      attributeSegments left.attributes = attributeSegments right.attributes := by
  have split :
      ∀ coverage : Coverage, coverage.segments.filter Segment.isEntry =
      coverage.entrySegments := by
    intro coverage
    rw [segments, List.filter_append, List.filter_eq_self.2 fun _ => isEntry_of_mem_entrySegments,
      List.filter_eq_nil_iff.2 fun segment member => by
        simp [isEntry_of_mem_attributeSegments member],
      List.append_nil]
  constructor
  · intro same
    have entries : left.entrySegments = right.entrySegments := by
      rw [← split left, ← split right, same]
    refine ⟨entries, ?_⟩
    rw [segments, segments, entries] at same
    exact List.append_cancel_left same
  · rintro ⟨entries, attributes⟩
    rw [segments, segments, entries, attributes]

/-- No field is so long that its length takes all eight bytes, and every attribute is signed. -/
def Plain (coverage : Coverage) : Prop :=
  (∀ field ∈ coverage.fields, field.length < 2 ^ 56) ∧
    ∀ signed ∈ coverage.attributes, signed.action ≠ .doNothing

theorem Plain.segment {coverage : Coverage} (plain : coverage.Plain) {segment : Segment}
    (member : segment ∈ coverage.segments) : segment.Plain := by
  refine ⟨?_, fun field inSegment => plain.1 field ?_⟩
  · rcases List.mem_append.1 member with inEntries | inAttributes
    · have isEntry := isEntry_of_mem_entrySegments inEntries
      cases segment with
      | entry => trivial
      | signed => cases isEntry
    · obtain ⟨signed, inside, rfl⟩ := List.mem_map.1 inAttributes
      exact plain.2 signed inside
  · exact List.mem_append_right _ (List.mem_flatMap.2 ⟨segment, member, inSegment⟩)

theorem Plain.name {coverage : Coverage} (plain : coverage.Plain) {name : String}
    (member : name ∈ coverage.names) : (Bytes.ofString name).length < 2 ^ 64 :=
  Nat.lt_trans (plain.1 _ (List.mem_append_left _ (List.mem_map_of_mem member))) (by decide)

/-- As many names in a row are told apart by their bytes, whatever follows them. -/
theorem names_append_inj {left right : List String} {leftRest rightRest : Bytes}
    (fitsLeft : ∀ name ∈ left, (Bytes.ofString name).length < 2 ^ 64)
    (fitsRight : ∀ name ∈ right, (Bytes.ofString name).length < 2 ^ 64)
    (lengths : left.length = right.length)
    (same : left.flatMap textField ++ leftRest = right.flatMap textField ++ rightRest) :
    left = right ∧ leftRest = rightRest := by
  induction left generalizing right with
  | nil =>
      cases right with
      | nil => exact ⟨rfl, same⟩
      | cons => cases lengths
  | cons name rest ih =>
      cases right with
      | nil => cases lengths
      | cons name' rest' =>
          obtain ⟨fitsName, fitsRest⟩ := List.forall_mem_cons.1 fitsLeft
          obtain ⟨fitsName', fitsRest'⟩ := List.forall_mem_cons.1 fitsRight
          rw [List.flatMap_cons, List.flatMap_cons, List.append_assoc, List.append_assoc] at same
          obtain ⟨rfl, behind⟩ := textField_append_inj fitsName fitsName' same
          obtain ⟨rfl, rests⟩ := ih fitsRest fitsRest' (Nat.succ.inj lengths) behind
          exact ⟨rfl, rests⟩

/-- The bytes determine the names and the segments, and nothing else. -/
theorem bytes_eq_iff {left right : Coverage} {leftBytes rightBytes : Bytes}
    (coveredLeft : left.bytes = .ok leftBytes) (coveredRight : right.bytes = .ok rightBytes)
    (plainLeft : left.Plain) (plainRight : right.Plain)
    (lengths : left.names.length = right.names.length) :
    leftBytes = rightBytes ↔ left.names = right.names ∧ left.segments = right.segments := by
  obtain ⟨-, rfl⟩ := bytes_eq_ok coveredLeft
  obtain ⟨-, rfl⟩ := bytes_eq_ok coveredRight
  constructor
  · intro same
    obtain ⟨names, rows⟩ := names_append_inj (fun _ => plainLeft.name) (fun _ => plainRight.name)
      lengths same
    exact ⟨names, Segment.row_injective (fun _ => plainLeft.segment)
      (fun _ => plainRight.segment) rows⟩
  · rintro ⟨names, rows⟩
    rw [names, rows]

end Coverage

end ItemSeal
