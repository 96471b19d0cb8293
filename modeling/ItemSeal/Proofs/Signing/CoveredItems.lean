import ItemSeal.Proofs.Signing.Segments

/-!
What the bytes under a signature say about an item. The entries of the context stand for its
values up to what the canonical form leaves out, and the signed attributes for the
attributes that the policy protects: `Item.SignedAlike` compares two items under two
policies, and `Coverage.bytes_ofItem_eq_iff` says when two items, each with its policy and
context, have the same bytes.
-/

namespace ItemSeal

/-- The attributes are protected alike: one name, one action, alike values. -/
def SignedAttribute.Alike (left right : SignedAttribute) : Prop :=
  left.name = right.name ∧ left.action = right.action ∧ left.value.Alike right.value

namespace Item

/-- The attribute of that name under a signature; none if it is absent or left alone. -/
def signed? (policy : ActionPolicy) (item : Item) (name : String) : Option SignedAttribute :=
  if policy.action name = .doNothing then none
  else (item.get? name).map fun value => ⟨name, policy.action name, value⟩

/-- The same names are signed, under the same actions, with alike values. -/
def SignedAlike (leftPolicy : ActionPolicy) (left : Item) (rightPolicy : ActionPolicy)
    (right : Item) : Prop :=
  ∀ name, Option.Rel SignedAttribute.Alike (left.signed? leftPolicy name)
    (right.signed? rightPolicy name)

end Item

/-! ## Rows of values -/

/-- Two functions that tell the same elements apart tell the same lists apart. -/
theorem map_eq_map_iff_of_iff {α β γ : Type} {f : α → β} {g : α → γ} {left right : List α}
    (agree : ∀ a ∈ left, ∀ b ∈ right, f a = f b ↔ g a = g b) :
    left.map f = right.map f ↔ left.map g = right.map g := by
  induction left generalizing right with
  | nil => cases right <;> simp
  | cons a rest ih =>
      cases right with
      | nil => simp
      | cons b rest' =>
          have heads := agree a List.mem_cons_self b List.mem_cons_self
          have tails := ih fun c inRest d inRest' =>
            agree c (List.mem_cons_of_mem _ inRest) d (List.mem_cons_of_mem _ inRest')
          simp only [List.map_cons, List.cons.injEq, heads, tails]

namespace Coverage

theorem canonicalBytes_eq_iff {a b : AttributeValue}
    (writtenLeft : ∃ bytes, a.serializeCanonical = .ok bytes)
    (writtenRight : ∃ bytes, b.serializeCanonical = .ok bytes) :
    a.canonicalBytes = b.canonicalBytes ↔ a.canonical = b.canonical := by
  obtain ⟨left, leftOk⟩ := writtenLeft
  obtain ⟨right, rightOk⟩ := writtenRight
  rw [AttributeValue.canonicalBytes_of_ok leftOk, AttributeValue.canonicalBytes_of_ok rightOk,
    AttributeValue.serializeCanonical_eq_iff leftOk rightOk, AttributeValue.alike_iff]

theorem ofString_eq_iff {left right : String} :
    Bytes.ofString left = Bytes.ofString right ↔ left = right :=
  ⟨Bytes.ofString_injective, congrArg _⟩

/-- The entries of two contexts are the same exactly if the contexts are alike. -/
theorem contextSegments_eq_iff {left right : Item}
    (writableLeft : ∀ entry ∈ left.toList, ∃ bytes, entry.2.serializeCanonical = .ok bytes)
    (writableRight : ∀ entry ∈ right.toList, ∃ bytes, entry.2.serializeCanonical = .ok bytes) :
    contextSegments left = contextSegments right ↔ Item.Alike left right := by
  have agree : ∀ a ∈ left.toList, ∀ b ∈ right.toList,
      Segment.entry (Bytes.ofString a.1) a.2.canonicalBytes = .entry
        (Bytes.ofString b.1) b.2.canonicalBytes ↔
        (a.1, a.2.canonical) = (b.1, b.2.canonical) := by
    intro a inLeft b inRight
    rw [Segment.entry.injEq, ofString_eq_iff,
      canonicalBytes_eq_iff (writableLeft a inLeft) (writableRight b inRight), Prod.mk.injEq]
  rw [Item.alike_iff, contextSegments, contextSegments, map_eq_map_iff_of_iff agree,
    ← Ascending.toList_mapEntries fun _ value => AttributeValue.canonical value,
    ← Ascending.toList_mapEntries fun _ value => AttributeValue.canonical value]
  exact ⟨Ascending.toList_injective, congrArg _⟩

theorem descriptionSegments_injective {left right : MaterialDescription}
    (same : descriptionSegments left = descriptionSegments right) : left = right := by
  apply Ascending.toList_injective
  have agree : ∀ a ∈ left.toList, ∀ b ∈ right.toList,
      Segment.entry (Bytes.ofString a.1) (Bytes.ofString a.2) =
        .entry (Bytes.ofString b.1) (Bytes.ofString b.2) ↔ id a = id b := by
    intro a _ b _
    rw [Segment.entry.injEq, ofString_eq_iff, ofString_eq_iff, id, id, Prod.ext_iff]
  simpa using (map_eq_map_iff_of_iff agree).1 same

/-- The signed attributes as a map of actions and canonical values. -/
def signedMap (policy : ActionPolicy) (item : Item) : NameMap (Action × AttributeValue) :=
  (item.keep fun name => policy.action name ≠ .doNothing).mapEntries fun name value =>
    (policy.action name, value.canonical)

theorem signedAttributes_eq (policy : ActionPolicy) (item : Item) :
    signedAttributes policy item =
      (item.keep fun name => policy.action name ≠ .doNothing).toList.map fun (name, value) =>
        ⟨name, policy.action name, value⟩ := by
  rw [signedAttributes, List.filter_map, Ascending.toList_keep]
  rfl

/-- Only what a policy does not leave alone is signed. -/
theorem signedAttributes_congr {policy : ActionPolicy} {left right : Item}
    (same : ∀ name, policy.action name ≠ .doNothing → left.get? name = right.get? name) :
    signedAttributes policy left = signedAttributes policy right := by
  have kept : left.keep (fun name => policy.action name ≠ .doNothing) =
      right.keep fun name => policy.action name ≠ .doNothing := by
    apply Ascending.ext_get?
    intro name
    rw [Ascending.get?_keep, Ascending.get?_keep]
    by_cases alone : policy.action name = .doNothing
    · simp [alone]
    · rw [same name alone]
  rw [signedAttributes_eq, signedAttributes_eq, kept]

/-- A signed attribute stands in the item under its name, and the policy asks for its action. -/
theorem of_mem_signedAttributes {policy : ActionPolicy} {item : Item} {signed : SignedAttribute}
    (member : signed ∈ signedAttributes policy item) :
    signed.action = policy.action signed.name ∧ signed.action ≠ .doNothing ∧
      item.get? signed.name = some signed.value := by
  obtain ⟨inItem, acts⟩ := List.mem_filter.1 member
  obtain ⟨entry, inList, rfl⟩ := List.mem_map.1 inItem
  exact ⟨rfl, by simpa using acts, Ascending.mem_toList_iff.1 inList⟩

/-- What is not left alone is signed. -/
theorem mem_signedAttributes {policy : ActionPolicy} {item : Item} {name : String}
    {value : AttributeValue} (found : item.get? name = some value)
    (acts : policy.action name ≠ .doNothing) :
    ⟨name, policy.action name, value⟩ ∈ signedAttributes policy item := by
  refine List.mem_filter.2 ⟨?_, decide_eq_true acts⟩
  exact List.mem_map.2 ⟨(name, value), Ascending.mem_toList_iff.2 found, rfl⟩

theorem get?_signedMap (policy : ActionPolicy) (item : Item) (name : String) :
    (signedMap policy item).get? name =
      (item.signed? policy name).map fun signed => (signed.action, signed.value.canonical) := by
  rw [signedMap, Ascending.get?_mapEntries, Ascending.get?_keep, Item.signed?]
  by_cases alone : policy.action name = .doNothing
  · simp [alone]
  · simp [alone, Option.map_map, Function.comp_def]

theorem signedMap_eq_iff {leftPolicy rightPolicy : ActionPolicy} {left right : Item} :
    signedMap leftPolicy left = signedMap rightPolicy right ↔
      Item.SignedAlike leftPolicy left rightPolicy right := by
  have named : ∀ {policy : ActionPolicy} {item : Item} {name : String} {signed : SignedAttribute},
      item.signed? policy name = some signed → signed.name = name := by
    intro policy item name signed found
    unfold Item.signed? at found
    split at found
    · cases found
    · obtain ⟨value, -, rfl⟩ := Option.map_eq_some_iff.1 found
      rfl
  have pointwise :
      ∀ name, (signedMap leftPolicy left).get? name = (signedMap rightPolicy right).get? name ↔
        Option.Rel SignedAttribute.Alike (left.signed? leftPolicy name)
          (right.signed? rightPolicy name) := by
    intro name
    rw [get?_signedMap, get?_signedMap]
    cases inLeft : left.signed? leftPolicy name with
    | none => cases right.signed? rightPolicy name <;> simp
    | some a =>
        cases inRight : right.signed? rightPolicy name with
        | none => simp
        | some b =>
            simp [SignedAttribute.Alike, named inLeft, named inRight, AttributeValue.alike_iff]
  constructor
  · intro same name
    exact (pointwise name).1 (by rw [same])
  · intro alike
    exact Ascending.ext_get? fun name => (pointwise name).2 (alike name)

theorem map_signedAttributes (policy : ActionPolicy) (item : Item) :
    ((signedAttributes policy item).map fun signed =>
      (signed.name, signed.action, signed.value.canonical)) =
      (signedMap policy item).toList := by
  rw [signedAttributes_eq, signedMap, Ascending.toList_mapEntries, List.map_map]
  rfl

/-- The signed attributes of two items are the same segments exactly if the
items are signed alike. -/
theorem attributeSegments_eq_iff {leftPolicy rightPolicy : ActionPolicy} {left right : Item}
    (writableLeft : ∀ signed ∈ signedAttributes leftPolicy left,
      ∃ bytes, signed.value.serializeCanonical = .ok bytes)
    (writableRight : ∀ signed ∈ signedAttributes rightPolicy right,
      ∃ bytes, signed.value.serializeCanonical = .ok bytes) :
    attributeSegments (signedAttributes leftPolicy left) =
        attributeSegments (signedAttributes rightPolicy right) ↔
      Item.SignedAlike leftPolicy left rightPolicy right := by
  have agree : ∀ a ∈ signedAttributes leftPolicy left, ∀ b ∈ signedAttributes rightPolicy right,
      Segment.signed (Bytes.ofString a.name) a.action a.value.canonicalBytes =
          .signed (Bytes.ofString b.name) b.action b.value.canonicalBytes ↔
        (a.name, a.action, a.value.canonical) = (b.name, b.action, b.value.canonical) := by
    intro a inLeft b inRight
    rw [Segment.signed.injEq, ofString_eq_iff,
      canonicalBytes_eq_iff (writableLeft a inLeft) (writableRight b inRight), Prod.mk.injEq,
      Prod.mk.injEq]
  rw [← signedMap_eq_iff, attributeSegments, attributeSegments, map_eq_map_iff_of_iff agree,
    map_signedAttributes, map_signedAttributes]
  exact ⟨Ascending.toList_injective, congrArg _⟩

/-- Items that are signed alike, under alike contexts of one table, have the same bytes or cannot
be written for the same reason. -/
theorem bytes_ofItem_congr {leftPolicy rightPolicy : ActionPolicy}
    {leftContext rightContext : EncryptionContext} {left right : Item}
    (names :
      (ofItem leftPolicy leftContext left).names = (ofItem rightPolicy rightContext right).names)
    (attributes : Item.Alike leftContext.attributes rightContext.attributes)
    (description : leftContext.description = rightContext.description)
    (signed : Item.SignedAlike leftPolicy left rightPolicy right) :
    (ofItem leftPolicy leftContext left).bytes =
      (ofItem rightPolicy rightContext right).bytes := by
  -- What is written of a value is its canonical form, so the bytes are
  -- those of canonical entries.
  have entries : ∀ context : Item,
      (context.toList.mapM fun (name, value) => entryBytes name value) =
        (context.mapEntries fun _ value => value.canonical).toList.mapM fun (name, value) =>
          (value.serialize.map field).map (textField name ++ ·) := by
    intro context
    rw [Ascending.toList_mapEntries, List.mapM_map]
    rfl
  have rows : ∀ (policy : ActionPolicy) (item : Item),
      (signedAttributes policy item).mapM attributeBytes =
        (signedMap policy item).toList.mapM fun (name, action, value) =>
          (value.serialize.map field).map fun bytes =>
            textField name ++ action.byte :: bytes := by
    intro policy item
    rw [← map_signedAttributes, List.mapM_map]
    rfl
  rw [bytes, bytes, names]
  simp only [ofItem, entries, rows, Item.alike_iff.1 attributes, signedMap_eq_iff.2 signed,
    description]

theorem plain_ofItem {policy : ActionPolicy} {context : EncryptionContext} {item : Item}
    (short : ∀ field ∈ (ofItem policy context item).fields, field.length < 2 ^ 56) :
    (ofItem policy context item).Plain :=
  ⟨short, fun _ member => (of_mem_signedAttributes member).2.1⟩

/-- Two items, each with its policy and context, have the same bytes exactly if the
names agree, the rows of entries do, and the items are signed alike. Where the context
ends the bytes do not say. -/
theorem bytes_eq_iff_entrySegments {leftPolicy rightPolicy : ActionPolicy}
    {leftContext rightContext : EncryptionContext} {left right : Item}
    {leftBytes rightBytes : Bytes}
    (coveredLeft : (ofItem leftPolicy leftContext left).bytes = .ok leftBytes)
    (coveredRight : (ofItem rightPolicy rightContext right).bytes = .ok rightBytes)
    (shortLeft : ∀ field ∈ (ofItem leftPolicy leftContext left).fields, field.length < 2 ^ 56)
    (shortRight : ∀ field ∈ (ofItem rightPolicy rightContext right).fields,
      field.length < 2 ^ 56) :
    leftBytes = rightBytes ↔
      (ofItem leftPolicy leftContext left).names = (ofItem rightPolicy rightContext right).names ∧
        (ofItem leftPolicy leftContext left).entrySegments =
          (ofItem rightPolicy rightContext right).entrySegments ∧
        Item.SignedAlike leftPolicy left rightPolicy right := by
  obtain ⟨⟨-, writableLeft⟩, -⟩ := bytes_eq_ok coveredLeft
  obtain ⟨⟨-, writableRight⟩, -⟩ := bytes_eq_ok coveredRight
  rw [bytes_eq_iff coveredLeft coveredRight (plain_ofItem shortLeft)
    (plain_ofItem shortRight) rfl, segments_eq_iff,
    ← attributeSegments_eq_iff writableLeft writableRight]
  rfl

/-- The bytes under a signature determine what it covers, if it is known how many
values the context has. -/
theorem bytes_ofItem_eq_iff {leftPolicy rightPolicy : ActionPolicy}
    {leftContext rightContext : EncryptionContext} {left right : Item}
    {leftBytes rightBytes : Bytes}
    (coveredLeft : (ofItem leftPolicy leftContext left).bytes = .ok leftBytes)
    (coveredRight : (ofItem rightPolicy rightContext right).bytes = .ok rightBytes)
    (sameSize : leftContext.attributes.size = rightContext.attributes.size)
    (shortLeft : ∀ field ∈ (ofItem leftPolicy leftContext left).fields, field.length < 2 ^ 56)
    (shortRight : ∀ field ∈ (ofItem rightPolicy rightContext right).fields,
      field.length < 2 ^ 56) :
    leftBytes = rightBytes ↔
      leftContext.table.getD "" = rightContext.table.getD "" ∧
        leftContext.partition.getD "" = rightContext.partition.getD "" ∧
        leftContext.sort.getD "" = rightContext.sort.getD "" ∧
        Item.Alike leftContext.attributes rightContext.attributes ∧
        leftContext.description = rightContext.description ∧
        Item.SignedAlike leftPolicy left rightPolicy right := by
  obtain ⟨⟨writableLeft, -⟩, -⟩ := bytes_eq_ok coveredLeft
  obtain ⟨⟨writableRight, -⟩, -⟩ := bytes_eq_ok coveredRight
  have lengths : (contextSegments leftContext.attributes).length =
      (contextSegments rightContext.attributes).length := by
    simpa [contextSegments, Ascending.size] using sameSize
  have contexts :
      contextSegments leftContext.attributes = contextSegments rightContext.attributes ↔
        Item.Alike leftContext.attributes rightContext.attributes :=
    contextSegments_eq_iff writableLeft writableRight
  have entries : (ofItem leftPolicy leftContext left).entrySegments =
        (ofItem rightPolicy rightContext right).entrySegments ↔
      Item.Alike leftContext.attributes rightContext.attributes ∧
        leftContext.description = rightContext.description := by
    rw [← contexts]
    constructor
    · intro same
      obtain ⟨sameContexts, sameDescriptions⟩ := List.append_inj same lengths
      exact ⟨sameContexts, descriptionSegments_injective sameDescriptions⟩
    · rintro ⟨sameContexts, sameDescriptions⟩
      simp only [entrySegments, ofItem, sameContexts, sameDescriptions]
  rw [bytes_eq_iff_entrySegments coveredLeft coveredRight shortLeft shortRight, entries]
  simp [ofItem, and_assoc]

namespace Unflagged

-- Two items that differ in the flag of a null, under two policies that sign the same.
def signsAll : ActionPolicy := { fallback := .signOnly }

def signsTwo : ActionPolicy :=
  { fallback := .doNothing
    explicit := NameMap.ofList [("color", .signOnly), ("sizes", .signOnly)] }

def bound : EncryptionContext :=
  { table := some "T"
    partition := some "id"
    attributes := NameMap.singleton "id" (.string "1") }

def left : Item := NameMap.ofList [("color", .string "red"), ("sizes", .list [.null false])]

def right : Item := NameMap.ofList [("color", .string "red"), ("sizes", .list [.null true])]

end Unflagged

open Unflagged in
theorem signedAlike_unflagged :
    ∃ bytes, (ofItem signsAll bound left).bytes = .ok bytes ∧
      (ofItem signsTwo bound right).bytes = .ok bytes ∧
      Item.SignedAlike signsAll left signsTwo right := by
  have covered : ∃ bytes, (ofItem signsAll bound left).bytes = .ok bytes := ⟨_, rfl⟩
  have same : (ofItem signsAll bound left).bytes = (ofItem signsTwo bound right).bytes := rfl
  have shortLeft : ∀ field ∈ (ofItem signsAll bound left).fields, field.length < 2 ^ 56 := by
    decide +kernel
  have shortRight : ∀ field ∈ (ofItem signsTwo bound right).fields, field.length < 2 ^ 56 := by
    decide +kernel
  obtain ⟨bytes, coveredLeft⟩ := covered
  have coveredRight := same.symm.trans coveredLeft
  have alike := (bytes_ofItem_eq_iff coveredLeft coveredRight rfl shortLeft shortRight).1 rfl
  exact ⟨bytes, coveredLeft, coveredRight, alike.2.2.2.2.2⟩

end Coverage

end ItemSeal
