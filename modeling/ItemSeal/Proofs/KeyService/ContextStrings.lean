import ItemSeal.EncryptionContext
import ItemSeal.Proofs.Base64Reading
import ItemSeal.Proofs.NameMapLists

/-!
The context as a key service takes it: texts by name. The names of the fixed entries are none of
the names that attributes are given, so no two entries of a context fall together
(`EncryptionContext.nodup_labels`) and each part of the context can be looked up
(`EncryptionContext.spelledOut_strings`). Two contexts whose keys are of the same types, texts,
numbers or bytes, are therefore told apart by everything but their descriptions
(`EncryptionContext.strings_eq_iff`).
-/

namespace ItemSeal

theorem Base64.encode_injective {left right : Bytes} (same : encode left = encode right) :
    left = right := by
  have read := decode_encode left
  rw [same, decode_encode] at read
  exact (Except.ok.inj read).symm

namespace AttributeValue

/-- The values are of one type, and that is one that keys have. -/
inductive SameKeyType : AttributeValue → AttributeValue → Prop where
  | string (left right : String) : SameKeyType (.string left) (.string right)
  | number (left right : String) : SameKeyType (.number left) (.number right)
  | binary (left right : Bytes) : SameKeyType (.binary left) (.binary right)

/-- Within its type a key is told by its text. -/
theorem SameKeyType.eq_of_valueText {left right : AttributeValue} (types : left.SameKeyType right)
    (same : EncryptionContext.valueText left = EncryptionContext.valueText right) :
    left = right := by
  cases types with
  | string left right => exact congrArg _ same
  | number left right => exact congrArg _ same
  | binary left right => exact congrArg _ (Base64.encode_injective same)

end AttributeValue

namespace EncryptionContext

/-! ## Labels -/

theorem attributeLabel_injective : Function.Injective attributeLabel := fun _ _ same =>
  (String.append_right_inj _).1 same

/-- An attribute's label is no text that starts in another way. -/
theorem attributeLabel_ne {label : String} (other : ¬ "aws-ddb-attr-".toList <+: label.toList)
    (name : String) :
    attributeLabel name ≠ label := by
  rintro rfl
  rw [attributeLabel, String.toList_append] at other
  exact other (List.prefix_append _ _)

/-- The labels that do not stand for attributes. -/
def fixedLabels : List String :=
  ["aws-ddb-table-name", "aws-ddb-partition-key", "aws-ddb-sort-key"]

theorem attributeLabel_ne_fixed {label : String} (fixed : label ∈ fixedLabels) (name : String) :
    attributeLabel name ≠ label := by
  have other : ∀ label ∈ fixedLabels, ¬ "aws-ddb-attr-".toList <+: label.toList := by decide
  exact attributeLabel_ne (other label fixed) name

theorem names_labelled (context : EncryptionContext) :
    context.labelled.map (·.1) =
      (context.table.toList.map fun _ => "aws-ddb-table-name") ++
        (context.partition.toList.map fun _ => "aws-ddb-partition-key") ++
        (context.sort.toList.map fun _ => "aws-ddb-sort-key") ++
        context.attributes.names.map attributeLabel := by
  simp [labelled, Ascending.names, Function.comp_def]

theorem toList_map_const_sublist (part : Option String) (label : String) :
    (part.toList.map fun _ => label).Sublist [label] := by
  cases part with
  | none => exact List.nil_sublist _
  | some text => exact .refl _

/-- No label stands for two parts of a context. -/
theorem nodup_labels (context : EncryptionContext) : (context.labelled.map (·.1)).Nodup := by
  have within : (context.labelled.map (·.1)).Sublist
      (fixedLabels ++ context.attributes.names.map attributeLabel) := by
    rw [names_labelled]
    exact ((((toList_map_const_sublist _ _).append (toList_map_const_sublist _ _)).append
      (toList_map_const_sublist _ _)).append (.refl _))
  refine List.Nodup.sublist within (List.nodup_append.2 ⟨by decide, ?_, ?_⟩)
  · exact (NameMap.nodup_names context.attributes).map attributeLabel_injective
  · intro label fixed other member same
    obtain ⟨name, -, rfl⟩ := List.mem_map.1 member
    exact attributeLabel_ne_fixed fixed name same.symm

/-! ## Entries -/

/-- The map has an entry for each part of the context that is there, and no others. -/
structure SpelledOut (context : EncryptionContext) (map : NameMap String) : Prop where
  table : map.get? "aws-ddb-table-name" = context.table
  partition : map.get? "aws-ddb-partition-key" = context.partition
  sort : map.get? "aws-ddb-sort-key" = context.sort
  attributes :
    ∀ name, map.get? (attributeLabel name) = (context.attributes.get? name).map valueText
  size :
    map.size = context.table.toList.length + context.partition.toList.length +
    context.sort.toList.length +
    context.attributes.size

variable {context : EncryptionContext} {label name text : String}

theorem get?_strings_eq_some_iff :
    context.strings.get? label = some text ↔ (label, text) ∈ context.labelled :=
  NameMap.get?_ofList_eq_some_iff context.nodup_labels

theorem mem_labelled_of_fixed (fixed : label ∈ fixedLabels) :
    (label, text) ∈ context.labelled ↔
      "aws-ddb-table-name" = label ∧ context.table = some text ∨
        "aws-ddb-partition-key" = label ∧ context.partition = some text ∨
        "aws-ddb-sort-key" = label ∧ context.sort = some text := by
  have apart := attributeLabel_ne_fixed fixed
  simp [labelled, apart, and_comm]

theorem mem_labelled_of_attribute :
    (attributeLabel name, text) ∈ context.labelled ↔
      ∃ value, context.attributes.get? name = some value ∧ valueText value = text := by
  have apart : ∀ label ∈ fixedLabels, label ≠ attributeLabel name :=
    fun label fixed => (attributeLabel_ne_fixed fixed name).symm
  simp only [fixedLabels, List.forall_mem_cons] at apart
  simp [labelled, apart, attributeLabel_injective.eq_iff, Ascending.mem_toList_iff]

theorem spelledOut_strings (context : EncryptionContext) :
    context.SpelledOut context.strings where
  table := by
    ext text
    rw [get?_strings_eq_some_iff, mem_labelled_of_fixed (by decide)]
    simp
  partition := by
    ext text
    rw [get?_strings_eq_some_iff, mem_labelled_of_fixed (by decide)]
    simp
  sort := by
    ext text
    rw [get?_strings_eq_some_iff, mem_labelled_of_fixed (by decide)]
    simp
  attributes name := by
    ext text
    rw [get?_strings_eq_some_iff, mem_labelled_of_attribute, Option.map_eq_some_iff]
  size := by
    rw [Ascending.size, strings, (NameMap.perm_toList_ofList context.nodup_labels).length_eq]
    simp only [labelled, Ascending.size, List.length_append, List.length_map]

/-! ## Contexts that are told apart -/

/-- Where two contexts bind a name their keys are of one type, then the same texts go to a key
service for both exactly if they are for one table with the same key names and the same keys,
whatever their descriptions are. The texts are one for each name that is there and one for
each key, of any context. -/
theorem strings_eq_iff {left right : EncryptionContext}
    (types : ∀ name leftKey rightKey, left.attributes.get? name = some leftKey →
      right.attributes.get? name = some rightKey → leftKey.SameKeyType rightKey) :
    (left.strings = right.strings ↔
      left.table = right.table ∧ left.partition = right.partition ∧ left.sort = right.sort ∧
        left.attributes = right.attributes) ∧
    ∀ context : EncryptionContext, context.SpelledOut context.strings := by
  refine ⟨⟨?_, ?_⟩, spelledOut_strings⟩
  · intro same
    have leftParts := spelledOut_strings left
    have rightParts := spelledOut_strings right
    rw [← same] at rightParts
    refine ⟨leftParts.table.symm.trans rightParts.table,
      leftParts.partition.symm.trans rightParts.partition,
      leftParts.sort.symm.trans rightParts.sort, Ascending.ext_get? fun name => ?_⟩
    have texts := (leftParts.attributes name).symm.trans (rightParts.attributes name)
    cases leftFound : left.attributes.get? name with
    | none =>
        rw [leftFound, Option.map_none, eq_comm, Option.map_eq_none_iff] at texts
        exact texts.symm
    | some leftKey =>
        rw [leftFound, Option.map_some, eq_comm, Option.map_eq_some_iff] at texts
        obtain ⟨rightKey, rightFound, text⟩ := texts
        rw [rightFound,
          (types name leftKey rightKey leftFound rightFound).eq_of_valueText text.symm]
  · rintro ⟨table, partition, sort, attributes⟩
    rw [strings, strings, labelled, labelled, table, partition, sort, attributes]

namespace Sample

-- Keys of two types, one under a name like a fixed label.
def keys (bytes : Bytes) : Item :=
  .cons "Id" trivial (.string "1") (.cons "table-name" (by decide) (.binary bytes) .nil)

def orders : EncryptionContext :=
  { table := some "Orders", partition := some "Id", attributes := keys [1, 2] }

def redescribed : EncryptionContext :=
  { orders with description := .singleton "provider" "raw" }

def sorted : EncryptionContext :=
  { orders with sort := some "" }

def rekeyed : EncryptionContext :=
  { orders with attributes := keys [1, 3] }

theorem sameKeyType_keys (left right : Bytes) (name : String) (leftKey rightKey : AttributeValue)
    (leftFound : (keys left).get? name = some leftKey)
    (rightFound : (keys right).get? name = some rightKey) :
    leftKey.SameKeyType rightKey := by
  have entries :
      ∀ bytes, (keys bytes).toList = [("Id", .string "1"), ("table-name", .binary bytes)] :=
    fun _ => rfl
  rw [← Ascending.mem_toList_iff, entries] at leftFound rightFound
  simp only [List.mem_cons, Prod.mk.injEq, List.not_mem_nil, or_false] at leftFound rightFound
  rcases leftFound with ⟨rfl, rfl⟩ | ⟨rfl, rfl⟩
  · rcases rightFound with ⟨-, rfl⟩ | ⟨other, -⟩
    · exact .string _ _
    · simp at other
  · rcases rightFound with ⟨other, -⟩ | ⟨-, rfl⟩
    · simp at other
    · exact .binary _ _

end Sample

open Sample in
/-- Another description makes no difference; a sort key with an empty name and other bytes do. -/
theorem strings_eq_iff_orders :
    orders.strings = redescribed.strings ∧ orders.strings ≠ sorted.strings ∧
      orders.strings ≠ rekeyed.strings := by
  have description : orders.strings = redescribed.strings ↔ _ :=
    (strings_eq_iff (sameKeyType_keys [1, 2] [1, 2])).1
  have sort : orders.strings = sorted.strings ↔ _ :=
    (strings_eq_iff (sameKeyType_keys [1, 2] [1, 2])).1
  have keys : orders.strings = rekeyed.strings ↔ _ :=
    (strings_eq_iff (sameKeyType_keys [1, 2] [1, 3])).1
  refine ⟨description.2 ⟨rfl, rfl, rfl, rfl⟩, fun same => ?_, fun same => ?_⟩
  · obtain ⟨-, -, sorts, -⟩ := sort.1 same
    cases sorts
  · obtain ⟨-, -, -, attributes⟩ := keys.1 same
    exact absurd attributes (by decide)

end EncryptionContext

end ItemSeal
