import ItemSeal.Proofs.NameMapViews
import ItemSeal.SealConfig

/-!
Which attributes a table's configuration exempts. Exempting keys leaves all other names as
they were (`ActionPolicy.action_withIndexKeys`), and the keys of a known schema are those of
all its indexes (`TableSchema.mem_protectedKeys`). Of the attributes that a key schema lists,
an index keeps the last partition key and the last sort key, and none at all without a
partition key: `KeyElement.Kept`.
-/

namespace ItemSeal

/-! ## Policies -/

namespace ActionPolicy

theorem action_withIndexKeys (policy : ActionPolicy) (keys : List String) (name : String) :
    (policy.withIndexKeys keys).action name =
      if name ∈ keys then .doNothing else policy.action name := by
  induction keys generalizing policy with
  | nil => rfl
  | cons key rest ih =>
      rw [show policy.withIndexKeys (key :: rest) =
        (policy.withAction key .doNothing).withIndexKeys rest from rfl, ih]
      by_cases here : name = key
      · subst here
        simp
      · simp [here, action_withAction_of_ne]

/-- A policy that protects nothing leaves every name alone. -/
theorem action_of_protectsNothing {policy : ActionPolicy}
    (nothing : policy.protectsNothing = true) (name : String) :
    policy.action name = .doNothing := by
  simp only [protectsNothing, Bool.and_eq_true, beq_iff_eq, List.all_eq_true] at nothing
  unfold action
  cases found : policy.explicit.get? name with
  | none => exact nothing.1
  | some action =>
      have inValues : action ∈ policy.explicit.values :=
        List.mem_map_of_mem (f := (·.2)) (Ascending.mem_toList_iff.2 found)
      exact nothing.2 action inValues

end ActionPolicy

/-! ## Schemas -/

namespace TableSchema

/-- The keys of a schema are known exactly if its primary index is. -/
theorem protectedKeys_eq_ok {schema : TableSchema} (complete : schema.isComplete = true) :
    ∃ keys, schema.protectedKeys = .ok keys := by
  rw [protectedKeys, if_pos complete]
  exact ⟨_, rfl⟩

theorem mem_protectedKeys {schema : TableSchema} {keys : List String}
    (known : schema.protectedKeys = .ok keys) {name : String} :
    name ∈ keys ↔ ∃ index ∈ schema.indexes, name ∈ index.attributes := by
  unfold protectedKeys at known
  split at known
  · cases known
    rw [NameMap.mem_names_ofList]
    simp [List.mem_flatMap]
  · cases known

end TableSchema

namespace SealConfig

variable {σ : Type} {provider : MaterialsProvider σ} {policy : ActionPolicy}
  {schema : TableSchema}

/-- The configuration of a table exempts the keys of its schema and nothing else. -/
theorem forTable_eq_ok_iff {config : SealConfig σ} :
    forTable provider policy schema = .ok config ↔
      ∃ keys, schema.protectedKeys = .ok keys ∧
        config = ⟨provider, .ofSchema schema, policy.withIndexKeys keys⟩ := by
  rw [forTable, Except.bind_eq_ok_iff]
  constructor
  · rintro ⟨keys, known, built⟩
    exact ⟨keys, known, (Except.ok.inj built).symm⟩
  · rintro ⟨keys, known, rfl⟩
    exact ⟨keys, known, rfl⟩

/-- No key of the table is encrypted under its configuration. -/
theorem action_of_mem_keyNames {config : SealConfig σ}
    (built : forTable provider policy schema = .ok config) {key : String}
    (member : key ∈ config.context.keyNames) : config.policy.action key = .doNothing := by
  obtain ⟨keys, known, rfl⟩ := forTable_eq_ok_iff.1 built
  have inKeys : key ∈ keys := by
    rw [TableSchema.mem_protectedKeys known]
    cases primary : schema.primary with
    | none => simp [EncryptionContext.keyNames, EncryptionContext.ofSchema, primary] at member
    | some index =>
        refine ⟨index, by simp [TableSchema.indexes, primary], ?_⟩
        simpa [EncryptionContext.keyNames, EncryptionContext.ofSchema, primary,
          IndexKeys.attributes] using member
  rw [ActionPolicy.action_withIndexKeys, if_pos inKeys]

end SealConfig

/-! ## Descriptions -/

/-- The element is a partition key or a sort key. -/
def KeyElement.IsKey (element : KeyElement) : Prop :=
  element.role = .partition ∨ element.role = .sort

/-- The name is that of the last partition key or of the last sort key that a key schema lists,
and it does list a partition key. -/
def KeyElement.Kept (elements : List KeyElement) (name : String) : Prop :=
  (∃ element ∈ elements, element.role = .partition) ∧
    ∃ before element after, elements = before ++ element :: after ∧ element.name = name ∧
      element.IsKey ∧ ∀ later ∈ after, later.role ≠ element.role

namespace IndexKeys

theorem lastOf_eq_some_iff {role : KeyRole} {elements : List KeyElement} {name : String} :
    lastOf role elements = some name ↔
      ∃ before element after, elements = before ++ element :: after ∧ element.name = name ∧
        element.role = role ∧ ∀ later ∈ after, later.role ≠ role := by
  rw [lastOf, List.getLast?_filter, Option.map_eq_some_iff]
  constructor
  · rintro ⟨element, found, rfl⟩
    obtain ⟨inRole, after, before, split, none⟩ := List.find?_eq_some_iff_append.1 found
    refine ⟨before.reverse, element, after.reverse, ?_, rfl, by simpa using inRole, ?_⟩
    · rw [← List.reverse_reverse elements, split]
      simp
    · intro later member
      simpa using none later (List.mem_reverse.1 member)
  · rintro ⟨before, element, after, rfl, rfl, rfl, none⟩
    refine ⟨element, List.find?_eq_some_iff_append.2 ?_, rfl⟩
    refine ⟨by simp, after.reverse, before.reverse, ?_, ?_⟩
    · simp
    · intro later member
      simpa using none later (List.mem_reverse.1 member)

theorem lastOf_isSome_iff {role : KeyRole} {elements : List KeyElement} :
    (lastOf role elements).isSome = true ↔ ∃ element ∈ elements, element.role = role := by
  rw [lastOf, Option.isSome_map, List.getLast?_filter, List.find?_isSome]
  simp

/-- The keys of an index are the kept ones. -/
theorem mem_attributes_ofElements? {elements : List KeyElement} {name : String} :
    (∃ index, ofElements? elements = some index ∧ name ∈ index.attributes) ↔
      KeyElement.Kept elements name := by
  have kept : KeyElement.Kept elements name ↔ (lastOf .partition elements).isSome = true ∧
      (lastOf .partition elements = some name ∨ lastOf .sort elements = some name) := by
    rw [lastOf_isSome_iff, lastOf_eq_some_iff, lastOf_eq_some_iff, KeyElement.Kept]
    constructor
    · rintro ⟨partition, before, element, after, split, named, role | role, last⟩
      · exact ⟨partition, .inl ⟨before, element, after, split, named, role, role ▸ last⟩⟩
      · exact ⟨partition, .inr ⟨before, element, after, split, named, role, role ▸ last⟩⟩
    · rintro ⟨partition, ⟨before, element, after, split, named, role, last⟩ |
        ⟨before, element, after, split, named, role, last⟩⟩
      · exact ⟨partition, before, element, after, split, named, .inl role, role.symm ▸ last⟩
      · exact ⟨partition, before, element, after, split, named, .inr role, role.symm ▸ last⟩
  rw [kept, ofElements?]
  cases lastOf .partition elements with
  | none => simp
  | some partition => simp [attributes, eq_comm]

end IndexKeys

namespace TableDescription

/-- The key schemas of the table, of its global and of its local indexes;
an absent one is empty. -/
def keySchemas (description : TableDescription) : List (List KeyElement) :=
  description.keySchema.getD [] ::
    (description.globalIndexes.getD [] ++ description.localIndexes.getD []).map (·.getD [])

/-- Some key schema lists an attribute of that name as a key. -/
def Lists (description : TableDescription) (name : String) : Prop :=
  ∃ elements ∈ description.keySchemas, ∃ element ∈ elements, element.name = name ∧ element.IsKey

/-- Some key schema keeps that name. -/
def Keeps (description : TableDescription) (name : String) : Prop :=
  ∃ elements ∈ description.keySchemas, KeyElement.Kept elements name

/-- The key schema lists at most one partition key and at most one sort key,
and no sort key alone. -/
def Regular (elements : List KeyElement) : Prop :=
  elements.Pairwise (fun before after => before.IsKey → after.role ≠ before.role) ∧
    ∀ element ∈ elements, element.IsKey → ∃ partition ∈ elements, partition.role = .partition

/-- A regular key schema keeps all keys that it lists. -/
theorem keeps_of_lists {description : TableDescription}
    (regular : ∀ elements ∈ description.keySchemas, Regular elements) {name : String}
    (lists : description.Lists name) : description.Keeps name := by
  obtain ⟨elements, inSchemas, element, member, named, isKey⟩ := lists
  obtain ⟨apart, led⟩ := regular elements inSchemas
  obtain ⟨before, after, rfl⟩ := List.append_of_mem member
  refine ⟨_, inSchemas, led element member isKey, before, element, after, rfl, named, isKey, ?_⟩
  intro later inAfter
  have behind := (List.pairwise_append.1 apart).2.1
  exact List.rel_of_pairwise_cons behind inAfter isKey

/-- The indexes of an accepted description are those of its key schemas
that list a partition key. -/
theorem indexes_ofDescription {name : String} {description : TableDescription}
    {schema : TableSchema} (accepted : TableSchema.ofDescription name description = .ok schema) :
    schema.isComplete = true ∧
      schema.indexes = description.keySchemas.filterMap IndexKeys.ofElements? := by
  unfold TableSchema.ofDescription at accepted
  split at accepted
  · cases accepted
  · next primary found =>
      cases accepted
      have secondary : ∀ indexes : Option (List (Option (List KeyElement))),
          TableSchema.indexKeys indexes =
            ((indexes.getD []).map (·.getD [])).filterMap IndexKeys.ofElements? := by
        intro indexes
        rw [TableSchema.indexKeys, List.filterMap_map]
        rfl
      refine ⟨rfl, ?_⟩
      simp only [TableSchema.indexes, keySchemas, secondary, List.filterMap_cons, found,
        List.map_append, List.filterMap_append, Option.toList_some, List.singleton_append]

theorem mem_indexes_attributes_iff {name : String} {description : TableDescription}
    {schema : TableSchema} (accepted : TableSchema.ofDescription name description = .ok schema)
    {key : String} :
    (∃ index ∈ schema.indexes, key ∈ index.attributes) ↔ description.Keeps key := by
  rw [(indexes_ofDescription accepted).2]
  simp only [List.mem_filterMap]
  constructor
  · rintro ⟨index, ⟨elements, inSchemas, found⟩, inIndex⟩
    exact ⟨elements, inSchemas, IndexKeys.mem_attributes_ofElements?.1 ⟨index, found, inIndex⟩⟩
  · rintro ⟨elements, inSchemas, kept⟩
    obtain ⟨index, found, inIndex⟩ := IndexKeys.mem_attributes_ofElements?.2 kept
    exact ⟨index, ⟨elements, inSchemas, found⟩, inIndex⟩

end TableDescription

end ItemSeal
