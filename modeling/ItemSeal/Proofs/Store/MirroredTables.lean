import ItemSeal.Proofs.Sealing.FixedKeys
import ItemSeal.Store.Memory

/-!
Tables in memory with sealed items beside tables with the items themselves. `MemoryTable.Mirrors`
says that the items of two tables correspond place by place, `MemoryStore.Mirrors` that this is so
for every table of a layout. Keys are stored as they are, so both sides find the same places
(`MemoryTable.Mirrors.find?`), and writes of corresponding items keep the correspondence
(`MemoryTable.Mirrors.put`, `MemoryTable.Mirrors.delete`, `MemoryTable.Mirrors.writes`).
-/

namespace ItemSeal

/-! ## Corresponding lists -/

section Lists

variable {α β : Type} {R : α → β → Prop} {as : List α} {bs : List β}

theorem forall₂_find? {p : α → Bool} {q : β → Bool} (agree : ∀ a b, R a b → p a = q b)
    (related : List.Forall₂ R as bs) : Option.Rel R (as.find? p) (bs.find? q) := by
  induction related with
  | nil => exact .none
  | @cons a b as bs head _ ih =>
      rw [List.find?_cons, List.find?_cons, agree a b head]
      cases q b with
      | true => exact .some head
      | false => exact ih

theorem forall₂_eraseP {p : α → Bool} {q : β → Bool} (agree : ∀ a b, R a b → p a = q b)
    (related : List.Forall₂ R as bs) : List.Forall₂ R (as.eraseP p) (bs.eraseP q) := by
  induction related with
  | nil => exact .nil
  | @cons a b as bs head tail ih =>
      rw [List.eraseP_cons, List.eraseP_cons, agree a b head]
      cases q b with
      | true => exact tail
      | false => exact .cons head ih

end Lists

/-! ## The layout of a table -/

namespace MemoryTable

/-- The schema that the table's description gives. -/
def schema (name : String) (table : MemoryTable) : TableSchema where
  name
  primary := some table.keys
  secondary := table.globalIndexes

/-- The tables have the same indexes. -/
structure SameLayout (table other : MemoryTable) : Prop where
  keys : table.keys = other.keys
  globalIndexes : table.globalIndexes = other.globalIndexes

theorem SameLayout.schema_eq {table other : MemoryTable} (same : table.SameLayout other)
    (name : String) :
    table.schema name = other.schema name := by
  rw [schema, schema, same.keys, same.globalIndexes]

/-- The key attributes of the table's indexes. -/
def indexKeys (table : MemoryTable) : List String :=
  (table.keys :: table.globalIndexes).flatMap IndexKeys.attributes

/-- The policy as it is for the table: its index keys are left alone. -/
def policyFor (table : MemoryTable) (policy : ActionPolicy) : ActionPolicy :=
  policy.withIndexKeys table.indexKeys

/-- The configuration that the table's schema gives. -/
def sealConfig {σ : Type} (table : MemoryTable) (provider : MaterialsProvider σ)
    (policy : ActionPolicy) (name : String) : SealConfig σ where
  provider
  context := .ofSchema (table.schema name)
  policy := policy.withIndexKeys (NameMap.ofList (table.indexKeys.map (·, ()))).names

theorem ofElements?_elements (keys : IndexKeys) :
    IndexKeys.ofElements? (elements keys) = some keys := by
  rcases keys with ⟨partition, _ | sort⟩ <;> rfl

theorem ofDescription_description (name : String) (table : MemoryTable) :
    TableSchema.ofDescription name (table.description name) = .ok (table.schema name) := by
  have each : ∀ indexes : List IndexKeys,
      TableSchema.indexKeys (some (indexes.map (some <| elements ·))) = indexes := by
    intro indexes
    simp [TableSchema.indexKeys, List.filterMap_map, ofElements?_elements]
  have global :
      TableSchema.indexKeys (table.description name).globalIndexes = table.globalIndexes := by
    unfold description
    cases table.globalIndexes with
    | nil => rfl
    | cons first rest => exact each (first :: rest)
  have primary :
      IndexKeys.ofElements? ((table.description name).keySchema.getD []) = some table.keys :=
    ofElements?_elements table.keys
  rw [TableSchema.ofDescription, primary]
  dsimp only
  rw [global]
  simp [schema, description, TableSchema.indexKeys]

section Configuration

variable {σ : Type} {table : MemoryTable} {provider : MaterialsProvider σ} {policy : ActionPolicy}
  {name : String}

theorem forTable_schema : SealConfig.forTable provider policy (table.schema name) =
    .ok (table.sealConfig provider policy name) := rfl

theorem keysReadable_sealConfig : (table.sealConfig provider policy name).KeysReadable :=
  SealConfig.keysReadable_forTable forTable_schema

theorem action_sealConfig (attr : String) :
    (table.sealConfig provider policy name).policy.action attr =
      (table.policyFor policy).action attr := by
  have sameKeys : attr ∈ (NameMap.ofList (table.indexKeys.map (·, ()))).names ↔
      attr ∈ table.indexKeys := by
    rw [NameMap.mem_names_ofList]
    simp
  rw [sealConfig, policyFor, ActionPolicy.action_withIndexKeys, ActionPolicy.action_withIndexKeys]
  simp only [sameKeys]

end Configuration

end MemoryTable

/-- What is sent for one write of a batch: the same deletion, and what is
stored for the item to put. -/
structure WriteRequest.SealOf {σ : Type} (config : SealConfig σ) (sent request : WriteRequest) :
    Prop where
  put : Option.Rel (Item.SealOf config) sent.put request.put
  delete : sent.delete = request.delete

namespace MemoryTable

/-! ## One table twice -/

section Mirrors

variable {σ : Type}

/-- Both tables are laid out like the first, and what one stores for each item of the other
stands in the same place. -/
structure Mirrors (config : SealConfig σ) (table hidden plain : MemoryTable) : Prop where
  hidden_layout : hidden.SameLayout table
  plain_layout : plain.SameLayout table
  items : List.Forall₂ (Item.SealOf config) hidden.items plain.items

variable {table hidden plain : MemoryTable} {provider : MaterialsProvider σ}
  {policy : ActionPolicy} {name : String} {stored item : Item}

theorem Mirrors.withItems {config : SealConfig σ} (mirrors : Mirrors config table hidden plain)
    {stores items : List Item} (related : List.Forall₂ (Item.SealOf config) stores items) :
    Mirrors config table { hidden with items := stores } { plain with items } :=
  ⟨⟨mirrors.hidden_layout.keys, mirrors.hidden_layout.globalIndexes⟩,
    ⟨mirrors.plain_layout.keys, mirrors.plain_layout.globalIndexes⟩, related⟩

variable (mirrors : Mirrors (table.sealConfig provider policy name) table hidden plain)
include mirrors

theorem Mirrors.keyOf_eq (key : Item) : hidden.keyOf key = plain.keyOf key := by
  rw [keyOf, keyOf, mirrors.hidden_layout.keys, mirrors.plain_layout.keys]

/-- A sealed item has the key of the item. -/
theorem Mirrors.keyOf_stored
    (sealOf : Item.SealOf (table.sealConfig provider policy name) stored item) :
    hidden.keyOf stored = plain.keyOf item := by
  rw [keyOf, keyOf, mirrors.hidden_layout.keys, mirrors.plain_layout.keys]
  exact List.map_congr_left fun key isKey => sealOf.get?_eq keysReadable_sealConfig isKey

theorem Mirrors.hasKey_eq (key : Item)
    (sealOf : Item.SealOf (table.sealConfig provider policy name) stored item) :
    hidden.hasKey key stored = plain.hasKey key item := by
  rw [hasKey, hasKey, mirrors.keyOf_stored sealOf, mirrors.keyOf_eq key]

/-- Both sides find corresponding items under a key, or none. -/
theorem Mirrors.find? (key : Item) :
    Option.Rel (Item.SealOf (table.sealConfig provider policy name)) (hidden.find? key)
      (plain.find? key) :=
  forall₂_find? (fun _ _ sealOf => mirrors.hasKey_eq key sealOf) mirrors.items

theorem Mirrors.put (sealOf : Item.SealOf (table.sealConfig provider policy name) stored item) :
    Mirrors (table.sealConfig provider policy name) table
      (hidden.put stored) (plain.put item) := by
  have sameKey :
      ∀ other otherItem, Item.SealOf (table.sealConfig provider policy name) other otherItem →
        hidden.hasKey stored other = plain.hasKey item otherItem := by
    intro other otherItem otherSealOf
    rw [hasKey, hasKey, mirrors.keyOf_stored otherSealOf, mirrors.keyOf_stored sealOf]
  have into : ∀ {stores items},
      List.Forall₂ (Item.SealOf (table.sealConfig provider policy name)) stores items →
      List.Forall₂ (Item.SealOf (table.sealConfig provider policy name))
        (hidden.putInto stored stores) (plain.putInto item items) := by
    intro stores items related
    induction related with
    | nil => exact .cons sealOf .nil
    | @cons other otherItem _ _ head tail ih =>
        rw [putInto, putInto, sameKey other otherItem head]
        split
        · exact .cons sealOf tail
        · exact .cons head ih
  exact mirrors.withItems (into mirrors.items)

theorem Mirrors.delete (key : Item) :
    Mirrors (table.sealConfig provider policy name) table
      (hidden.delete key) (plain.delete key) :=
  mirrors.withItems
    (forall₂_eraseP (fun _ _ sealOf => mirrors.hasKey_eq key sealOf) mirrors.items)

theorem Mirrors.write {sent request : WriteRequest}
    (sealOf : sent.SealOf (table.sealConfig provider policy name) request) :
    Mirrors (table.sealConfig provider policy name) table
      (hidden.write sent) (plain.write request) := by
  rcases sent with ⟨sentPut, key⟩
  rcases request with ⟨put, requestKey⟩
  obtain ⟨puts, rfl⟩ := sealOf
  cases puts with
  | some itemSealOf => exact mirrors.put itemSealOf
  | none =>
      cases key with
      | some key => exact mirrors.delete key
      | none => exact mirrors

omit mirrors in
theorem Mirrors.writes {sent requests : List WriteRequest}
    (related :
      List.Forall₂ (WriteRequest.SealOf (table.sealConfig provider policy name)) sent requests)
    {hidden plain : MemoryTable}
    (mirrors : Mirrors (table.sealConfig provider policy name) table hidden plain) :
    Mirrors (table.sealConfig provider policy name) table (sent.foldl MemoryTable.write hidden)
      (requests.foldl MemoryTable.write plain) := by
  induction related generalizing hidden plain with
  | nil => exact mirrors
  | cons head _ ih => exact ih (mirrors.write head)

end Mirrors

end MemoryTable

/-! ## All tables twice -/

namespace MemoryStore

/-- Both stores have the tables of the layout and no others, and one's
tables mirror the other's. -/
structure Mirrors (provider : MaterialsProvider MemoryStore) (policy : ActionPolicy)
    (layout hidden plain : MemoryStore) : Prop where
  absent : ∀ name, layout.get? name = none → hidden.get? name = none ∧ plain.get? name = none
  present : ∀ name table, layout.get? name = some table →
    ∃ hiddenTable plainTable, hidden.get? name = some hiddenTable ∧
      plain.get? name = some plainTable ∧
      table.Mirrors (table.sealConfig provider policy name) hiddenTable plainTable

variable {provider : MaterialsProvider MemoryStore} {policy : ActionPolicy}
  {layout hidden plain tables : MemoryStore} {name : String} {table : MemoryTable}

theorem Mirrors.exists_hidden (mirrors : Mirrors provider policy layout hidden plain)
    (exist : ∃ table, layout.get? name = some table) :
    ∃ table, hidden.get? name = some table := by
  obtain ⟨table, found⟩ := exist
  obtain ⟨hiddenTable, -, inHidden, -⟩ := mirrors.present name table found
  exact ⟨hiddenTable, inHidden⟩

theorem Mirrors.exists_plain (mirrors : Mirrors provider policy layout hidden plain)
    (exist : ∃ table, layout.get? name = some table) : ∃ table, plain.get? name = some table := by
  obtain ⟨table, found⟩ := exist
  obtain ⟨-, plainTable, -, inPlain, -⟩ := mirrors.present name table found
  exact ⟨plainTable, inPlain⟩

/-- The tables without their items. -/
def emptied (layout : MemoryStore) : MemoryStore :=
  layout.mapEntries fun _ table => { table with items := [] }

theorem mirrors_emptied : Mirrors provider policy layout layout.emptied layout.emptied := by
  constructor
  · intro name absent
    rw [emptied, Ascending.get?_mapEntries, absent]
    exact ⟨rfl, rfl⟩
  · intro name table found
    have empty : layout.emptied.get? name = some { table with items := [] } := by
      rw [emptied, Ascending.get?_mapEntries, found, Option.map_some]
    exact ⟨_, _, empty, empty, ⟨rfl, rfl⟩, ⟨rfl, rfl⟩, .nil⟩

/-- Replacing a table on both sides by tables that mirror each other keeps the correspondence. -/
theorem Mirrors.insert (mirrors : Mirrors provider policy layout hidden plain)
    (found : layout.get? name = some table) {hiddenTable plainTable : MemoryTable}
    (replaced : table.Mirrors (table.sealConfig provider policy name) hiddenTable plainTable) :
    Mirrors provider policy layout (NameMap.insert hidden name hiddenTable)
      (NameMap.insert plain name plainTable) := by
  constructor
  · intro other absent
    have different : other ≠ name := by
      rintro rfl
      cases absent.symm.trans found
    rw [NameMap.get?_insert_of_ne _ _ different, NameMap.get?_insert_of_ne _ _ different]
    exact mirrors.absent other absent
  · intro other otherTable otherFound
    by_cases here : other = name
    · subst here
      cases found.symm.trans otherFound
      exact ⟨hiddenTable, plainTable, NameMap.get?_insert_self _ _ _,
        NameMap.get?_insert_self _ _ _, replaced⟩
    · rw [NameMap.get?_insert_of_ne _ _ here, NameMap.get?_insert_of_ne _ _ here]
      exact mirrors.present other otherTable otherFound

/-! ## Operations of the store -/

theorem runFrom_table (name : String) (tables : MemoryStore) :
    (MemoryStore.table name).runFrom tables =
      match tables.get? name with
      | some table => (.ok table, tables)
      | none => (.error (.tableNotFound name), tables) := by
  rw [MemoryStore.table, Act.runFrom_bind_of_ok (Act.runFrom_get tables)]
  cases tables.get? name <;> rfl

theorem runFrom_table_of_some (found : tables.get? name = some table) :
    (MemoryStore.table name).runFrom tables = (.ok table, tables) := by
  rw [runFrom_table, found]

theorem keeps_table (property : MemoryStore → Prop) (name : String) :
    (MemoryStore.table name).Keeps property := by
  intro tables holds
  rw [runFrom_table]
  cases tables.get? name <;> exact holds

theorem runFrom_change (found : tables.get? name = some table) (f : MemoryTable → MemoryTable) :
    (MemoryStore.change name f).runFrom tables =
      (.ok (), NameMap.insert tables name (f table)) := by
  rw [MemoryStore.change, Act.runFrom_bind_of_ok (runFrom_table_of_some found),
    Act.runFrom_modify]

/-- What a batch of reads finds. -/
def batchFound (tables : MemoryStore) (requests : NameMap KeysRequest) : NameMap (List Item) :=
  requests.mapEntries fun name request =>
    request.keys.filterMap fun key => (tables.get? name).bind (·.find? key)

theorem get?_batchFound (tables : MemoryStore) (requests : NameMap KeysRequest) (name : String) :
    (tables.batchFound requests).get? name = (requests.get? name).map fun request =>
      request.keys.filterMap fun key => (tables.get? name).bind (·.find? key) :=
  Ascending.get?_mapEntries _ requests name

/-- A batch of reads of tables that exist finds what these have. -/
theorem runFrom_batchGet {input : BatchGetInput}
    (exist : ∀ name ∈ (input.requests.getD ∅).names, ∃ table, tables.get? name = some table) :
    (MemoryStore.store.batchGet input).runFrom tables =
      (.ok { responses := some (tables.batchFound (input.requests.getD ∅)) }, tables) := by
  have each : ∀ name request, (input.requests.getD ∅).get? name = some request →
    ∀ world, world = tables →
      ∃ after, after = tables ∧ (batchFind name request).runFrom world =
        (.ok (request.keys.filterMap fun key => (tables.get? name).bind (·.find? key)),
          after) := by
    rintro name request requested world rfl
    obtain ⟨table, found⟩ := exist name (Ascending.mem_names_iff.2 ⟨request, requested⟩)
    refine ⟨world, rfl, ?_⟩
    rw [batchFind, Act.runFrom_bind_of_ok (runFrom_table_of_some found), Act.runFrom_pure, found]
    rfl
  obtain ⟨after, rfl, finds⟩ := Act.runFrom_mapEntriesM_eq each rfl
  exact Act.runFrom_bind_of_ok finds

/-- Both sides find corresponding items. -/
theorem Mirrors.batchFound (mirrors : Mirrors provider policy layout hidden plain)
    (found : layout.get? name = some table) (requests : NameMap KeysRequest) :
    Option.Rel (List.Forall₂ (Item.SealOf (table.sealConfig provider policy name)))
      ((hidden.batchFound requests).get? name) ((plain.batchFound requests).get? name) := by
  obtain ⟨hiddenTable, plainTable, inHidden, inPlain, tableMirrors⟩ :=
    mirrors.present name table found
  rw [get?_batchFound, get?_batchFound, inHidden, inPlain]
  cases requests.get? name with
  | none => exact .none
  | some request =>
      have sameKeys : List.Forall₂ Eq request.keys request.keys := List.forall₂_refl _
      refine .some (List.rel_filterMap ?_ sameKeys)
      rintro key _ rfl
      exact tableMirrors.find? key

/-- A batch of writes changes each of its tables, all of which there must be, and no other. -/
theorem get?_batchChanges {bound : Option String} {requests : Ascending (List WriteRequest) bound}
    (exist : ∀ name ∈ requests.names, ∃ table, tables.get? name = some table) :
    ∃ result after, (requests.mapEntriesM batchChange).runFrom tables = (.ok result, after) ∧
      ∀ name, after.get? name =
        match requests.get? name with
        | some writes => (tables.get? name).map fun table => writes.foldl MemoryTable.write table
        | none => tables.get? name := by
  induction requests generalizing tables with
  | nil => exact ⟨_, _, rfl, fun _ => rfl⟩
  | cons name above writes rest ih =>
      obtain ⟨table, found⟩ := exist name List.mem_cons_self
      have head := runFrom_change found fun table => writes.foldl MemoryTable.write table
      have absent : rest.get? name = none :=
        Ascending.get?_eq_none_of_le rest (Std.le_refl name) rfl
      have restExist : ∀ other ∈ rest.names, ∃ later,
          (NameMap.insert tables name (writes.foldl MemoryTable.write table)).get? other =
            some later := by
        intro other member
        by_cases here : other = name
        · subst here
          exact ⟨_, NameMap.get?_insert_self _ _ _⟩
        · rw [NameMap.get?_insert_of_ne _ _ here]
          exact exist other (List.mem_cons_of_mem _ member)
      obtain ⟨others, after, tail, changed⟩ := ih restExist
      refine ⟨.cons name above () others, after, ?_, ?_⟩
      · rw [Ascending.mapEntriesM, batchChange, Act.runFrom_bind_of_ok head,
          Act.runFrom_bind_of_ok tail, Act.runFrom_pure]
      · intro other
        rw [changed other]
        by_cases here : other = name
        · subst here
          simp only [absent, NameMap.get?_insert_self, Ascending.get?, if_true, found,
            Option.map_some]
        · simp only [Ascending.get?, here, if_false, NameMap.get?_insert_of_ne _ _ here]

/-- Batches of corresponding writes to tables of the layout succeed on both sides and keep the
correspondence. -/
theorem Mirrors.batchChanges (mirrors : Mirrors provider policy layout hidden plain)
    {requests sent : NameMap (List WriteRequest)}
    (related : ∀ name, Option.Rel
      (fun writes sentWrites => ∃ table, layout.get? name = some table ∧
        List.Forall₂ (WriteRequest.SealOf (table.sealConfig provider policy name))
          sentWrites writes)
      (requests.get? name) (sent.get? name)) :
    ∃ hiddenResult hiddenAfter plainResult plainAfter,
      (sent.mapEntriesM batchChange).runFrom hidden = (.ok hiddenResult, hiddenAfter) ∧
      (requests.mapEntriesM batchChange).runFrom plain = (.ok plainResult, plainAfter) ∧
      Mirrors provider policy layout hiddenAfter plainAfter := by
  -- Whatever is written to on either side is in the layout, so no write of the batch is refused.
  have inLayout : ∀ name, name ∈ sent.names ∨ name ∈ requests.names →
      ∃ table, layout.get? name = some table := by
    intro name member
    rw [Ascending.mem_names_iff, Ascending.mem_names_iff] at member
    have here := related name
    generalize requests.get? name = writes, sent.get? name = sentWrites at member here
    cases here with
    | some inside =>
        obtain ⟨table, found, -⟩ := inside
        exact ⟨table, found⟩
    | none => rcases member with ⟨_, ⟨⟩⟩ | ⟨_, ⟨⟩⟩
  obtain ⟨hiddenResult, hiddenAfter, hiddenRuns, hiddenChanged⟩ :=
    get?_batchChanges fun name member => mirrors.exists_hidden (inLayout name (.inl member))
  obtain ⟨plainResult, plainAfter, plainRuns, plainChanged⟩ :=
    get?_batchChanges fun name member => mirrors.exists_plain (inLayout name (.inr member))
  refine ⟨hiddenResult, hiddenAfter, plainResult, plainAfter, hiddenRuns, plainRuns, ?_, ?_⟩
  · intro name absent
    obtain ⟨noHidden, noPlain⟩ := mirrors.absent name absent
    rw [hiddenChanged, plainChanged, noHidden, noPlain]
    constructor
    · cases sent.get? name <;> rfl
    · cases requests.get? name <;> rfl
  · intro name table found
    obtain ⟨hiddenTable, plainTable, inHidden, inPlain, tableMirrors⟩ :=
      mirrors.present name table found
    rw [hiddenChanged, plainChanged, inHidden, inPlain]
    have here := related name
    generalize requests.get? name = writes, sent.get? name = sentWrites at here ⊢
    cases here with
    | none => exact ⟨hiddenTable, plainTable, rfl, rfl, tableMirrors⟩
    | some inside =>
        obtain ⟨_, foundAgain, sealOfs⟩ := inside
        cases found.symm.trans foundAgain
        exact ⟨_, _, rfl, rfl, MemoryTable.Mirrors.writes sealOfs tableMirrors⟩

end MemoryStore

end ItemSeal
