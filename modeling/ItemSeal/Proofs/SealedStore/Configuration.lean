import ItemSeal.Proofs.Store.MirroredTables
import ItemSeal.Proofs.SealedStore.Resolution

/-!
Configurations of tables in memory. Whatever a session has looked up before, the schema of a table
is that of its layout (`Session.runFrom_schema`), so batches and views of single tables get one
and the same configuration for it, `MemoryTable.sealConfig` (`SealedStore.runFrom_config`,
`SealedStore.runFrom_table`).
-/

namespace ItemSeal

/-- The tables are those of the layout, whatever items they hold. -/
def MemoryStore.LaidOut (layout tables : MemoryStore) : Prop :=
  ∀ name, (tables.get? name).map (·.schema name) = (layout.get? name).map (·.schema name)

theorem MemoryStore.Mirrors.laidOut {provider : MaterialsProvider MemoryStore}
    {policy : ActionPolicy} {layout hidden plain : MemoryStore}
    (mirrors : Mirrors provider policy layout hidden plain) :
    MemoryStore.LaidOut layout hidden := by
  intro name
  cases found : layout.get? name with
  | none => rw [(mirrors.absent name found).1]
  | some table =>
      obtain ⟨hiddenTable, plainTable, inHidden, -, tableMirrors⟩ :=
        mirrors.present name table found
      rw [inHidden, Option.map_some, Option.map_some, tableMirrors.hidden_layout.schema_eq]

namespace Session

/-- The session stands over these tables, and what it remembers of a table
is what the layout says. -/
structure Over (layout tables : MemoryStore) (session : Session MemoryStore) : Prop where
  world : session.world = tables
  known : ∀ name schema, session.schemas.get? name = some schema →
    ∃ table, layout.get? name = some table ∧ schema = table.schema name

variable {layout tables : MemoryStore} {session : Session MemoryStore} {name : String}
  {table : MemoryTable}

theorem Over.runFrom_call {α : Type} (stands : session.Over layout tables)
    {act : Act MemoryStore α} {outcome : Except Error α} {after : MemoryStore}
    (runs : act.runFrom tables = (outcome, after)) :
    ∃ later : Session MemoryStore, later.Over layout after ∧
      (call act).runFrom session = (outcome, later) := by
  refine ⟨{ session with world := after }, ⟨rfl, stands.known⟩, ?_⟩
  rw [Session.runFrom_call, stands.world, runs]

theorem Over.warn (stands : session.Over layout tables) (overridings : List Overriding) :
    ∃ after : Session MemoryStore, after.Over layout tables ∧
      (warn overridings).runFrom session = (.ok (), after) :=
  ⟨{ session with warnings := session.warnings ++ overridings }, ⟨stands.world, stands.known⟩,
    rfl⟩

theorem runFrom_describeSchema (laidOut : MemoryStore.LaidOut layout tables) (name : String) :
    (describeSchema MemoryStore.store name).runFrom tables =
      match layout.get? name with
      | some table => (.ok (table.schema name), tables)
      | none => (.error (.describeFailed name (.tableNotFound name)), tables) := by
  have same := laidOut name
  have described : (MemoryStore.store.describe name).runFrom tables =
      match tables.get? name with
      | some table => (.ok (table.description name), tables)
      | none => (.error (.tableNotFound name), tables) := by
    change (MemoryStore.table name >>= fun table =>
      pure (table.description name)).runFrom tables = _
    rw [Act.runFrom_bind, MemoryStore.runFrom_table]
    cases tables.get? name <;> rfl
  rw [describeSchema, Act.runFrom_bind_of_ok (Act.runFrom_attempt _ tables), described]
  cases inLayout : layout.get? name with
  | none =>
      rw [inLayout, Option.map_none, Option.map_eq_none_iff] at same
      rw [same]
      rfl
  | some table =>
      rw [inLayout, Option.map_some, Option.map_eq_some_iff] at same
      obtain ⟨found, inTables, sameSchema⟩ := same
      rw [inTables]
      dsimp only
      rw [Act.runFrom_bind_of_ok (Act.runFrom_pure _ _), MemoryTable.ofDescription_description,
        sameSchema]
      rfl

/-- What is described anew is remembered as it is in the layout. -/
theorem Over.runFrom_refreshSchema (stands : session.Over layout tables)
    (laidOut : MemoryStore.LaidOut layout tables) (name : String) :
    ∃ after : Session MemoryStore, after.Over layout tables ∧
      (refreshSchema MemoryStore.store name).runFrom session =
        match layout.get? name with
        | some table => (.ok (table.schema name), after)
        | none => (.error (.describeFailed name (.tableNotFound name)), after) := by
  have describes := runFrom_describeSchema laidOut name
  unfold refreshSchema
  cases inLayout : layout.get? name with
  | none =>
      rw [inLayout] at describes
      obtain ⟨later, laterStands, calls⟩ := stands.runFrom_call describes
      exact ⟨later, laterStands, Act.runFrom_bind_of_error calls⟩
  | some table =>
      rw [inLayout] at describes
      obtain ⟨later, laterStands, calls⟩ := stands.runFrom_call describes
      refine ⟨{ later with schemas := NameMap.insert later.schemas name (table.schema name) },
        ⟨laterStands.world, ?_⟩, ?_⟩
      · intro other schema found
        by_cases here : other = name
        · subst here
          rw [NameMap.get?_insert_self] at found
          exact ⟨table, inLayout, (Option.some.inj found).symm⟩
        · rw [NameMap.get?_insert_of_ne _ _ here] at found
          exact laterStands.known other schema found
      · rw [Act.runFrom_bind_of_ok calls, remember,
          Act.runFrom_bind_of_ok (Act.runFrom_modify _ _)]
        rfl

/-- The schema of a table is that of its layout, remembered or described anew. -/
theorem Over.runFrom_schema (stands : session.Over layout tables)
    (laidOut : MemoryStore.LaidOut layout tables) (name : String) :
    ∃ after : Session MemoryStore, after.Over layout tables ∧
      (schema MemoryStore.store true name).runFrom session =
        match layout.get? name with
        | some table => (.ok (table.schema name), after)
        | none => (.error (.describeFailed name (.tableNotFound name)), after) := by
  unfold schema
  rw [Act.runFrom_bind_of_ok (Act.runFrom_get session)]
  cases remembered : session.schemas.get? name with
  | none => exact stands.runFrom_refreshSchema laidOut name
  | some schema =>
      obtain ⟨table, inLayout, rfl⟩ := stands.known name schema remembered
      refine ⟨session, stands, ?_⟩
      rw [inLayout]
      rfl

/-- A complete schema is configured. -/
theorem Over.runFrom_configure (stands : session.Over layout tables)
    (provider : MaterialsProvider MemoryStore) (policy : ActionPolicy) (name : String)
    (table : MemoryTable) :
    ∃ after : Session MemoryStore, after.Over layout tables ∧
      (configure provider policy (table.schema name)).runFrom session =
        (.ok (table.sealConfig provider policy name), after) := by
  obtain ⟨after, afterStands, warns⟩ := stands.warn (policy.overriddenBy (table.schema name))
  refine ⟨after, afterStands, ?_⟩
  have configures : (liftM (SealConfig.forTable provider policy (table.schema name)) :
      Act (Session MemoryStore) (SealConfig MemoryStore)).runFrom session =
        (.ok (table.sealConfig provider policy name), session) := rfl
  rw [configure, Act.runFrom_bind_of_ok configures, Act.runFrom_bind_of_ok warns,
    Act.runFrom_pure]

/-- What is made of a schema is made of the layout's table, and there is nothing
to make for other names. -/
theorem Over.runFrom_schema_bind {α : Type} (stands : session.Over layout tables)
    (laidOut : MemoryStore.LaidOut layout tables)
    {next : TableSchema → Act (Session MemoryStore) α} {result : MemoryTable → α}
    (continues : ∀ {session : Session MemoryStore} (table : MemoryTable),
      session.Over layout tables →
      ∃ after : Session MemoryStore, after.Over layout tables ∧
        (next (table.schema name)).runFrom session = (.ok (result table), after)) :
    ∃ after : Session MemoryStore, after.Over layout tables ∧
      (schema MemoryStore.store true name >>= next).runFrom session =
        match layout.get? name with
        | some table => (.ok (result table), after)
        | none => (.error (.describeFailed name (.tableNotFound name)), after) := by
  obtain ⟨between, betweenStands, looks⟩ := stands.runFrom_schema laidOut name
  cases inLayout : layout.get? name with
  | none =>
      rw [inLayout] at looks
      exact ⟨between, betweenStands, Act.runFrom_bind_of_error looks⟩
  | some table =>
      rw [inLayout] at looks
      obtain ⟨after, afterStands, more⟩ := continues table betweenStands
      exact ⟨after, afterStands, (Act.runFrom_bind_of_ok looks).trans more⟩

end Session

namespace SealedStore

/-- Tables in memory, sealed with a fixed pair of keys and described when first needed. -/
def overMemory (keys : RawKeys) (policy : ActionPolicy) : SealedStore MemoryStore where
  store := MemoryStore.store
  provider := .ofKeys keys
  policy

/-- The view of a table in memory. -/
def viewOf (keys : RawKeys) (policy : ActionPolicy) (name : String) (table : MemoryTable) :
    SealedTable MemoryStore where
  store := MemoryStore.store
  schema := table.schema name
  policy
  autoRefresh := true
  config := table.sealConfig (.ofKeys keys) policy name

variable {keys : RawKeys} {policy : ActionPolicy} {layout tables : MemoryStore}
  {session : Session MemoryStore}

/-- A table's configuration is that of its layout, and there is none for other names. -/
theorem runFrom_config (stands : session.Over layout tables)
    (laidOut : MemoryStore.LaidOut layout tables) (name : String) :
    ∃ after : Session MemoryStore, after.Over layout tables ∧
      ((overMemory keys policy).config none name).runFrom session =
        match layout.get? name with
        | some table => (.ok (table.sealConfig (.ofKeys keys) policy name), after)
        | none => (.error (.describeFailed name (.tableNotFound name)), after) :=
  stands.runFrom_schema_bind laidOut fun table stands =>
    stands.runFrom_configure (.ofKeys keys) policy name table

/-- A table is viewed with the same configuration. -/
theorem runFrom_table (stands : session.Over layout tables)
    (laidOut : MemoryStore.LaidOut layout tables) (name : String) :
    ∃ after : Session MemoryStore, after.Over layout tables ∧
      ((overMemory keys policy).table name {}).runFrom session =
        match layout.get? name with
        | some table => (.ok (viewOf keys policy name table), after)
        | none => (.error (.describeFailed name (.tableNotFound name)), after) := by
  apply stands.runFrom_schema_bind laidOut
  intro session table stands
  obtain ⟨after, afterStands, configures⟩ :=
    stands.runFrom_configure (.ofKeys keys) policy name table
  exact ⟨after, afterStands, Act.runFrom_bind_of_ok configures⟩

end SealedStore

end ItemSeal
