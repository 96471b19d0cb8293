import ItemSeal.Proofs.Sealing.ActPairs
import ItemSeal.Proofs.SealedStore.Configuration

/-!
Views of single tables in memory, beside the plain tables that these mirror. Writes go alike
(`SealedTable.writesAlike_put`, `SealedTable.writesAlike_delete`), and so do the reads that are
not refused, every item coming back as `MemoryStore.readBack` says (`SealedTable.readsAlike_get`,
`SealedTable.readsAlike_query`, `SealedTable.readsAlike_scan`). Refused or not, a read keeps the
tables as they are (`SealedTable.keeps_get`, `SealedTable.keeps_query`, `SealedTable.keeps_scan`).
-/

namespace ItemSeal

/-- The item as it comes back from the table of that name: what the table encrypts is settled. -/
def MemoryStore.readBack (layout : MemoryStore) (policy : ActionPolicy) (name : String)
    (item : Item) : Item :=
  match layout.get? name with
  | some table => item.settledUnder (table.policyFor policy)
  | none => item

/-- The output with its item changed. -/
def GetOutput.mapItem (f : Item → Item) (output : GetOutput) : GetOutput :=
  { output with item := output.item.map f }

/-- The output with each of its items changed. -/
def SearchOutput.mapItems (f : Item → Item) (output : SearchOutput) : SearchOutput :=
  { output with items := output.items.map (·.map f) }

section Items

variable {σ : Type} {layout : MemoryStore} {policy : ActionPolicy} {name : String}
  {table : MemoryTable} {keys : RawKeys} {provider : MaterialsProvider σ} {stored item : Item}

theorem MemoryTable.settledUnder_sealConfig (found : layout.get? name = some table)
    (item : Item) :
    item.settledUnder (table.sealConfig provider policy name).policy =
      layout.readBack policy name item := by
  rw [MemoryStore.readBack, found]
  exact Item.settledUnder_congr MemoryTable.action_sealConfig item

theorem Item.SealOf.readBack (fixed : provider = .ofKeys keys)
    (found : layout.get? name = some table)
    (sealOf : SealOf (table.sealConfig provider policy name) stored item) (world : σ) :
    (unsealWith (table.sealConfig provider policy name) stored).runFrom world =
      (.ok (layout.readBack policy name item), world) := by
  rw [sealOf.unseals fixed MemoryTable.keysReadable_sealConfig,
    MemoryTable.settledUnder_sealConfig found]

/-- Stored items are unsealed to the items that they stand for, as they come back. -/
theorem SealedTable.runFrom_unsealAll (fixed : provider = .ofKeys keys)
    (found : layout.get? name = some table) {stores items : List Item}
    (related : List.Forall₂ (Item.SealOf (table.sealConfig provider policy name)) stores items)
    (world : σ) :
    (unsealAll (table.sealConfig provider policy name) stores).runFrom world =
      (.ok (items.map (layout.readBack policy name)), world) := by
  apply Act.runFrom_mapM_eq
  rw [List.forall₂_map_right_iff]
  exact related.imp fun _ _ sealOf => sealOf.readBack fixed found world

/-- What a table was searched for is unsealed, if it was found. -/
theorem Item.runFrom_mapM_unsealWith (fixed : provider = .ofKeys keys)
    (found : layout.get? name = some table) {stores items : Option Item}
    (related : Option.Rel (Item.SealOf (table.sealConfig provider policy name)) stores items)
    (world : σ) :
    (stores.mapM (Item.unsealWith (table.sealConfig provider policy name))).runFrom world =
      (.ok (items.map (layout.readBack policy name)), world) := by
  cases related with
  | none => rfl
  | some sealOf => exact Act.runFrom_mapM_some (sealOf.readBack fixed found world)

end Items

namespace SealedTable

open SealedStore (viewOf)

variable {keys : RawKeys} {policy : ActionPolicy} {layout : MemoryStore} {name : String}
  {table : MemoryTable}

theorem writesAlike_change {provider : MaterialsProvider MemoryStore}
    (found : layout.get? name = some table) {f g : MemoryTable → MemoryTable}
    (changes : ∀ hidden plain,
      table.Mirrors (table.sealConfig provider policy name) hidden plain →
      table.Mirrors (table.sealConfig provider policy name) (f hidden) (g plain))
    (output : WriteOutput) :
    Act.WritesAlike (MemoryStore.Mirrors provider policy layout)
      (MemoryStore.change name f >>= fun _ => pure output)
      (MemoryStore.change name g >>= fun _ => pure output) := by
  intro hidden plain mirrors
  obtain ⟨hiddenTable, plainTable, inHidden, inPlain, tableMirrors⟩ :=
    mirrors.present name table found
  rw [Act.runFrom_bind_of_ok (MemoryStore.runFrom_change inHidden f),
    Act.runFrom_bind_of_ok (MemoryStore.runFrom_change inPlain g)]
  exact ⟨_, rfl, mirrors.insert found (changes hiddenTable plainTable tableMirrors)⟩

theorem writesAlike_put (found : layout.get? name = some table) (nonces : ItemNonces)
    (input : PutInput) :
    Act.WritesAlike (MemoryStore.Mirrors (.ofKeys keys) policy layout)
      ((viewOf keys policy name table).put nonces input)
      (MemoryStore.store.put { input with table := some name }) := by
  apply Act.WritesAlike.guarded
  rcases input with ⟨target, _ | item, options⟩
  · exact .throw _ _
  · apply Act.WritesAlike.prepared
    · have fixed : (viewOf keys policy name table).config.provider = .ofKeys keys := rfl
      exact fun _ => Item.keeps_sealWith fixed _ nonces item
    · intro hidden plain after stored _ sealed
      exact writesAlike_change found (fun _ _ mirrors =>
        mirrors.put ⟨nonces, hidden, after, sealed⟩) {}

/-- The keys of a deletion go through as they are. -/
theorem writesAlike_delete (found : layout.get? name = some table) (input : DeleteInput) :
    Act.WritesAlike (MemoryStore.Mirrors (.ofKeys keys) policy layout)
      ((viewOf keys policy name table).delete input)
      (MemoryStore.store.delete { input with table := some name }) :=
  (writesAlike_change found (fun _ _ mirrors => mirrors.delete _) {}).guarded _

/-- Looking something up in a table and making something of it that tells
what a mirrored table has. -/
theorem readsAlike_lookUp {provider : MaterialsProvider MemoryStore} {α : Type}
    {lookUp : MemoryTable → α} {process : α → Act MemoryStore α} {translate : α → α}
    (found : layout.get? name = some table)
    (processes :
      ∀ hidden plain world, table.Mirrors (table.sealConfig provider policy name) hidden plain →
      (process (lookUp hidden)).runFrom world = (.ok (translate (lookUp plain)), world)) :
    Act.ReadsAlike (MemoryStore.Mirrors provider policy layout) translate
      ((MemoryStore.table name >>= fun table => pure (lookUp table)) >>= process)
      (MemoryStore.table name >>= fun table => pure (lookUp table)) := by
  intro hidden plain mirrors
  obtain ⟨hiddenTable, plainTable, inHidden, inPlain, tableMirrors⟩ :=
    mirrors.present name table found
  have looks : ∀ {tables : MemoryStore} {here : MemoryTable}, tables.get? name = some here →
      (MemoryStore.table name >>= fun table => pure (lookUp table)).runFrom tables =
        (.ok (lookUp here), tables) := by
    intro tables here inTables
    rw [Act.runFrom_bind_of_ok (MemoryStore.runFrom_table_of_some inTables), Act.runFrom_pure]
  refine ⟨lookUp plainTable, hidden, looks inPlain, ?_, mirrors⟩
  rw [Act.runFrom_bind_of_ok (looks inHidden),
    processes hiddenTable plainTable hidden tableMirrors]

/-- What is made of a look-up is what is made of the item found. -/
theorem readsAlike_find (found : layout.get? name = some table) (key : Item) :
    Act.ReadsAlike (MemoryStore.Mirrors (.ofKeys keys) policy layout)
      (GetOutput.mapItem (layout.readBack policy name))
      ((MemoryStore.table name >>= fun table =>
        pure ({ item := table.find? key } : GetOutput)) >>=
        fun output => do
          let item ← output.item.mapM (Item.unsealWith (viewOf keys policy name table).config)
          return { output with item })
      (MemoryStore.table name >>= fun table =>
        pure ({ item := table.find? key } : GetOutput)) := by
  apply readsAlike_lookUp found
  intro hidden plain world mirrors
  exact Act.runFrom_bind_of_ok (Item.runFrom_mapM_unsealWith rfl found (mirrors.find? key) world)

/-- What is made of a search is what is made of its items. -/
theorem readsAlike_search (found : layout.get? name = some table) :
    Act.ReadsAlike (MemoryStore.Mirrors (.ofKeys keys) policy layout)
      (SearchOutput.mapItems (layout.readBack policy name))
      ((MemoryStore.table name >>= fun table => pure table.search) >>=
        (viewOf keys policy name table).unsealFound)
      (MemoryStore.table name >>= fun table => pure table.search) := by
  apply readsAlike_lookUp found
  intro hidden plain world mirrors
  have unseals := SealedTable.runFrom_unsealAll rfl found mirrors.items world
  refine (Act.runFrom_bind_of_ok (Act.runFrom_mapM_some unseals)).trans ?_
  rw [Act.runFrom_pure, SearchOutput.mapItems, MemoryTable.search, MemoryTable.search,
    mirrors.items.length_eq, Option.map_some]

theorem readsAlike_get (found : layout.get? name = some table) {input : GetInput}
    (target : (viewOf keys policy name table).checkTarget input.table = .ok ())
    (whole : input.options.check none = .ok ()) :
    Act.ReadsAlike (MemoryStore.Mirrors (.ofKeys keys) policy layout)
      (GetOutput.mapItem (layout.readBack policy name))
      ((viewOf keys policy name table).get input)
      (MemoryStore.store.get { input with table := some name }) :=
  ((readsAlike_find found (input.key.getD ∅)).guarded whole).guarded target

theorem readsAlike_query (found : layout.get? name = some table) {input : QueryInput}
    (target : (viewOf keys policy name table).checkTarget input.table = .ok ())
    (whole : input.options.read.check input.options.select = .ok ()) :
    Act.ReadsAlike (MemoryStore.Mirrors (.ofKeys keys) policy layout)
      (SearchOutput.mapItems (layout.readBack policy name))
      ((viewOf keys policy name table).query input)
      (MemoryStore.store.query { input with table := some name }) :=
  ((readsAlike_search found).guarded whole).guarded target

theorem readsAlike_scan (found : layout.get? name = some table) {input : ScanInput}
    (target : (viewOf keys policy name table).checkTarget input.table = .ok ())
    (whole : input.options.read.check input.options.select = .ok ()) :
    Act.ReadsAlike (MemoryStore.Mirrors (.ofKeys keys) policy layout)
      (SearchOutput.mapItems (layout.readBack policy name))
      ((viewOf keys policy name table).scan input)
      (MemoryStore.store.scan { input with table := some name }) :=
  ((readsAlike_search found).guarded whole).guarded target

section AnyInput

variable (found : layout.get? name = some table) (plain : MemoryStore)
include found

theorem keeps_get (input : GetInput) :
    Act.Keeps (MemoryStore.Mirrors (.ofKeys keys) policy layout · plain)
      ((viewOf keys policy name table).get input) :=
  .bind (.liftM _) fun _ => .bind (.liftM _) fun _ =>
    (readsAlike_find found (input.key.getD ∅)).keeps plain

theorem keeps_query (input : QueryInput) :
    Act.Keeps (MemoryStore.Mirrors (.ofKeys keys) policy layout · plain)
      ((viewOf keys policy name table).query input) :=
  .bind (.liftM _) fun _ => .bind (.liftM _) fun _ => (readsAlike_search found).keeps plain

theorem keeps_scan (input : ScanInput) :
    Act.Keeps (MemoryStore.Mirrors (.ofKeys keys) policy layout · plain)
      ((viewOf keys policy name table).scan input) :=
  .bind (.liftM _) fun _ => .bind (.liftM _) fun _ => (readsAlike_search found).keeps plain

end AnyInput

end SealedTable

end ItemSeal
