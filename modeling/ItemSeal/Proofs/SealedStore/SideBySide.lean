import ItemSeal.Proofs.SealedStore.Batches

/-!
A client of sealed tables in memory, beside plain tables to which the accepted writes are applied
directly. Whatever calls came before, batches and views of single tables alike, the sealed tables
mirror the plain ones (`SideBySide.beside_run`), so that every write that is accepted succeeds
directly too (`SideBySide.writesAlike_run`), and every read that the client may make succeeds and
gives what the plain tables give, with the items as they come back (`SideBySide.readsAlike_run`).
-/

namespace ItemSeal

/-- A call that a client makes. The views that it has opened go by their places, and each batch
has an order for its tables. -/
inductive ClientCall where
  | batchWrite (arrangement : Arrangement) (nonces : String → Nat → ItemNonces)
      (input : BatchWriteInput)
  | batchGet (arrangement : Arrangement) (input : BatchGetInput)
  | view (table : String)
  | put (place : Nat) (nonces : ItemNonces) (input : PutInput)
  | get (place : Nat) (input : GetInput)
  | delete (place : Nat) (input : DeleteInput)
  | query (place : Nat) (input : QueryInput)
  | scan (place : Nat) (input : ScanInput)

/-- A session over sealed tables and the views opened in it, beside plain tables. -/
structure SideBySide where
  session : Session MemoryStore
  views : List (SealedTable MemoryStore) := []
  plain : MemoryStore

namespace SideBySide

/-! ## Calls -/

/-- Makes a read of the sealed tables. -/
def read {α : Type} (sides : SideBySide) (sealed : Act (Session MemoryStore) α) : SideBySide :=
  { sides with session := (sealed.runFrom sides.session).2 }

/-- Makes a write to the sealed tables, and directly to the plain ones if it is accepted. -/
def write {α : Type} (sides : SideBySide) (sealed : Act (Session MemoryStore) α)
    (direct : Act MemoryStore α) :
    SideBySide :=
  match sealed.runFrom sides.session with
  | (.ok _, session) => { sides with session, plain := (direct.runFrom sides.plain).2 }
  | (.error _, session) => { sides with session }

/-- Opens a view of a table. -/
def openView (sides : SideBySide) (sealed : SealedStore MemoryStore) (name : String) :
    SideBySide :=
  match (sealed.table name {}).runFrom sides.session with
  | (.ok view, session) => { sides with session, views := sides.views ++ [view] }
  | (.error _, session) => { sides with session }

/-- Makes a call of an opened view. -/
def onView (sides : SideBySide) (place : Nat) (call : SealedTable MemoryStore → SideBySide) :
    SideBySide :=
  match sides.views[place]? with
  | some view => call view
  | none => sides

/-- Makes a call. What is written directly names the table of the view. -/
def serve (sealed : SealedStore MemoryStore) (sides : SideBySide) : ClientCall → SideBySide
  | .batchWrite arrangement nonces input =>
      sides.write (sealed.batchWrite none arrangement nonces input)
        (sealed.store.batchWrite input)
  | .batchGet arrangement input => sides.read (sealed.batchGet none arrangement input)
  | .view name => sides.openView sealed name
  | .put place nonces input => sides.onView place fun view =>
      sides.write (Session.call (view.put nonces input))
        (view.store.put { input with table := some view.name })
  | .get place input => sides.onView place fun view => sides.read (Session.call (view.get input))
  | .delete place input => sides.onView place fun view =>
      sides.write (Session.call (view.delete input))
        (view.store.delete { input with table := some view.name })
  | .query place input =>
      sides.onView place fun view => sides.read (Session.call (view.query input))
  | .scan place input =>
      sides.onView place fun view => sides.read (Session.call (view.scan input))

/-- Nothing is stored, remembered or opened yet. -/
def start (layout : MemoryStore) : SideBySide where
  session := { world := layout.emptied }
  plain := layout.emptied

/-- Makes calls one after another, from the start. -/
def run (sealed : SealedStore MemoryStore) (layout : MemoryStore) (calls : List ClientCall) :
    SideBySide :=
  calls.foldl (serve sealed) (start layout)

/-- From here the read of the sealed tables succeeds, as the direct read of the plain ones does,
and its output is a translation of the other. -/
def ReadsAlike {α β : Type} (sides : SideBySide) (translate : α → β)
    (sealed : Act (Session MemoryStore) β) (direct : Act MemoryStore α) : Prop :=
  ∃ output session, direct.runFrom sides.plain = (.ok output, sides.plain) ∧
    sealed.runFrom sides.session = (.ok (translate output), session)

/-- From here a write that the sealed tables accept is accepted by the plain ones
too, with the same output. -/
def WritesAlike {α : Type} (sides : SideBySide) (sealed : Act (Session MemoryStore) α)
    (direct : Act MemoryStore α) : Prop :=
  ∀ output session, sealed.runFrom sides.session = (.ok output, session) →
    ∃ plain, direct.runFrom sides.plain = (.ok output, plain)

/-! ## What calls keep -/

section Runs

open SealedStore (overMemory viewOf)

/-- The sealed tables mirror the plain ones, and the views are those of tables of the layout. -/
structure Beside (keys : RawKeys) (policy : ActionPolicy) (layout : MemoryStore)
    (sides : SideBySide) : Prop where
  mirrors : sides.session.Mirrors keys policy layout sides.plain
  views : ∀ view ∈ sides.views, ∃ name table, layout.get? name = some table ∧
    view = viewOf keys policy name table

variable {keys : RawKeys} {policy : ActionPolicy} {layout : MemoryStore} {sides : SideBySide}
  {α β : Type}

theorem beside_start : Beside keys policy layout (start layout) := by
  refine ⟨⟨⟨rfl, ?_⟩, MemoryStore.mirrors_emptied⟩, ?_⟩
  · intro name schema known
    cases known
  · intro view opened
    cases opened

theorem Beside.read (beside : sides.Beside keys policy layout)
    {sealed : Act (Session MemoryStore) α}
    (keeps : sealed.Keeps (Session.Mirrors keys policy layout · sides.plain)) :
    (sides.read sealed).Beside keys policy layout :=
  ⟨keeps sides.session beside.mirrors, beside.views⟩

theorem Beside.write (beside : sides.Beside keys policy layout)
    {sealed : Act (Session MemoryStore) α} {direct : Act MemoryStore α}
    (alike : Act.WritesAlike (Session.Mirrors keys policy layout) sealed direct) :
    (sides.write sealed direct).Beside keys policy layout := by
  have writes := alike sides.session sides.plain beside.mirrors
  unfold SideBySide.write
  rcases ran : sealed.runFrom sides.session with ⟨error | output, session⟩ <;> rw [ran] at writes
  · exact ⟨writes, beside.views⟩
  · obtain ⟨plain, direct, mirrors⟩ := writes
    rw [direct]
    exact ⟨mirrors, beside.views⟩

theorem Beside.openView (beside : sides.Beside keys policy layout) (name : String) :
    (sides.openView (overMemory keys policy) name).Beside keys policy layout := by
  obtain ⟨session, stands, opens⟩ :=
    @SealedStore.runFrom_table keys policy _ _ _ beside.mirrors.stands
      beside.mirrors.tables.laidOut name
  have mirrors := stands.mirrors beside.mirrors.tables
  unfold SideBySide.openView
  rw [opens]
  cases found : layout.get? name with
  | none => exact ⟨mirrors, beside.views⟩
  | some table =>
      refine ⟨mirrors, ?_⟩
      intro view opened
      rcases List.mem_append.1 opened with before | new
      · exact beside.views view before
      · exact ⟨name, table, found, List.mem_singleton.1 new⟩

theorem Beside.onView (beside : sides.Beside keys policy layout) {place : Nat}
    {call : SealedTable MemoryStore → SideBySide}
    (calls : ∀ name table, layout.get? name = some table →
      (call (viewOf keys policy name table)).Beside keys policy layout) :
    (sides.onView place call).Beside keys policy layout := by
  unfold SideBySide.onView
  cases opened : sides.views[place]? with
  | none => exact beside
  | some view =>
      obtain ⟨name, table, found, rfl⟩ := beside.views view (List.mem_of_getElem? opened)
      exact calls name table found

/-- Every call keeps the sealed tables beside the plain ones. -/
theorem Beside.serve (beside : sides.Beside keys policy layout) (call : ClientCall) :
    (sides.serve (overMemory keys policy) call).Beside keys policy layout := by
  cases call with
  | batchWrite arrangement nonces input =>
      exact beside.write (SealedStore.writesAlike_batchWrite arrangement nonces input)
  | batchGet arrangement input => exact beside.read (SealedStore.keeps_batchGet arrangement input)
  | view name => exact beside.openView name
  | put place nonces input =>
      exact beside.onView fun name table found =>
        beside.write (SealedTable.writesAlike_put found nonces input).call
  | get place input =>
      exact beside.onView fun name table found =>
        beside.read (SealedTable.keeps_get found _ input).call
  | delete place input =>
      exact beside.onView fun name table found =>
        beside.write (SealedTable.writesAlike_delete found input).call
  | query place input =>
      exact beside.onView fun name table found =>
        beside.read (SealedTable.keeps_query found _ input).call
  | scan place input =>
      exact beside.onView fun name table found =>
        beside.read (SealedTable.keeps_scan found _ input).call

theorem beside_run (calls : List ClientCall) :
    (run (overMemory keys policy) layout calls).Beside keys policy layout := by
  have kept : ∀ sides : SideBySide, sides.Beside keys policy layout →
      (calls.foldl (SideBySide.serve (overMemory keys policy)) sides).Beside keys policy
        layout := by
    induction calls with
    | nil => exact fun _ beside => beside
    | cons call _ ih => exact fun sides beside => ih _ (beside.serve call)
  exact kept _ beside_start

/-! ## Writes after any calls -/

theorem Beside.writesAlike (beside : sides.Beside keys policy layout)
    {sealed : Act (Session MemoryStore) α} {direct : Act MemoryStore α}
    (alike : Act.WritesAlike (Session.Mirrors keys policy layout) sealed direct) :
    sides.WritesAlike sealed direct := by
  intro output session accepted
  have writes := alike sides.session sides.plain beside.mirrors
  rw [accepted] at writes
  obtain ⟨plain, written, -⟩ := writes
  exact ⟨plain, written⟩

/-- After any calls, no write that is accepted is refused by the plain tables. -/
theorem writesAlike_run (keys : RawKeys) (policy : ActionPolicy) (layout : MemoryStore)
    (calls : List ClientCall) :
    let sides := run (overMemory keys policy) layout calls
    (∀ arrangement nonces input,
      sides.WritesAlike ((overMemory keys policy).batchWrite none arrangement nonces input)
        (MemoryStore.store.batchWrite input)) ∧
    ∀ view ∈ sides.views,
      (∀ nonces input, sides.WritesAlike (Session.call (view.put nonces input))
        (MemoryStore.store.put { input with table := some view.name })) ∧
      ∀ input, sides.WritesAlike (Session.call (view.delete input))
        (MemoryStore.store.delete { input with table := some view.name }) := by
  intro sides
  have beside : sides.Beside keys policy layout := beside_run calls
  refine ⟨fun arrangement nonces input =>
    beside.writesAlike (SealedStore.writesAlike_batchWrite arrangement nonces input), ?_⟩
  intro view opened
  obtain ⟨name, table, found, rfl⟩ := beside.views view opened
  exact ⟨fun nonces input =>
    beside.writesAlike (SealedTable.writesAlike_put found nonces input).call,
    fun input => beside.writesAlike (SealedTable.writesAlike_delete found input).call⟩

/-! ## Reads after any calls -/

theorem Beside.readsAlike (beside : sides.Beside keys policy layout) {translate : α → β}
    {sealed : Act (Session MemoryStore) β} {direct : Act MemoryStore α}
    (alike : Act.ReadsAlike (Session.Mirrors keys policy layout) translate sealed direct) :
    sides.ReadsAlike translate sealed direct := by
  obtain ⟨output, session, reads, unseals, -⟩ := alike sides.session sides.plain beside.mirrors
  exact ⟨output, session, reads, unseals⟩

/-- After any calls whatever, a view of every table can be opened, and batches of reads and the
reads of all views opened before succeed, unless they are refused beforehand or about tables that
do not exist. Each gives what the same read gives on the plain tables, to which the accepted
writes have been applied directly: as many items, in the same order, each as it comes back. -/
theorem readsAlike_run (keys : RawKeys) (policy : ActionPolicy) (layout : MemoryStore)
    (calls : List ClientCall) :
    let sides := run (overMemory keys policy) layout calls
    (∀ name table, layout.get? name = some table → ∃ view session,
      ((overMemory keys policy).table name {}).runFrom sides.session = (.ok view, session) ∧
        view.name = name) ∧
    (∀ arrangement input, SealedStore.checkReads arrangement (input.requests.getD ∅) = .ok () →
      (∀ name ∈ (input.requests.getD ∅).names, ∃ table, layout.get? name = some table) →
      sides.ReadsAlike (BatchGetOutput.mapItems (layout.readBack policy))
        ((overMemory keys policy).batchGet none arrangement input)
        (MemoryStore.store.batchGet input)) ∧
    ∀ view ∈ sides.views,
      (∀ input, view.checkTarget input.table = .ok () → input.options.check none = .ok () →
        sides.ReadsAlike (GetOutput.mapItem (layout.readBack policy view.name))
          (Session.call (view.get input))
          (MemoryStore.store.get { input with table := some view.name })) ∧
      (∀ input, view.checkTarget input.table = .ok () →
        input.options.read.check input.options.select = .ok () →
        sides.ReadsAlike (SearchOutput.mapItems (layout.readBack policy view.name))
          (Session.call (view.query input))
          (MemoryStore.store.query { input with table := some view.name })) ∧
      ∀ input, view.checkTarget input.table = .ok () →
        input.options.read.check input.options.select = .ok () →
        sides.ReadsAlike (SearchOutput.mapItems (layout.readBack policy view.name))
          (Session.call (view.scan input))
          (MemoryStore.store.scan { input with table := some view.name }) := by
  intro sides
  have beside : sides.Beside keys policy layout := beside_run calls
  refine ⟨?_, ?_, ?_⟩
  · intro name table found
    obtain ⟨session, -, opens⟩ :=
      @SealedStore.runFrom_table keys policy _ _ _ beside.mirrors.stands
        beside.mirrors.tables.laidOut name
    rw [found] at opens
    exact ⟨_, session, opens, rfl⟩
  · intro arrangement input whole exist
    exact beside.readsAlike (SealedStore.readsAlike_batchGet whole exist)
  · intro view opened
    obtain ⟨name, table, found, rfl⟩ := beside.views view opened
    refine ⟨?_, ?_, ?_⟩
    · intro input target whole
      exact beside.readsAlike (SealedTable.readsAlike_get found target whole).call
    · intro input target whole
      exact beside.readsAlike (SealedTable.readsAlike_query found target whole).call
    · intro input target whole
      exact beside.readsAlike (SealedTable.readsAlike_scan found target whole).call

end Runs

namespace Sample

open Item.SampleOrder (keys policy nonces order)

-- One table, a view of it, and an order put through the view.
def tables : MemoryStore := NameMap.singleton "Orders" { keys := ⟨"OrderId", none⟩ }

def calls : List ClientCall := [.view "Orders", .put 0 nonces { item := some order }]

def sides : SideBySide := run (SealedStore.overMemory keys policy) tables calls

def input : GetInput := { key := some (NameMap.singleton "OrderId" (.string "1")) }

/-- The order comes back through the view as it is in the plain table, but
for the flag of its null. -/
theorem readsAlike_orders :
    ∃ view session result, sides.views = [view] ∧
      (MemoryStore.store.get { input with table := some "Orders" }).runFrom sides.plain =
        (.ok { item := some order }, sides.plain) ∧
      (Session.call (view.get input)).runFrom sides.session = (.ok { item := some result },
        session) ∧
      result.get? "Status" = some (.string "shipped") ∧
        result.get? "Lines" = some (.list [.null true]) := by
  obtain ⟨-, -, views⟩ := readsAlike_run keys policy tables calls
  have opened :
    sides.views = [SealedStore.viewOf keys policy "Orders" { keys := ⟨"OrderId", none⟩ }] := rfl
  have stored :
    (MemoryStore.store.get { input with table := some "Orders" }).runFrom sides.plain =
      (.ok { item := some order }, sides.plain) := rfl
  have isOpen :=
    List.mem_singleton_self
      (SealedStore.viewOf keys policy "Orders" { keys := ⟨"OrderId", none⟩ })
  obtain ⟨gets, -⟩ := views _ (opened ▸ isOpen)
  obtain ⟨output, session, reads, unseals⟩ := gets input rfl rfl
  cases stored.symm.trans reads
  exact ⟨_, session, _, opened, stored, unseals, rfl, rfl⟩

end Sample

end SideBySide

end ItemSeal
