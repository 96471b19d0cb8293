import ItemSeal.Proofs.SealedStore.Views

/-!
Batches over tables in memory, beside the same batches on the plain tables that these mirror.
Writes go alike (`SealedStore.writesAlike_batchWrite`), and so do reads that are not refused
(`SealedStore.readsAlike_batchGet`); a read that is refused changes nothing
(`SealedStore.keeps_batchGet`). What single views do within a session is told by what they do to
the tables (`Act.WritesAlike.call`, `Act.ReadsAlike.call`).
-/

namespace ItemSeal

/-- The output with each of its items changed as its table says. -/
def BatchGetOutput.mapItems (f : String → Item → Item) (output : BatchGetOutput) :
    BatchGetOutput :=
  { output with responses :=
    output.responses.map (·.mapEntries fun name items => items.map (f name)) }

/-! ## Sessions over mirrored tables -/

/-- The session stands over sealed tables that mirror the plain ones. -/
structure Session.Mirrors (keys : RawKeys) (policy : ActionPolicy) (layout : MemoryStore)
    (session : Session MemoryStore) (plain : MemoryStore) : Prop where
  stands : session.Over layout session.world
  tables : MemoryStore.Mirrors (.ofKeys keys) policy layout session.world plain

section Sessions

variable {keys : RawKeys} {policy : ActionPolicy} {layout hidden plain : MemoryStore}
  {session : Session MemoryStore} {α β : Type}

theorem Session.Over.mirrors (stands : session.Over layout hidden)
    (tables : MemoryStore.Mirrors (.ofKeys keys) policy layout hidden plain) :
    session.Mirrors keys policy layout plain := by
  obtain ⟨rfl, known⟩ := stands
  exact ⟨⟨rfl, known⟩, tables⟩

theorem Act.Keeps.call {act : Act MemoryStore α}
    (keeps : act.Keeps (MemoryStore.Mirrors (.ofKeys keys) policy layout · plain)) :
    (Session.call act).Keeps (Session.Mirrors keys policy layout · plain) := by
  intro session mirrors
  rw [Session.runFrom_call]
  exact ⟨⟨rfl, mirrors.stands.known⟩, keeps session.world mirrors.tables⟩

theorem Act.WritesAlike.call {first second : Act MemoryStore α}
    (alike : WritesAlike (MemoryStore.Mirrors (.ofKeys keys) policy layout) first second) :
    WritesAlike (Session.Mirrors keys policy layout) (Session.call first) second := by
  intro session plain mirrors
  have tables := alike session.world plain mirrors.tables
  rw [Session.runFrom_call]
  rcases ran : first.runFrom session.world with ⟨error | output, after⟩ <;> rw [ran] at tables
  · exact ⟨⟨rfl, mirrors.stands.known⟩, tables⟩
  · obtain ⟨plainAfter, writes, tables⟩ := tables
    exact ⟨plainAfter, writes, ⟨rfl, mirrors.stands.known⟩, tables⟩

theorem Act.ReadsAlike.call {translate : α → β} {first : Act MemoryStore β}
    {second : Act MemoryStore α} (alike :
      ReadsAlike (MemoryStore.Mirrors (.ofKeys keys) policy layout) translate first second) :
    ReadsAlike (Session.Mirrors keys policy layout) translate (Session.call first) second := by
  intro session plain mirrors
  obtain ⟨output, after, reads, unseals, tables⟩ := alike session.world plain mirrors.tables
  refine ⟨output, { session with world := after }, reads, ?_, ⟨rfl, mirrors.stands.known⟩, tables⟩
  rw [Session.runFrom_call, unseals]

end Sessions

namespace SealedStore

variable {keys : RawKeys} {policy : ActionPolicy} {layout plain : MemoryStore}
  {session after : Session MemoryStore} {name : String} {table : MemoryTable}

/-! ## Configurations -/

theorem keeps_config (name : String) :
    Act.Keeps (Session.Mirrors keys policy layout · plain)
      ((overMemory keys policy).config none name) := by
  intro session mirrors
  obtain ⟨after, stands, configures⟩ :=
    @runFrom_config keys policy _ _ _ mirrors.stands mirrors.tables.laidOut name
  rw [configures]
  cases layout.get? name <;> exact stands.mirrors mirrors.tables

/-- The only configurations are those of tables that exist. -/
theorem exists_of_runFrom_config (mirrors : session.Mirrors keys policy layout plain)
    {config : SealConfig MemoryStore}
    (configures :
      ((overMemory keys policy).config none name).runFrom session = (.ok config, after)) :
    ∃ table, layout.get? name = some table ∧ config = (viewOf keys policy name table).config := by
  obtain ⟨_, -, runs⟩ :=
    @runFrom_config keys policy _ _ _ mirrors.stands mirrors.tables.laidOut name
  rw [configures] at runs
  cases inLayout : layout.get? name with
  | none =>
      rw [inLayout] at runs
      cases runs
  | some table =>
      rw [inLayout] at runs
      cases runs
      exact ⟨table, rfl, rfl⟩

/-! ## Writes -/

theorem keeps_sealWrite {σ : Type} {config : SealConfig σ}
    (fixed : config.provider = .ofKeys keys) (property : σ → Prop) (nonces : ItemNonces)
    (request : WriteRequest) :
    Act.Keeps property (sealWrite config nonces request) :=
  (Act.Keeps.optionMapM (Item.keeps_sealWith fixed property nonces) _).bind fun _ => .pure _

theorem sealOf_of_sealWrite {σ : Type} {config : SealConfig σ} {nonces : ItemNonces}
    {request sent : WriteRequest} {world later : σ}
    (seals : (sealWrite config nonces request).runFrom world = (.ok sent, later)) :
    sent.SealOf config request := by
  rcases request with ⟨put, key⟩
  obtain ⟨hidden, between, sealed, built⟩ := Act.runFrom_bind_eq_ok_iff.1 seals
  cases built
  refine ⟨?_, rfl⟩
  cases Act.runFrom_optionMapM_eq_ok sealed with
  | none => exact .none
  | some run => exact .some ⟨nonces, world, _, run⟩

theorem keeps_sealWrites (nonces : String → Nat → ItemNonces) (name : String)
    (requests : List WriteRequest) :
    Act.Keeps (Session.Mirrors keys policy layout · plain)
      ((overMemory keys policy).sealWrites none nonces name requests) := by
  refine (keeps_config name).bind_of_ok fun mirrors configures => ?_
  obtain ⟨table, -, rfl⟩ := exists_of_runFrom_config mirrors configures
  have fixed : (viewOf keys policy name table).config.provider = .ofKeys keys := rfl
  exact (Act.Keeps.mapM (fun (entry : WriteRequest × Nat) =>
    keeps_sealWrite fixed _ _ entry.1) _).call

/-- Writes to a table are sent if there is such a table, each of them sealed. -/
theorem sealOf_of_sealWrites (mirrors : session.Mirrors keys policy layout plain)
    {nonces : String → Nat → ItemNonces} {requests sent : List WriteRequest}
    (seals : ((overMemory keys policy).sealWrites none nonces name requests).runFrom session =
      (.ok sent, after)) :
    ∃ table, layout.get? name = some table ∧
      List.Forall₂ (WriteRequest.SealOf (viewOf keys policy name table).config) sent
        requests := by
  obtain ⟨config, between, configures, seals⟩ := Act.runFrom_bind_eq_ok_iff.1 seals
  obtain ⟨table, found, rfl⟩ := exists_of_runFrom_config mirrors configures
  refine ⟨table, found, ?_⟩
  have sealing := Session.runFrom_call_eq_ok seals
  -- The requests were sealed with their places, which only choose the nonces.
  have placed : requests.zipIdx.map Prod.fst = requests := List.zipIdx_map_fst _ _
  rw [← placed]
  have each := (Act.forall₂_of_runFrom_mapM sealing).imp
    fun entry request ⟨_, _, seals⟩ => sealOf_of_sealWrite seals
  exact (List.forall₂_map_left_iff.2 each).flip

/-- Batches of corresponding writes to tables of the layout go alike. -/
theorem writesAlike_sent {input : BatchWriteInput} {sent : Option (NameMap (List WriteRequest))}
    (related : ∀ name, Option.Rel
      (fun writes sentWrites => ∃ table, layout.get? name = some table ∧
        List.Forall₂ (WriteRequest.SealOf (viewOf keys policy name table).config)
          sentWrites writes)
      ((input.requests.getD ∅).get? name) ((sent.getD ∅).get? name)) :
    Act.WritesAlike (MemoryStore.Mirrors (.ofKeys keys) policy layout)
      (MemoryStore.store.batchWrite { input with requests := sent })
      (MemoryStore.store.batchWrite input) := by
  intro hidden plain mirrors
  obtain ⟨_, hiddenAfter, _, plainAfter, hiddenRuns, plainRuns, mirrorsAfter⟩ :=
    mirrors.batchChanges related
  have sends : (MemoryStore.store.batchWrite { input with requests := sent }).runFrom hidden =
      (.ok {}, hiddenAfter) := Act.runFrom_bind_of_ok hiddenRuns
  rw [sends]
  exact ⟨plainAfter, Act.runFrom_bind_of_ok plainRuns, mirrorsAfter⟩

theorem writesAlike_batchWrite (arrangement : Arrangement) (nonces : String → Nat → ItemNonces)
    (input : BatchWriteInput) :
    Act.WritesAlike (Session.Mirrors keys policy layout)
      ((overMemory keys policy).batchWrite none arrangement nonces input)
      (MemoryStore.store.batchWrite input) := by
  have keeps : ∀ plain name requests, Act.Keeps (Session.Mirrors keys policy layout · plain)
      ((overMemory keys policy).sealWrites none nonces name requests) :=
    fun _ => keeps_sealWrites nonces
  apply Act.WritesAlike.prepared
  · exact fun plain => Act.Keeps.optionMapM (Act.Keeps.mapArrangedM (keeps plain)) _
  · intro session plain after sent mirrors seals
    apply Act.WritesAlike.call
    apply writesAlike_sent
    intro name
    rcases input with ⟨requests, capacity, metrics⟩
    cases Act.runFrom_optionMapM_eq_ok seals with
    | none => exact .none
    | some sealing =>
        refine (Act.get?_of_runFrom_mapArrangedM (keeps plain) mirrors sealing name).imp ?_
        rintro writes sentWrites ⟨before, later, mirrorsBefore, sealing⟩
        exact sealOf_of_sealWrites mirrorsBefore sealing

/-! ## Reads -/

theorem keeps_unsealResponse (name : String) (items : List Item) :
    Act.Keeps (Session.Mirrors keys policy layout · plain)
      ((overMemory keys policy).unsealResponse none name items) := by
  refine (keeps_config name).bind_of_ok fun mirrors configures => ?_
  obtain ⟨table, -, rfl⟩ := exists_of_runFrom_config mirrors configures
  have fixed : (viewOf keys policy name table).config.provider = .ofKeys keys := rfl
  exact (Act.Keeps.mapM (Item.keeps_unsealWith fixed _) _).call

theorem keeps_batchGet (arrangement : Arrangement) (input : BatchGetInput) :
    Act.Keeps (Session.Mirrors keys policy layout · plain)
      ((overMemory keys policy).batchGet none arrangement input) := by
  refine .bind (.liftM _) fun _ => .bind (Act.Keeps.call ?_) fun output => ?_
  · exact .bind (.mapEntriesM (fun name _ => (MemoryStore.keeps_table _ name).bind fun _ =>
      .pure _) _)
      fun _ => .pure _
  · exact .bind (.optionMapM (.mapArrangedM keeps_unsealResponse) _) fun _ => .pure _

/-- What came from a table is unsealed to what the mirrored table gives. -/
theorem runFrom_unsealResponse (mirrors : session.Mirrors keys policy layout plain)
    (found : layout.get? name = some table) {stores items : List Item}
    (related : List.Forall₂ (Item.SealOf (viewOf keys policy name table).config) stores items) :
    ∃ after : Session MemoryStore, after.Mirrors keys policy layout plain ∧
      ((overMemory keys policy).unsealResponse none name stores).runFrom session =
        (.ok (items.map (layout.readBack policy name)), after) := by
  obtain ⟨between, stands, configures⟩ :=
    runFrom_config mirrors.stands mirrors.tables.laidOut name
  rw [found] at configures
  obtain ⟨after, standsAfter, unseals⟩ :=
    stands.runFrom_call (SealedTable.runFrom_unsealAll rfl found related session.world)
  exact ⟨after, standsAfter.mirrors mirrors.tables,
    (Act.runFrom_bind_of_ok configures).trans unseals⟩

/-- What came from the sealed tables is unsealed to what the plain ones have. -/
theorem runFrom_unsealBatch (mirrors : session.Mirrors keys policy layout plain)
    {arrangement : Arrangement} {requests : NameMap KeysRequest}
    (exist : ∀ name ∈ requests.names, ∃ table, layout.get? name = some table) :
    ∃ after : Session MemoryStore, after.Mirrors keys policy layout plain ∧
      (NameMap.mapArrangedM arrangement ((overMemory keys policy).unsealResponse none)
          (session.world.batchFound requests)).runFrom session =
        (.ok ((plain.batchFound requests).mapEntries fun name items =>
          items.map (layout.readBack policy name)), after) := by
  -- The answer for a name is told from the plain tables, whatever came from the sealed one.
  let answer : String → List Item → List Item := fun name _ =>
    (((plain.batchFound requests).get? name).getD []).map (layout.readBack policy name)
  have unseals : ∀ name stores, (session.world.batchFound requests).get? name = some stores →
      ∀ later : Session MemoryStore, later.Mirrors keys policy layout plain →
        ∃ after : Session MemoryStore, after.Mirrors keys policy layout plain ∧
          ((overMemory keys policy).unsealResponse none name stores).runFrom later =
            (.ok (answer name stores), after) := by
    intro name stores inHidden later mirrorsLater
    have requested := inHidden
    rw [MemoryStore.get?_batchFound, Option.map_eq_some_iff] at requested
    obtain ⟨request, requested, -⟩ := requested
    obtain ⟨table, found⟩ := exist name (Ascending.mem_names_iff.2 ⟨request, requested⟩)
    have related := mirrors.tables.batchFound found requests
    cases inPlain : (plain.batchFound requests).get? name with
    | none =>
        rw [inHidden, inPlain] at related
        cases related
    | some items =>
        rw [inHidden, inPlain] at related
        obtain ⟨related⟩ := related
        simp only [answer, inPlain, Option.getD_some]
        exact runFrom_unsealResponse mirrorsLater found related
  have answers : (session.world.batchFound requests).mapEntries answer =
      (plain.batchFound requests).mapEntries fun name items =>
        items.map (layout.readBack policy name) := by
    apply Ascending.ext_get?
    intro name
    simp only [Ascending.get?_mapEntries, MemoryStore.get?_batchFound, answer]
    cases requests.get? name <;> rfl
  rw [← answers]
  exact Act.runFrom_mapArrangedM_eq unseals mirrors

theorem readsAlike_batchGet {arrangement : Arrangement} {input : BatchGetInput}
    (whole : checkReads arrangement (input.requests.getD ∅) = .ok ())
    (exist : ∀ name ∈ (input.requests.getD ∅).names, ∃ table, layout.get? name = some table) :
    Act.ReadsAlike (Session.Mirrors keys policy layout)
      (BatchGetOutput.mapItems (layout.readBack policy))
      ((overMemory keys policy).batchGet none arrangement input)
      (MemoryStore.store.batchGet input) := by
  refine Act.ReadsAlike.guarded ?_ whole
  intro session plain mirrors
  have hiddenReads := MemoryStore.runFrom_batchGet fun name asked =>
    mirrors.tables.exists_hidden (exist name asked)
  have plainReads := MemoryStore.runFrom_batchGet fun name asked =>
    mirrors.tables.exists_plain (exist name asked)
  have calls : (Session.call (MemoryStore.store.batchGet input)).runFrom session =
      (.ok { responses := some (session.world.batchFound (input.requests.getD ∅)) },
        session) := by
    rw [Session.runFrom_call, hiddenReads]
  obtain ⟨after, mirrorsAfter, unseals⟩ := runFrom_unsealBatch mirrors exist
  refine ⟨_, after, plainReads, ?_, mirrorsAfter⟩
  exact (Act.runFrom_bind_of_ok calls).trans
    (Act.runFrom_bind_of_ok (Act.runFrom_mapM_some unseals))

end SealedStore

end ItemSeal
