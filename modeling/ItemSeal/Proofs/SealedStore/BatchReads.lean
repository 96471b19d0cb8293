import ItemSeal.Proofs.SealedStore.RequestLog

/-!
Batches of reads, all or nothing, over any store. A batch that does not ask for whole items is
refused before the store hears of it. Else the store gets the batch as it is. What it found is
given only if every table in its answer, in whatever order they come, has a configuration, and
every item is unsealed, each in its place (`SealedStore.batchGet_allOrNothing`).
-/

namespace ItemSeal

/-! ## Whole items -/

/-- All parts of the batch ask for whole items: none names attributes to
give, or has a projection. -/
def BatchGetInput.AsksForWhole (input : BatchGetInput) : Prop :=
  ∀ table request, (input.requests.getD ∅).get? table = some request →
    request.options.attributesToGet.getD [] = [] ∧ request.options.projection = none

theorem ReadOptions.check_none_eq_ok_iff {options : ReadOptions} :
    options.check none = .ok () ↔
      options.attributesToGet.getD [] = [] ∧ options.projection = none := by
  rcases options with ⟨_ | _ | ⟨name, names⟩, _ | projection, consistent, aliases⟩ <;>
    simp [check, checkAttributes, checkProjection, pure, Except.pure, bind, Except.bind]

theorem ReadOptions.kind_of_check_none {options : ReadOptions} {error : Error}
    (refuses : options.check none = .error error) : error.kind = .validation := by
  rcases options with ⟨_ | _ | ⟨name, names⟩, _ | projection, consistent, aliases⟩ <;>
    cases refuses <;> rfl

namespace SealedStore

variable {σ : Type}

/-- A batch is refused unless it asks for whole items. -/
theorem checkReads_eq_ok_iff {arrangement : Arrangement} {input : BatchGetInput} :
    checkReads arrangement (input.requests.getD ∅) = .ok () ↔ input.AsksForWhole := by
  rw [checkReads, Except.forM_eq_ok_iff]
  simp only [ReadOptions.check_none_eq_ok_iff]
  constructor
  · intro whole table request found
    exact whole (table, request) (NameMap.mem_arranged_iff.2 found)
  · intro whole (table, request) member
    exact whole table request (NameMap.mem_arranged_iff.1 member)

theorem kind_of_checkReads {arrangement : Arrangement} {requests : NameMap KeysRequest}
    {error : Error} (refuses : checkReads arrangement requests = .error error) :
    error.kind = .validation := by
  obtain ⟨request, -, refuses⟩ := Except.exists_of_forM_eq_error refuses
  exact ReadOptions.kind_of_check_none refuses

/-! ## Turns -/

/-- What came from the table has its turn in that session: what came from all tables
before it is unsealed. -/
def ReadsTurn (sealed : SealedStore σ) (override : Option (SealConfig σ))
    (arrangement : Arrangement) (found : BatchGetOutput) (session : Session σ) (table : String)
    (items : List Item) (turn : Session σ) : Prop :=
  Act.EntryTurn arrangement (sealed.unsealResponse override)
    (found.responses.getD ∅) session table items turn

/-- The item at that place has its turn in that world: all items of the table
before it are unsealed. -/
def ItemTurn (config : SealConfig σ) (items : List Item) (start : σ) (place : Nat) (item : Item)
    (world : σ) : Prop :=
  Act.Turn (Item.unsealWith config) items start place item world

/-- What came from a table can be given: it has a configuration, and every item is
unsealed when its turn comes. -/
def TableReadable (sealed : SealedStore σ) (override : Option (SealConfig σ)) (table : String)
    (items : List Item) (turn : Session σ) : Prop :=
  ∃ config resolved, (sealed.config override table).runFrom turn = (.ok config, resolved) ∧
    ∀ place item world, ItemTurn config items resolved.world place item world →
      ∃ result after, (Item.unsealWith config item).runFrom world = (.ok result, after)

/-- What is given of a table: each item is unsealed in its place, under the configuration that the
table has when its turn comes, given the schema that is remembered of it. -/
def TableRead (sealed : SealedStore σ) (override : Option (SealConfig σ)) (table : String)
    (remembered : Option TableSchema) (turn : Session σ) (items results : List Item) : Prop :=
  ∃ config resolved,
    sealed.ConfigFrom override table remembered turn.world config ∧
    (sealed.config override table).runFrom turn = (.ok config, resolved) ∧
    results.length = items.length ∧
    ∀ place item, items[place]? = some item → ∃ world result after,
      ItemTurn config items resolved.world place item world ∧
      (Item.unsealWith config item).runFrom world = (.ok result, after) ∧
        results[place]? = some result

section Tables

variable {sealed : SealedStore σ} {override : Option (SealConfig σ)} {table : String}
  {items results : List Item} {turn after : Session σ}

theorem exists_unsealResponse_iff :
    (∃ results after, (sealed.unsealResponse override table items).runFrom turn =
      (.ok results, after)) ↔
      sealed.TableReadable override table items turn := by
  constructor
  · intro ⟨results, after, runs⟩
    obtain ⟨config, resolved, resolves, unseals⟩ := Act.runFrom_bind_eq_ok_iff.1 runs
    exact ⟨config, resolved, resolves,
      Act.exists_runFrom_mapM_eq_ok_iff.1 ⟨results, after.world,
        Session.runFrom_call_eq_ok unseals⟩⟩
  · intro ⟨config, resolved, resolves, allUnsealed⟩
    obtain ⟨results, world, unseals⟩ := Act.exists_runFrom_mapM_eq_ok_iff.2 allUnsealed
    refine ⟨results, { resolved with world }, (Act.runFrom_bind_of_ok resolves).trans ?_⟩
    rw [Session.runFrom_call, SealedTable.unsealAll, unseals]

theorem tableRead_of_runFrom
    (runs : (sealed.unsealResponse override table items).runFrom turn = (.ok results, after)) :
    sealed.TableRead override table (turn.schemas.get? table) turn items results := by
  obtain ⟨config, resolved, resolves, unseals⟩ := Act.runFrom_bind_eq_ok_iff.1 runs
  obtain ⟨length, turns⟩ := Act.exists_turn_of_runFrom_mapM (Session.runFrom_call_eq_ok unseals)
  refine ⟨config, resolved, configFrom_of_runFrom resolves, resolves, length, ?_⟩
  intro place item found
  obtain ⟨world, result, later, reached, unsealed, placed⟩ := turns place item found
  exact ⟨world, result, later, reached, unsealed, placed⟩

end Tables

/-! ## Whole batches -/

section Batches

variable {sealed : SealedStore σ} {override : Option (SealConfig σ)} {arrangement : Arrangement}
  {found output : BatchGetOutput} {session after : Session σ}

/-- What a batch found, unsealed. -/
def unsealBatch (sealed : SealedStore σ) (override : Option (SealConfig σ))
    (arrangement : Arrangement) (found : BatchGetOutput) : Act (Session σ) BatchGetOutput := do
  let responses ← found.responses.mapM
    (NameMap.mapArrangedM arrangement (sealed.unsealResponse override))
  return { found with responses }

theorem exists_unsealBatch_iff :
    (∃ output after, (sealed.unsealBatch override arrangement found).runFrom session =
      (.ok output, after)) ↔
      ∀ table items turn, sealed.ReadsTurn override arrangement found session table items turn →
        sealed.TableReadable override table items turn := by
  simp only [← exists_unsealResponse_iff, ReadsTurn]
  rw [← Act.exists_runFrom_optionMapArrangedM_eq_ok_iff]
  constructor
  · intro ⟨output, after, runs⟩
    obtain ⟨responses, between, unseals, built⟩ := Act.runFrom_bind_eq_ok_iff.1 runs
    exact ⟨responses, between, unseals⟩
  · intro ⟨responses, after, unseals⟩
    exact ⟨{ found with responses }, after, Act.runFrom_bind_of_ok unseals⟩

/-- Unsealing what came from other tables does not touch what is remembered of a table. -/
theorem remembered_of_readsTurn {table : String} {items : List Item} {turn : Session σ}
    (reached : sealed.ReadsTurn override arrangement found session table items turn) :
    turn.schemas.get? table = session.schemas.get? table :=
  reached.keeps_of_ne (fun _ _ different => keeps_remembered_of_ne different _ _) rfl

/-- What is given of a batch: the tables that the store's answer has, each item unsealed in its
place, with the rest of the answer as it came. -/
structure BatchRead (sealed : SealedStore σ) (override : Option (SealConfig σ))
    (arrangement : Arrangement) (found : BatchGetOutput) (session : Session σ)
    (output : BatchGetOutput) : Prop where
  names : output.responses.map Ascending.names = found.responses.map Ascending.names
  tables : ∀ table items, (found.responses.getD ∅).get? table = some items → ∃ turn results,
    sealed.ReadsTurn override arrangement found session table items turn ∧
    sealed.TableRead override table (session.schemas.get? table) turn items results ∧
    (output.responses.getD ∅).get? table = some results
  unprocessed : output.unprocessed = found.unprocessed
  consumed : output.consumed = found.consumed

theorem batchRead_of_runFrom
    (runs :
      (sealed.unsealBatch override arrangement found).runFrom session = (.ok output, after)) :
    sealed.BatchRead override arrangement found session output := by
  obtain ⟨responses, between, loops, built⟩ := Act.runFrom_bind_eq_ok_iff.1 runs
  cases built
  obtain ⟨names, turns⟩ := Act.exists_turn_of_runFrom_optionMapArrangedM loops
  refine ⟨names, ?_, rfl, rfl⟩
  intro table items present
  obtain ⟨turn, results, later, reached, unseals, given⟩ := turns table items present
  have tableRead := tableRead_of_runFrom unseals
  rw [remembered_of_readsTurn reached] at tableRead
  exact ⟨turn, results, reached, tableRead, given⟩

/-- Unsealing what was found asks for descriptions of its tables only. -/
theorem notes_unsealBatch (sealed : SealedStore σ) (override : Option (SealConfig σ))
    (arrangement : Arrangement) (found : BatchGetOutput) :
    Act.Notes Session.withLog (fun request =>
      ∃ table ∈ (found.responses.getD ∅).names, request = .describe table) id
      (sealed.unsealBatch override arrangement found)
      (sealed.logged.unsealBatch (override.map SealConfig.logged) arrangement found) := by
  refine Act.Notes.bind (Act.Notes.optionMapM fun responses answered =>
    Act.Notes.mapArrangedM ?_) fun _ => .pure _
  intro table items present
  refine (sealed.notes_unsealResponse override table items).mono fun request same =>
    ⟨table, ?_, same⟩
  rw [answered, Option.getD_some, Ascending.mem_names_iff]
  exact ⟨items, present⟩

/-- A batch that is refused is not asked for. -/
theorem runFrom_batchGet_of_refused {input : BatchGetInput} (refused : ¬ input.AsksForWhole)
    (log : List StoreRequest) :
    ∃ error, error.kind = .validation ∧
      (sealed.logged.batchGet (override.map SealConfig.logged) arrangement input).runFrom
        (session.withLog log) =
        (.error error, session.withLog log) := by
  cases checked : checkReads arrangement (input.requests.getD ∅) with
  | error error =>
      refine ⟨error, kind_of_checkReads checked, Act.runFrom_bind_of_error ?_⟩
      rw [Act.runFrom_liftM, checked]
  | ok => exact absurd (checkReads_eq_ok_iff.1 checked) refused

/-- A batch that asks for whole items is asked for, and what is found is unsealed. -/
theorem runFrom_batchGet_of_whole {input : BatchGetInput} (whole : input.AsksForWhole)
    (log : List StoreRequest) :
    (sealed.logged.batchGet (override.map SealConfig.logged) arrangement input).runFrom
      (session.withLog log) =
      match (sealed.store.batchGet input).runFrom session.world with
      | (.error error, world) =>
          (.error error, Session.withLog { session with world } (log ++ [.batchGet input]))
      | (.ok found, world) =>
          (sealed.logged.unsealBatch (override.map SealConfig.logged) arrangement found).runFrom
            (Session.withLog { session with world } (log ++ [.batchGet input])) := by
  have passes : (liftM (checkReads arrangement (input.requests.getD ∅)) :
      Act (Session (σ × List StoreRequest)) Unit).runFrom (session.withLog log) =
        (.ok (), session.withLog log) := by
    rw [Act.runFrom_liftM, checkReads_eq_ok_iff.2 whole]
  have asks : (Session.call (sealed.logged.store.batchGet input)).runFrom (session.withLog log) =
      (((sealed.store.batchGet input).runFrom session.world).1,
        Session.withLog
          { session with world := ((sealed.store.batchGet input).runFrom session.world).2 }
          (log ++ [.batchGet input])) := rfl
  rcases answers : (sealed.store.batchGet input).runFrom session.world with
    ⟨error | found, world⟩ <;>
    rw [answers] at asks
  · exact (Act.runFrom_bind_of_ok passes).trans (Act.runFrom_bind_of_error asks)
  · exact (Act.runFrom_bind_of_ok passes).trans (Act.runFrom_bind_of_ok asks)

/-- A batch of reads is checked whole before anything is asked. If some part of it does not ask
for whole items, the call is refused as malformed, and nothing else happens. Else the store is
asked for the batch as it is, and what it found is given exactly if each of its tables has a
configuration and each of its items is unsealed, when their turn comes: the same tables, every
item unsealed in its place, and the rest as it came. All that is asked of the store after that is
descriptions of the tables that it found. -/
theorem batchGet_allOrNothing (sealed : SealedStore σ) (override : Option (SealConfig σ))
    (arrangement : Arrangement) (input : BatchGetInput) (session : Session σ)
    (log : List StoreRequest) :
    (¬ input.AsksForWhole ∧ ∃ error, error.kind = .validation ∧
        (sealed.logged.batchGet (override.map SealConfig.logged) arrangement input).runFrom
          (session.withLog log) =
          (.error error, session.withLog log)) ∨
      input.AsksForWhole ∧
        ((∃ error world,
            (sealed.store.batchGet input).runFrom session.world = (.error error, world) ∧
            (sealed.logged.batchGet (override.map SealConfig.logged) arrangement input).runFrom
              (session.withLog log) =
              (.error error, Session.withLog { session with world } (log ++ [.batchGet input]))) ∨
          ∃ found world outcome, ∃ (after : Session σ) (described : List StoreRequest),
            (sealed.store.batchGet input).runFrom session.world = (.ok found, world) ∧
            (sealed.logged.batchGet (override.map SealConfig.logged) arrangement input).runFrom
              (session.withLog log) =
              (outcome, after.withLog (log ++ [.batchGet input] ++ described)) ∧
            (∀ request ∈ described, ∃ table ∈ (found.responses.getD ∅).names,
              request = .describe table) ∧
            ((∃ output, outcome = .ok output) ↔
              ∀ table items turn, sealed.ReadsTurn override arrangement found
                { session with world } table items turn →
                sealed.TableReadable override table items turn) ∧
            ∀ output, outcome = .ok output →
              sealed.BatchRead override arrangement found { session with world } output) := by
  by_cases whole : input.AsksForWhole
  · refine .inr ⟨whole, ?_⟩
    rcases answers : (sealed.store.batchGet input).runFrom session.world with
      ⟨error | found, world⟩
    · exact .inl ⟨error, world, rfl, by rw [runFrom_batchGet_of_whole whole, answers]⟩
    · obtain ⟨described, describes, unsealed⟩ :=
        notes_unsealBatch sealed override arrangement found { session with world }
      rcases unseals :
        (sealed.unsealBatch override arrangement found).runFrom { session with world } with
        ⟨outcome, after⟩
      rw [unseals, Except.map_id] at unsealed
      refine .inr ⟨found, world, outcome, after, described, rfl, ?_, describes, ?_, ?_⟩
      · rw [runFrom_batchGet_of_whole whole, answers]
        exact unsealed _
      · rw [← exists_unsealBatch_iff, unseals]
        simp
      · intro output given
        subst given
        exact batchRead_of_runFrom unseals
  · exact .inl ⟨whole, runFrom_batchGet_of_refused whole log⟩

end Batches

end SealedStore

end ItemSeal
