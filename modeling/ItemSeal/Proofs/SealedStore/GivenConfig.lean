import ItemSeal.Proofs.SealedStore.BatchReads
import ItemSeal.Proofs.SealedStore.BatchWrites

/-!
Batches with a configuration given for the call. Such a batch is an action on the world alone
(`SealedStore.sealBatch_given`, `SealedStore.unsealBatch_given`): nothing is looked up, remembered
or noted, and the provider, the policy and the cache of the sealed store have no part in it.
Sealed stores over one store therefore ask the same and answer the same
(`SealedStore.batches_given`).
-/

namespace ItemSeal

variable {σ α β : Type}

/-! ## Actions on the world alone -/

namespace Session

/-- Two actions on the world alone, one after the other, are one. -/
theorem call_bind (act : Act σ α) (next : α → Act σ β) :
    (call act >>= fun a => call (next a)) = call (act >>= next) := by
  funext session
  change (call act >>= fun a => call (next a)).runFrom session =
    (call (act >>= next)).runFrom session
  rw [Act.runFrom_bind, runFrom_call, runFrom_call, Act.runFrom_bind]
  rcases act.runFrom session.world with ⟨error | a, between⟩ <;> rfl

theorem call_pure (a : α) : (call (pure a) : Act (Session σ) α) = pure a := rfl

theorem call_mapM (step : α → Act σ β) (list : List α) :
    (list.mapM fun a => call (step a)) = call (list.mapM step) := by
  induction list with
  | nil => rfl
  | cons first rest ih =>
      rw [List.mapM_cons, List.mapM_cons, ih, ← call_bind]
      simp only [← call_bind, call_pure]

theorem call_mapArrangedM (arrangement : Arrangement) (step : String → α → Act σ β)
    (map : NameMap α) :
    map.mapArrangedM arrangement (fun name a => call (step name a)) =
      call (map.mapArrangedM arrangement step) := by
  have changes : NameMap.changeEntryM (fun name a => call (step name a)) =
      fun entry => call (NameMap.changeEntryM step entry) := by
    funext entry
    exact call_bind (step entry.1 entry.2) fun b => pure (entry.1, b)
  rw [NameMap.mapArrangedM, NameMap.mapArrangedM, changes, call_mapM, ← call_bind]
  rfl

theorem call_optionMapM (step : α → Act σ β) (option : Option α) :
    (option.mapM fun a => call (step a)) = call (option.mapM step) := by
  cases option with
  | none => rfl
  | some a =>
      rw [Option.mapM_some, Option.mapM_some, map_eq_pure_bind, map_eq_pure_bind, ← call_bind]
      rfl

end Session

namespace SealedStore

variable {sealed : SealedStore σ} {store : Store σ} {config : SealConfig σ} {world after : σ}

/-! ## Writes -/

section Writes

variable {arrangement : Arrangement} {nonces : String → Nat → ItemNonces}
  {input : BatchWriteInput} {sent : Option (NameMap (List WriteRequest))}

/-- The writes of a batch sealed under one configuration, whatever tables they are for. -/
def sealBatchUnder (config : SealConfig σ) (arrangement : Arrangement)
    (nonces : String → Nat → ItemNonces) (input : BatchWriteInput) :
    Act σ (Option (NameMap (List WriteRequest))) :=
  input.requests.mapM <| NameMap.mapArrangedM arrangement fun table requests =>
    requests.zipIdx.mapM fun (request, place) => sealWrite config (nonces table place) request

/-- Sealing a batch with a configuration given for the call is done to the world alone. -/
theorem sealBatch_given (sealed : SealedStore σ) (config : SealConfig σ)
    (arrangement : Arrangement) (nonces : String → Nat → ItemNonces) (input : BatchWriteInput) :
    sealed.sealBatch (some config) arrangement nonces input =
      Session.call (sealBatchUnder config arrangement nonces input) := by
  have tableSealed : sealed.sealWrites (some config) nonces = fun table requests =>
      Session.call (requests.zipIdx.mapM fun (request, place) =>
        sealWrite config (nonces table place) request) := rfl
  unfold sealBatch sealBatchUnder
  rw [tableSealed]
  rw [← Session.call_optionMapM]
  simp only [← Session.call_mapArrangedM]

/-- What is sent in place of a batch: the same tables and places, with each write sealed
under the configuration. -/
structure BatchSealedUnder (config : SealConfig σ) (nonces : String → Nat → ItemNonces)
    (input : BatchWriteInput) (sent : Option (NameMap (List WriteRequest))) : Prop where
  names : sent.map Ascending.names = input.requests.map Ascending.names
  tables : ∀ table requests, (input.requests.getD ∅).get? table = some requests → ∃ sentRequests,
    (sent.getD ∅).get? table = some sentRequests ∧ sentRequests.length = requests.length ∧
    ∀ place request, requests[place]? = some request → ∃ turn sentRequest,
      WriteSealed config (nonces table place) turn request sentRequest ∧
        sentRequests[place]? = some sentRequest

theorem batchSealedUnder_of_runFrom
    (seals : (sealBatchUnder config arrangement nonces input).runFrom world = (.ok sent, after)) :
    BatchSealedUnder config nonces input sent := by
  obtain ⟨names, turns⟩ := Act.exists_turn_of_runFrom_optionMapArrangedM seals
  refine ⟨names, ?_⟩
  intro table requests found
  obtain ⟨start, sentRequests, later, -, loops, result⟩ := turns table requests found
  obtain ⟨length, turns⟩ := Act.exists_turn_of_runFrom_mapM loops
  refine ⟨sentRequests, result, by simpa using length, ?_⟩
  intro place request placed
  obtain ⟨turn, sentRequest, later, -, seals, result⟩ :=
    turns place (request, place) (by simp [placed])
  exact ⟨turn, sentRequest, writeSealed_of_runFrom seals, result⟩

/-- Some item of the batch is not sealed under the configuration, and this is how it fails. -/
def PutFails (config : SealConfig σ) (nonces : String → Nat → ItemNonces)
    (input : BatchWriteInput) (error : Error) (after : σ) : Prop :=
  ∃ (table : String) (requests : List WriteRequest) (place : Nat) (request : WriteRequest)
    (item : Item) (turn : σ),
    (input.requests.getD ∅).get? table = some requests ∧ requests[place]? = some request ∧
      request.put = some item ∧
    (item.sealWith config (nonces table place)).runFrom turn = (.error error, after)

theorem putFails_of_runFrom {error : Error}
    (fails :
      (sealBatchUnder config arrangement nonces input).runFrom world = (.error error, after)) :
    PutFails config nonces input error after := by
  obtain ⟨table, requests, start, reached, fails⟩ :=
    Act.runFrom_optionMapArrangedM_eq_error_iff.1 fails
  obtain ⟨place, ⟨request, number⟩, turn, placed, fails⟩ := Act.runFrom_mapM_eq_error_iff.1 fails
  obtain ⟨item, puts, unsealed⟩ := runFrom_sealWrite_eq_error_iff.1 fails
  -- The number beside a write is its place, so the nonces are those of that place.
  have found := placed.getElem?
  simp only [List.getElem?_zipIdx, Option.map_eq_some_iff, Prod.mk.injEq, Nat.zero_add] at found
  obtain ⟨_, here, rfl, rfl⟩ := found
  exact ⟨table, requests, place, _, item, turn, reached.get?, here, puts, unsealed⟩

/-- How a batch of writes goes under one configuration: either an item is not sealed, and nothing
is sent, or the store gets the batch with every item sealed, and its answer is the answer. -/
inductive WritesUnder (store : Store σ) (config : SealConfig σ) (arrangement : Arrangement)
    (nonces : String → Nat → ItemNonces) (input : BatchWriteInput) (world : σ) :
    Except Error BatchWriteOutput → σ → List StoreRequest → Prop where
  | refused {error : Error} {after : σ}
      (unsealed :
        (sealBatchUnder config arrangement nonces input).runFrom world = (.error error, after))
      (fails : PutFails config nonces input error after) :
      WritesUnder store config arrangement nonces input world (.error error) after []
  | sent {sent : Option (NameMap (List WriteRequest))} {between after : σ}
      {outcome : Except Error BatchWriteOutput}
      (runs :
        (sealBatchUnder config arrangement nonces input).runFrom world = (.ok sent, between))
      (seals : BatchSealedUnder config nonces input sent)
      (answers :
        (store.batchWrite { input with requests := sent }).runFrom between = (outcome, after)) :
      WritesUnder store config arrangement nonces input world outcome after
        [.batchWrite { input with requests := sent }]

/-- Sealing under one configuration asks the store for nothing. -/
theorem notes_sealBatchUnder (config : SealConfig σ) (arrangement : Arrangement)
    (nonces : String → Nat → ItemNonces) (input : BatchWriteInput) :
    Act.Notes Prod.mk (fun _ => False) id (sealBatchUnder config arrangement nonces input)
      (sealBatchUnder config.logged arrangement nonces input) := by
  refine Act.Notes.optionMapM fun tables _ => Act.Notes.mapArrangedM fun table requests _ =>
    Act.Notes.mapM ?_
  intro (request, place) _
  refine (Act.Notes.optionMapM fun item _ =>
    Item.notes_sealWith config (nonces table place) item).bind fun put => ?_
  exact .pure { request with put }

/-- A batch of writes with a configuration given for the call goes as it does under that
configuration, from any session over the world and through any sealed store over the store, which
remember and note what they did before. -/
theorem runFrom_batchWrite_given (store : Store σ) (config : SealConfig σ)
    (arrangement : Arrangement) (nonces : String → Nat → ItemNonces) (input : BatchWriteInput)
    (world : σ) (log : List StoreRequest) :
    ∃ outcome after requests,
      WritesUnder store config arrangement nonces input world outcome after requests ∧
      ∀ (sealed : SealedStore σ) (session : Session σ), sealed.store = store →
        session.world = world →
        (sealed.logged.batchWrite (some config.logged) arrangement nonces input).runFrom
          (session.withLog log) =
          (outcome, Session.withLog { session with world := after } (log ++ requests)) := by
  obtain ⟨none, asksNothing, notes⟩ := notes_sealBatchUnder config arrangement nonces input world
  obtain rfl : none = [] := List.eq_nil_iff_forall_not_mem.2 asksNothing
  have sealing : ∀ (sealed : SealedStore σ) (session : Session σ), session.world = world →
      (sealed.logged.sealBatch (some config.logged) arrangement nonces input).runFrom
        (session.withLog log) =
        (((sealBatchUnder config arrangement nonces input).runFrom world).1,
          Session.withLog
            { session with
              world := ((sealBatchUnder config arrangement nonces input).runFrom world).2 }
            log) := by
    intro sealed session same
    have noted := notes log
    rw [Except.map_id, List.append_nil, id] at noted
    rw [sealBatch_given, Session.runFrom_call, Session.withLog, same, noted]
    rfl
  rcases runs : (sealBatchUnder config arrangement nonces input).runFrom world with
    ⟨error | sent, between⟩ <;>
    simp only [runs] at sealing
  · refine ⟨.error error, between, [], .refused runs (putFails_of_runFrom runs), ?_⟩
    rintro sealed session rfl same
    rw [List.append_nil]
    exact Act.runFrom_bind_of_error (sealing sealed session same)
  · refine ⟨_, _, _, .sent runs (batchSealedUnder_of_runFrom runs) rfl, ?_⟩
    rintro sealed session rfl same
    exact (Act.runFrom_bind_of_ok (sealing sealed session same)).trans rfl

end Writes

/-! ## Reads -/

section Reads

variable {arrangement : Arrangement} {input : BatchGetInput} {found output : BatchGetOutput}

/-- What a batch found unsealed under one configuration, whatever tables it came from. -/
def unsealBatchUnder (config : SealConfig σ) (arrangement : Arrangement)
    (found : BatchGetOutput) :
    Act σ BatchGetOutput := do
  let responses ← found.responses.mapM <| NameMap.mapArrangedM arrangement fun _ items =>
    SealedTable.unsealAll config items
  return { found with responses }

/-- Unsealing what a batch found with a configuration given for the call is
done to the world alone. -/
theorem unsealBatch_given (sealed : SealedStore σ) (config : SealConfig σ)
    (arrangement : Arrangement) (found : BatchGetOutput) :
    sealed.unsealBatch (some config) arrangement found =
      Session.call (unsealBatchUnder config arrangement found) := by
  have tableUnsealed : sealed.unsealResponse (some config) = fun _ items =>
      Session.call (SealedTable.unsealAll config items) := rfl
  unfold unsealBatch unsealBatchUnder
  rw [tableUnsealed]
  rw [← Session.call_bind, ← Session.call_optionMapM]
  simp only [← Session.call_mapArrangedM, Session.call_pure]

/-- What is given of a batch: the same tables and places, with each item unsealed under the
configuration, and the rest as it was found. -/
structure BatchReadUnder (config : SealConfig σ) (found output : BatchGetOutput) : Prop where
  names : output.responses.map Ascending.names = found.responses.map Ascending.names
  tables : ∀ table items, (found.responses.getD ∅).get? table = some items → ∃ results,
    (output.responses.getD ∅).get? table = some results ∧ results.length = items.length ∧
    ∀ (place : Nat) item, items[place]? = some item → ∃ turn result later,
      (Item.unsealWith config item).runFrom turn = (.ok result, later) ∧
        results[place]? = some result
  unprocessed : output.unprocessed = found.unprocessed
  consumed : output.consumed = found.consumed

theorem batchReadUnder_of_runFrom
    (runs : (unsealBatchUnder config arrangement found).runFrom world = (.ok output, after)) :
    BatchReadUnder config found output := by
  obtain ⟨responses, between, loops, built⟩ := Act.runFrom_bind_eq_ok_iff.1 runs
  cases built
  obtain ⟨names, turns⟩ := Act.exists_turn_of_runFrom_optionMapArrangedM loops
  refine ⟨names, ?_, rfl, rfl⟩
  intro table items present
  obtain ⟨start, results, later, -, unseals, given⟩ := turns table items present
  obtain ⟨length, turns⟩ := Act.exists_turn_of_runFrom_mapM unseals
  refine ⟨results, given, length, ?_⟩
  intro place item placed
  obtain ⟨turn, result, later, -, unsealed, given⟩ := turns place item placed
  exact ⟨turn, result, later, unsealed, given⟩

/-- Some item that was found is not unsealed under the configuration, and this is how it fails. -/
def ItemFails (config : SealConfig σ) (found : BatchGetOutput) (error : Error) (after : σ) :
    Prop :=
  ∃ (table : String) (items : List Item) (place : Nat) (item : Item) (turn : σ),
    (found.responses.getD ∅).get? table = some items ∧ items[place]? = some item ∧
    (Item.unsealWith config item).runFrom turn = (.error error, after)

theorem itemFails_of_runFrom {error : Error}
    (fails : (unsealBatchUnder config arrangement found).runFrom world = (.error error, after)) :
    ItemFails config found error after := by
  rcases Act.runFrom_bind_eq_error_iff.1 fails with loops | ⟨responses, between, -, built⟩
  · obtain ⟨table, items, start, reached, fails⟩ :=
      Act.runFrom_optionMapArrangedM_eq_error_iff.1 loops
    obtain ⟨place, item, turn, placed, fails⟩ := Act.runFrom_mapM_eq_error_iff.1 fails
    exact ⟨table, items, place, item, turn, reached.get?, placed.getElem?, fails⟩
  · cases built

/-- How a batch of reads goes under one configuration: it is malformed, and nothing is asked; or
the store refuses it; or an item that the store found is not unsealed; or all are. -/
inductive ReadsUnder (store : Store σ) (config : SealConfig σ) (arrangement : Arrangement)
    (input : BatchGetInput) (world : σ) :
    Except Error BatchGetOutput → σ → List StoreRequest → Prop where
  | malformed {error : Error} (notWhole : ¬ input.AsksForWhole)
      (kind : error.kind = .validation) :
      ReadsUnder store config arrangement input world (.error error) world []
  | refused {error : Error} {after : σ} (whole : input.AsksForWhole)
      (answers : (store.batchGet input).runFrom world = (.error error, after)) :
      ReadsUnder store config arrangement input world (.error error) after [.batchGet input]
  | unreadable {found : BatchGetOutput} {between after : σ} {error : Error}
      (whole : input.AsksForWhole)
      (answers : (store.batchGet input).runFrom world = (.ok found, between))
      (runs : (unsealBatchUnder config arrangement found).runFrom between = (.error error, after))
      (fails : ItemFails config found error after) :
      ReadsUnder store config arrangement input world (.error error) after [.batchGet input]
  | given {found output : BatchGetOutput} {between after : σ} (whole : input.AsksForWhole)
      (answers : (store.batchGet input).runFrom world = (.ok found, between))
      (runs : (unsealBatchUnder config arrangement found).runFrom between = (.ok output, after))
      (reads : BatchReadUnder config found output) :
      ReadsUnder store config arrangement input world (.ok output) after [.batchGet input]

/-- Unsealing under one configuration asks the store for nothing. -/
theorem notes_unsealBatchUnder (config : SealConfig σ) (arrangement : Arrangement)
    (found : BatchGetOutput) :
    Act.Notes Prod.mk (fun _ => False) id (unsealBatchUnder config arrangement found)
      (unsealBatchUnder config.logged arrangement found) := by
  refine Act.Notes.bind (Act.Notes.optionMapM fun responses _ =>
    Act.Notes.mapArrangedM fun table items _ => ?_)
    fun responses => .pure { found with responses }
  exact Act.Notes.mapM fun item _ => Item.notes_unsealWith config item

/-- A batch of reads with a configuration given for the call goes as it does under that
configuration, from any session over the world and through any sealed store over the store, which
remember and note what they did before. -/
theorem runFrom_batchGet_given (store : Store σ) (config : SealConfig σ)
    (arrangement : Arrangement) (input : BatchGetInput) (world : σ) (log : List StoreRequest) :
    ∃ outcome after requests,
      ReadsUnder store config arrangement input world outcome after requests ∧
      ∀ (sealed : SealedStore σ) (session : Session σ), sealed.store = store →
        session.world = world →
        (sealed.logged.batchGet (some config.logged) arrangement input).runFrom
          (session.withLog log) =
          (outcome, Session.withLog { session with world := after } (log ++ requests)) := by
  by_cases whole : input.AsksForWhole
  · rcases answers : (store.batchGet input).runFrom world with ⟨error | found, between⟩
    · refine ⟨.error error, between, _, .refused whole answers, ?_⟩
      rintro sealed session rfl rfl
      exact (@runFrom_batchGet_of_whole _ sealed
        (some config) arrangement session _ whole log).trans (by rw [answers])
    · obtain ⟨none, asksNothing, notes⟩ := notes_unsealBatchUnder config arrangement found between
      obtain rfl : none = [] := List.eq_nil_iff_forall_not_mem.2 asksNothing
      have runs : ∀ (sealed : SealedStore σ) (session : Session σ), sealed.store = store →
        session.world = world →
          (sealed.logged.batchGet (some config.logged) arrangement input).runFrom
            (session.withLog log) =
            (((unsealBatchUnder config arrangement found).runFrom between).1,
              Session.withLog
                { session with
                  world := ((unsealBatchUnder config arrangement found).runFrom between).2 }
                (log ++ [.batchGet input])) := by
        rintro sealed session rfl rfl
        have noted := notes (log ++ [.batchGet input])
        rw [Except.map_id, List.append_nil, id] at noted
        refine (@runFrom_batchGet_of_whole _ sealed
          (some config) arrangement session _ whole log).trans ?_
        rw [answers, Option.map_some]
        dsimp only
        rw [unsealBatch_given, Session.runFrom_call, Session.withLog, noted]
        rfl
      rcases unseals : (unsealBatchUnder config arrangement found).runFrom between with
        ⟨error | output, after⟩ <;>
        rw [unseals] at runs
      · exact ⟨_, _, _, .unreadable whole answers unseals (itemFails_of_runFrom unseals), runs⟩
      · exact ⟨_, _, _, .given whole answers unseals (batchReadUnder_of_runFrom unseals), runs⟩
  · cases checked : checkReads arrangement (input.requests.getD ∅) with
    | ok => exact absurd (checkReads_eq_ok_iff.1 checked) whole
    | error error =>
        refine ⟨.error error, world, [], .malformed whole (kind_of_checkReads checked), ?_⟩
        rintro sealed session rfl rfl
        rw [List.append_nil]
        refine Act.runFrom_bind_of_error ?_
        rw [Act.runFrom_liftM, checked]

end Reads

/-! ## Isolation -/

/-- A configuration given for a batch isolates the batch from everything else that a sealed store
has. From one world and with the tables in one order, all sealed stores over one store, whatever
their provider, policy and refreshing, with whatever they remember, come to the same outcome and
the same world by the same requests, none of them for a description; they remember and note what
they did before, and every item is sealed or unsealed under the configuration given. -/
theorem batches_given (store : Store σ) (config : SealConfig σ) (world : σ)
    (log : List StoreRequest) :
    (∀ arrangement nonces input, ∃ outcome after requests,
      WritesUnder store config arrangement nonces input world outcome after requests ∧
      (∀ table, .describe table ∉ requests) ∧
      ∀ provider policy autoRefresh schemas warnings,
        ((SealedStore.mk store provider policy autoRefresh).logged.batchWrite
          (some config.logged) arrangement nonces input).runFrom
            (Session.withLog ⟨world, schemas, warnings⟩ log) =
          (outcome, Session.withLog ⟨after, schemas, warnings⟩ (log ++ requests))) ∧
    ∀ arrangement input, ∃ outcome after requests,
      ReadsUnder store config arrangement input world outcome after requests ∧
      (∀ table, .describe table ∉ requests) ∧
      ∀ provider policy autoRefresh schemas warnings,
        ((SealedStore.mk store provider policy autoRefresh).logged.batchGet
          (some config.logged) arrangement input).runFrom
            (Session.withLog ⟨world, schemas, warnings⟩ log) =
          (outcome, Session.withLog ⟨after, schemas, warnings⟩ (log ++ requests)) := by
  constructor
  · intro arrangement nonces input
    obtain ⟨outcome, after, requests, goes, runs⟩ :=
      runFrom_batchWrite_given store config arrangement nonces input world log
    refine ⟨outcome, after, requests, goes, ?_, ?_⟩
    · intro table
      cases goes <;> simp
    · intro provider policy autoRefresh schemas warnings
      exact runs ⟨store, provider, policy, autoRefresh⟩ ⟨world, schemas, warnings⟩ rfl rfl
  · intro arrangement input
    obtain ⟨outcome, after, requests, goes, runs⟩ :=
      runFrom_batchGet_given store config arrangement input world log
    refine ⟨outcome, after, requests, goes, ?_, ?_⟩
    · intro table
      cases goes <;> simp
    · intro provider policy autoRefresh schemas warnings
      exact runs ⟨store, provider, policy, autoRefresh⟩ ⟨world, schemas, warnings⟩ rfl rfl

end SealedStore

end ItemSeal
