import ItemSeal.Proofs.SealedStore.Configuration
import ItemSeal.Proofs.SealedStore.RequestLog

/-!
Batches of writes, all or nothing, over any store. Tables are sealed one after the other, in
whatever order they come, and nothing is sent before all are. If a table has no configuration when
its turn comes, or an item is not sealed, all that was asked of the store is descriptions of
tables; else the batch goes out as one request, with the items sealed in their places and all else
as it was (`SealedStore.batchWrite_allOrNothing`).
-/

namespace ItemSeal.SealedStore

variable {σ : Type}

/-! ## Turns and refusals -/

/-- The writes to the table have their turn in that session: those to all
tables before it are sealed. -/
def WritesTurn (sealed : SealedStore σ) (override : Option (SealConfig σ))
    (arrangement : Arrangement) (nonces : String → Nat → ItemNonces) (input : BatchWriteInput)
    (session : Session σ) (table : String) (requests : List WriteRequest)
    (turn : Session σ) : Prop :=
  Act.EntryTurn arrangement (sealed.sealWrites override nonces)
    (input.requests.getD ∅) session table requests turn

/-- The write at that place has its turn in that world: all writes to the
table before it are sealed. -/
def WriteTurn (config : SealConfig σ) (nonces : Nat → ItemNonces) (requests : List WriteRequest)
    (start : σ) (place : Nat) (request : WriteRequest) (world : σ) : Prop :=
  Act.Turn (fun entry => sealWrite config (nonces entry.2) entry.1) requests.zipIdx start place
    (request, place) world

/-- The writes to a table are refused: it has no configuration, or an item to put is not
sealed when its turn comes. -/
inductive TableRefused (sealed : SealedStore σ) (override : Option (SealConfig σ))
    (nonces : Nat → ItemNonces) (table : String) (requests : List WriteRequest)
    (turn : Session σ) : Prop where
  | config {error : Error} {after : Session σ}
      (fails : (sealed.config override table).runFrom turn = (.error error, after))
  | put {config : SealConfig σ} {resolved : Session σ} {place : Nat} {request : WriteRequest}
      {item : Item} {world after : σ} {error : Error}
      (resolves : (sealed.config override table).runFrom turn = (.ok config, resolved))
      (placed : WriteTurn config nonces requests resolved.world place request world)
      (puts : request.put = some item)
      (fails : (item.sealWith config (nonces place)).runFrom world = (.error error, after))

/-- The batch is refused: the writes to some table are, when their turn comes. -/
def WritesRefused (sealed : SealedStore σ) (override : Option (SealConfig σ))
    (arrangement : Arrangement) (nonces : String → Nat → ItemNonces) (input : BatchWriteInput)
    (session : Session σ) : Prop :=
  ∃ table requests turn,
    sealed.WritesTurn override arrangement nonces input session table requests turn ∧
    sealed.TableRefused override (nonces table) table requests turn

/-! ## Single writes -/

section Writes

variable {config : SealConfig σ} {nonces : ItemNonces} {request sent : WriteRequest}
  {world after : σ}

theorem runFrom_sealWrite_eq_error_iff {error : Error} :
    (sealWrite config nonces request).runFrom world = (.error error, after) ↔
      ∃ item, request.put = some item ∧
        (item.sealWith config nonces).runFrom world = (.error error, after) := by
  unfold sealWrite
  rw [Act.runFrom_bind_eq_error_iff, Act.runFrom_optionMapM_eq_error_iff]
  simp

/-- What is sent in place of a write: the item to put is sealed, and the deletion is the same. -/
structure WriteSealed (config : SealConfig σ) (nonces : ItemNonces) (world : σ)
    (request sent : WriteRequest) : Prop where
  delete : sent.delete = request.delete
  put : Option.Rel
    (fun item stored => ∃ after,
      (item.sealWith config nonces).runFrom world = (.ok stored, after))
    request.put sent.put

theorem writeSealed_of_runFrom
    (seals : (sealWrite config nonces request).runFrom world = (.ok sent, after)) :
    WriteSealed config nonces world request sent := by
  obtain ⟨put, between, sealed, built⟩ := Act.runFrom_bind_eq_ok_iff.1 seals
  cases built
  exact ⟨rfl, (Act.runFrom_optionMapM_eq_ok sealed).imp fun _ _ seals => ⟨_, seals⟩⟩

end Writes

/-! ## The writes to one table -/

section Tables

variable {sealed : SealedStore σ} {override : Option (SealConfig σ)}
  {nonces : String → Nat → ItemNonces} {table : String} {requests sent : List WriteRequest}
  {turn after : Session σ}

/-- What is sent in place of the writes to a table: each is sealed in its place,
under the configuration that the table has when its turn comes, given the schema
that is remembered of it. -/
def TableSealed (sealed : SealedStore σ) (override : Option (SealConfig σ))
    (nonces : Nat → ItemNonces) (table : String) (remembered : Option TableSchema)
    (turn : Session σ) (requests sent : List WriteRequest) : Prop :=
  ∃ config resolved,
    sealed.ConfigFrom override table remembered turn.world config ∧
    (sealed.config override table).runFrom turn = (.ok config, resolved) ∧
    sent.length = requests.length ∧
    ∀ place request, requests[place]? = some request → ∃ world sentRequest,
      WriteTurn config nonces requests resolved.world place request world ∧
      WriteSealed config (nonces place) world request sentRequest ∧
        sent[place]? = some sentRequest

theorem tableSealed_of_runFrom
    (seals :
      (sealed.sealWrites override nonces table requests).runFrom turn = (.ok sent, after)) :
    sealed.TableSealed override (nonces table) table
      (turn.schemas.get? table) turn requests sent := by
  obtain ⟨config, resolved, resolves, seals⟩ := Act.runFrom_bind_eq_ok_iff.1 seals
  obtain ⟨length, turns⟩ := Act.exists_turn_of_runFrom_mapM (Session.runFrom_call_eq_ok seals)
  refine ⟨config, resolved, configFrom_of_runFrom resolves, resolves, by simpa using length, ?_⟩
  intro place request found
  have placed : requests.zipIdx[place]? = some (request, place) := by simp [found]
  obtain ⟨world, sentRequest, later, reached, seals, result⟩ :=
    turns place (request, place) placed
  exact ⟨world, sentRequest, reached, writeSealed_of_runFrom seals, result⟩

theorem runFrom_sealWrites_fails_iff :
    (∃ error after, (sealed.sealWrites override nonces table requests).runFrom turn =
      (.error error, after)) ↔
      sealed.TableRefused override (nonces table) table requests turn := by
  constructor
  · intro ⟨error, after, fails⟩
    rcases Act.runFrom_bind_eq_error_iff.1 fails with unresolved |
      ⟨config, resolved, resolves, fails⟩
    · exact .config unresolved
    · obtain ⟨world, fails, -⟩ := Session.runFrom_call_eq_error_iff.1 fails
      obtain ⟨place, ⟨request, position⟩, world, placed, fails⟩ :=
        Act.runFrom_mapM_eq_error_iff.1 fails
      obtain ⟨item, puts, fails⟩ := runFrom_sealWrite_eq_error_iff.1 fails
      -- The number beside a write is its place, so the nonces it is sealed with
      -- are those of that place.
      have here : position = place := by
        have found := placed.getElem?
        rw [List.getElem?_zipIdx, Option.map_eq_some_iff] at found
        obtain ⟨_, -, same⟩ := found
        cases same
        exact Nat.zero_add place
      subst here
      exact .put resolves placed puts fails
  · intro refused
    cases refused with
    | config unresolved => exact ⟨_, _, Act.runFrom_bind_of_error unresolved⟩
    | put resolves placed puts fails =>
        have fails := runFrom_sealWrite_eq_error_iff.2 ⟨_, puts, fails⟩
        have loops := Act.runFrom_mapM_eq_error_iff.2 ⟨_, _, _, placed, fails⟩
        exact ⟨_, _, (Act.runFrom_bind_of_ok resolves).trans
          (Session.runFrom_call_eq_error_iff.2 ⟨_, loops, rfl⟩)⟩

end Tables

/-! ## Whole batches -/

section Batches

variable {sealed : SealedStore σ} {override : Option (SealConfig σ)} {arrangement : Arrangement}
  {nonces : String → Nat → ItemNonces} {input : BatchWriteInput} {session : Session σ}

/-- All that is done before a batch is sent. -/
def sealBatch (sealed : SealedStore σ) (override : Option (SealConfig σ))
    (arrangement : Arrangement) (nonces : String → Nat → ItemNonces) (input : BatchWriteInput) :
    Act (Session σ) (Option (NameMap (List WriteRequest))) :=
  input.requests.mapM (NameMap.mapArrangedM arrangement (sealed.sealWrites override nonces))

theorem runFrom_sealBatch_fails_iff :
    (∃ error after, (sealed.sealBatch override arrangement nonces input).runFrom session =
      (.error error, after)) ↔
      sealed.WritesRefused override arrangement nonces input session := by
  constructor
  · intro ⟨error, after, fails⟩
    obtain ⟨table, requests, turn, reached, fails⟩ :=
      Act.runFrom_optionMapArrangedM_eq_error_iff.1 fails
    exact ⟨table, requests, turn, reached, runFrom_sealWrites_fails_iff.1 ⟨error, after, fails⟩⟩
  · intro ⟨table, requests, turn, reached, refused⟩
    obtain ⟨error, after, fails⟩ := runFrom_sealWrites_fails_iff.2 refused
    exact ⟨error, after, Act.runFrom_optionMapArrangedM_eq_error_iff.2
      ⟨table, requests, turn, reached, fails⟩⟩

/-- Sealing the writes to other tables does not touch what is remembered of a table. -/
theorem remembered_of_writesTurn {table : String} {requests : List WriteRequest}
    {turn : Session σ}
    (reached : sealed.WritesTurn override arrangement nonces input session table requests turn) :
    turn.schemas.get? table = session.schemas.get? table :=
  reached.keeps_of_ne (fun _ _ different => keeps_remembered_of_ne different _ _) rfl

/-- What is sent in place of a batch: the same tables, with the writes to each
sealed when its turn comes. -/
structure BatchSealed (sealed : SealedStore σ) (override : Option (SealConfig σ))
    (arrangement : Arrangement) (nonces : String → Nat → ItemNonces) (input : BatchWriteInput)
    (session : Session σ) (sent : Option (NameMap (List WriteRequest))) : Prop where
  names : sent.map Ascending.names = input.requests.map Ascending.names
  tables : ∀ table requests, (input.requests.getD ∅).get? table = some requests →
    ∃ turn sentRequests,
    sealed.WritesTurn override arrangement nonces input session table requests turn ∧
    sealed.TableSealed override (nonces table) table
      (session.schemas.get? table) turn requests sentRequests ∧
    (sent.getD ∅).get? table = some sentRequests

theorem batchSealed_of_runFrom {sent : Option (NameMap (List WriteRequest))} {after : Session σ}
    (seals :
      (sealed.sealBatch override arrangement nonces input).runFrom session = (.ok sent, after)) :
    sealed.BatchSealed override arrangement nonces input session sent := by
  obtain ⟨names, turns⟩ := Act.exists_turn_of_runFrom_optionMapArrangedM seals
  refine ⟨names, ?_⟩
  intro table requests found
  obtain ⟨turn, sentRequests, later, reached, seals, result⟩ := turns table requests found
  have tableSealed := tableSealed_of_runFrom seals
  rw [remembered_of_writesTurn reached] at tableSealed
  exact ⟨turn, sentRequests, reached, tableSealed, result⟩

/-- What describing tables and handing out new keys leaves as it is. -/
structure KeptWhileSealing (sealed : SealedStore σ) (override : Option (SealConfig σ))
    (property : σ → Prop) : Prop where
  describe : ∀ table, Act.Keeps property (sealed.store.describe table)
  newKeys : ∀ context, Act.Keeps property (sealed.provider.encryptionMaterials context)
  givenKeys : ∀ config, override = some config → ∀ context,
    Act.Keeps property (config.provider.encryptionMaterials context)

theorem keeps_world_sealWrites {property : σ → Prop}
    (kept : sealed.KeptWhileSealing override property) (table : String)
    (requests : List WriteRequest) :
    Act.Keeps (fun session : Session σ => property session.world)
      (sealed.sealWrites override nonces table requests) := by
  refine (keeps_world_config (kept.describe table)).bind_of_ok fun _ resolves =>
    Act.Keeps.onWorld ?_
  refine .mapM (fun entry => ?_) _
  refine (Act.Keeps.optionMapM (Item.keeps_sealWith_of_newKeys ?_ _) _).bind fun put => .pure _
  rcases (configFrom_of_runFrom resolves).provider_eq with given | same
  · exact kept.givenKeys _ given
  · rw [same]
    exact kept.newKeys

theorem keeps_sealBatch {property : σ → Prop} (kept : sealed.KeptWhileSealing override property) :
    Act.Keeps (fun session : Session σ => property session.world)
      (sealed.sealBatch override arrangement nonces input) :=
  .optionMapM (.mapArrangedM (keeps_world_sealWrites kept)) _

/-- Whichever tables come first, a batch is refused if the writes to one of its tables would be
refused after any descriptions of other tables and any new keys. -/
theorem writesRefused_of_hopeless {property : σ → Prop}
    (kept : sealed.KeptWhileSealing override property) (holds : property session.world)
    {table : String} {requests : List WriteRequest}
    (found : (input.requests.getD ∅).get? table = some requests)
    (hopeless : ∀ turn : Session σ, turn.schemas.get? table = session.schemas.get? table →
      property turn.world →
      sealed.TableRefused override (nonces table) table requests turn) :
    sealed.WritesRefused override arrangement nonces input session := by
  rcases seals : (sealed.sealBatch override arrangement nonces input).runFrom session with
    ⟨error | sent, after⟩
  · exact runFrom_sealBatch_fails_iff.1 ⟨error, after, seals⟩
  · obtain ⟨turn, sentRequests, reached, -⟩ :=
      (batchSealed_of_runFrom seals).tables table requests found
    have world : property turn.world :=
      reached.keeps_of_ne (fun other requests _ =>
        keeps_world_sealWrites kept other requests) holds
    exact ⟨table, requests, turn, reached, hopeless turn (remembered_of_writesTurn reached) world⟩

/-- Sealing a batch asks for descriptions of its tables only. -/
theorem notes_sealBatch (sealed : SealedStore σ) (override : Option (SealConfig σ))
    (arrangement : Arrangement) (nonces : String → Nat → ItemNonces) (input : BatchWriteInput) :
    Act.Notes Session.withLog (fun request =>
      ∃ table ∈ (input.requests.getD ∅).names, request = .describe table) id
      (sealed.sealBatch override arrangement nonces input)
      (sealed.logged.sealBatch (override.map SealConfig.logged) arrangement nonces input) := by
  refine Act.Notes.optionMapM fun tables requested =>
    Act.Notes.mapArrangedM fun table requests found => ?_
  refine (sealed.notes_sealWrites override nonces table requests).mono fun request same =>
    ⟨table, ?_, same⟩
  rw [requested, Option.getD_some, Ascending.mem_names_iff]
  exact ⟨requests, found⟩

/-- Nothing happens between the two sessions but that tables of the batch are described
and keys are handed out. -/
structure Prepares (sealed : SealedStore σ) (override : Option (SealConfig σ))
    (input : BatchWriteInput) (session between : Session σ)
    (described : List StoreRequest) : Prop where
  asks : ∀ request ∈ described, ∃ table ∈ (input.requests.getD ∅).names, request = .describe table
  kept : ∀ property, sealed.KeptWhileSealing override property → property session.world →
    property between.world

theorem prepares_of_runFrom (sealed : SealedStore σ) (override : Option (SealConfig σ))
    (arrangement : Arrangement) (nonces : String → Nat → ItemNonces) (input : BatchWriteInput)
    (session : Session σ) :
    ∃ described,
      sealed.Prepares override input session
        ((sealed.sealBatch override arrangement nonces input).runFrom session).2 described ∧
      ∀ log,
        (sealed.logged.sealBatch (override.map SealConfig.logged) arrangement nonces
          input).runFrom (session.withLog log) =
        (((sealed.sealBatch override arrangement nonces input).runFrom session).1,
          ((sealed.sealBatch override arrangement nonces input).runFrom session).2.withLog
            (log ++ described)) := by
  obtain ⟨described, asks, runs⟩ :=
    notes_sealBatch sealed override arrangement nonces input session
  refine ⟨described, ⟨asks, fun property kept holds => keeps_sealBatch kept session holds⟩,
    fun log => ?_⟩
  rw [runs, Except.map_id, id]

/-- A batch that is refused is not sent. -/
theorem runFrom_batchWrite_of_refused
    (refused : sealed.WritesRefused override arrangement nonces input session)
    (log : List StoreRequest) :
    ∃ error between described, sealed.Prepares override input session between described ∧
      (sealed.logged.batchWrite (override.map SealConfig.logged) arrangement nonces input).runFrom
        (session.withLog log) =
        (.error error, between.withLog (log ++ described)) := by
  obtain ⟨described, prepares, runs⟩ :=
    prepares_of_runFrom sealed override arrangement nonces input session
  obtain ⟨error, between, fails⟩ := runFrom_sealBatch_fails_iff.2 refused
  rw [fails] at prepares runs
  exact ⟨error, between, described, prepares, Act.runFrom_bind_of_error (runs log)⟩

/-- A batch of writes is sealed whole before it is sent. If the writes to some table are refused
when their turn comes, the call fails, and nothing has happened but that tables of the batch were
described and keys handed out. Else one request follows these, with the writes sealed in their
places and all else as it was, and the store's answer is the answer. -/
theorem batchWrite_allOrNothing (sealed : SealedStore σ) (override : Option (SealConfig σ))
    (arrangement : Arrangement) (nonces : String → Nat → ItemNonces) (input : BatchWriteInput)
    (session : Session σ) (log : List StoreRequest) :
    (sealed.WritesRefused override arrangement nonces input session ∧
        ∃ error between described, sealed.Prepares override input session between described ∧
          (sealed.logged.batchWrite (override.map SealConfig.logged) arrangement nonces
            input).runFrom (session.withLog log) =
            (.error error, between.withLog (log ++ described))) ∨
      ¬ sealed.WritesRefused override arrangement nonces input session ∧
        ∃ sent between described, sealed.Prepares override input session between described ∧
          sealed.BatchSealed override arrangement nonces input session sent ∧
          (sealed.logged.batchWrite (override.map SealConfig.logged) arrangement nonces
            input).runFrom (session.withLog log) =
            (((sealed.store.batchWrite { input with requests := sent }).runFrom between.world).1,
              Session.withLog
                { between with
                  world :=
                    ((sealed.store.batchWrite { input with requests := sent }).runFrom
                      between.world).2 }
                (log ++ described ++ [.batchWrite { input with requests := sent }])) := by
  by_cases refused : sealed.WritesRefused override arrangement nonces input session
  · exact .inl ⟨refused, runFrom_batchWrite_of_refused refused log⟩
  · obtain ⟨described, prepares, runs⟩ :=
      prepares_of_runFrom sealed override arrangement nonces input session
    rcases seals : (sealed.sealBatch override arrangement nonces input).runFrom session with
      ⟨error | sent, between⟩
    · exact absurd (runFrom_sealBatch_fails_iff.1 ⟨error, between, seals⟩) refused
    · rw [seals] at prepares runs
      refine .inr ⟨refused, sent, between, described, prepares, batchSealed_of_runFrom seals, ?_⟩
      exact (Act.runFrom_bind_of_ok (runs log)).trans rfl

end Batches

/-! ## Tables in memory -/

section Memory

variable {keys : RawKeys} {policy : ActionPolicy} {arrangement : Arrangement}
  {nonces : String → Nat → ItemNonces} {input : BatchWriteInput} {session : Session MemoryStore}
  {table : String} {requests : List WriteRequest}

/-- Descriptions of tables in memory and fixed keys leave everything as it is. -/
theorem keptWhileSealing_overMemory (property : MemoryStore → Prop) :
    (overMemory keys policy).KeptWhileSealing none property where
  describe table := (MemoryStore.keeps_table property table).bind fun _ => .pure _
  newKeys _ := .pure keys.materials
  givenKeys _ given := by cases given

/-- A table that is neither in memory nor remembered has no configuration. -/
theorem tableRefused_of_missing {turn : Session MemoryStore}
    (missing : turn.world.get? table = none) (unknown : turn.schemas.get? table = none)
    (nonces : Nat → ItemNonces) :
    (overMemory keys policy).TableRefused none nonces table requests turn := by
  rcases resolves : ((overMemory keys policy).config none table).runFrom turn with
    ⟨error | config, after⟩
  · exact .config resolves
  · obtain ⟨schema, schemaFrom, -⟩ := configFrom_of_runFrom resolves
    rw [unknown] at schemaFrom
    cases schemaFrom with
    | cache serves => cases serves
    | description _ _ describes _ =>
        obtain ⟨found, world, finds, -⟩ := Act.runFrom_bind_eq_ok_iff.1 describes
        rw [MemoryStore.runFrom_table, missing] at finds
        cases finds

/-- A batch for a table that is neither in memory nor remembered is not sent, and
changes no table in memory. -/
theorem batchWrite_missingTable (requested : (input.requests.getD ∅).get? table = some requests)
    (missing : session.world.get? table = none) (unknown : session.schemas.get? table = none)
    (log : List StoreRequest) :
    ∃ (error : Error) (after : Session MemoryStore) (described : List StoreRequest),
      ((overMemory keys policy).logged.batchWrite none arrangement nonces input).runFrom
        (session.withLog log) =
        (.error error, after.withLog (log ++ described)) ∧
      after.world = session.world ∧
      ∀ request ∈ described, ∃ table, request = .describe table := by
  have refused :
      (overMemory keys policy).WritesRefused none arrangement nonces input session := by
    apply writesRefused_of_hopeless (keptWhileSealing_overMemory (· = session.world)) rfl
      requested
    intro turn sameMemory sameWorld
    exact tableRefused_of_missing (sameWorld ▸ missing) (sameMemory.trans unknown) _
  obtain ⟨error, after, described, prepares, runs⟩ := runFrom_batchWrite_of_refused refused log
  refine ⟨error, after, described, runs,
    prepares.kept _ (keptWhileSealing_overMemory (· = session.world)) rfl, ?_⟩
  intro request member
  obtain ⟨table, -, same⟩ := prepares.asks request member
  exact ⟨table, same⟩

end Memory

end ItemSeal.SealedStore
