import ItemSeal.Proofs.SealedStore.RequestLog

/-!
Calls of a view of one table, over any store. Every call is prepared, sent and finished
(`SealedTable.serve_eq`): it is refused before the store hears of it, or the store gets the one
request that it was made into, and what it answers is given with its items unsealed
(`SealedTable.serve_oneRequest`).
-/

namespace ItemSeal

/-- A request about the items of one table. -/
inductive ItemRequest where
  | put (input : PutInput)
  | get (input : GetInput)
  | delete (input : DeleteInput)
  | query (input : QueryInput)
  | scan (input : ScanInput)

/-- What a store answers to one. -/
inductive ItemAnswer where
  | written (output : WriteOutput)
  | read (output : GetOutput)
  | found (output : SearchOutput)

namespace ItemRequest

/-- The request as a store notes it. -/
def noted : ItemRequest → StoreRequest
  | .put input => .put input
  | .get input => .get input
  | .delete input => .delete input
  | .query input => .query input
  | .scan input => .scan input

/-- The table that the request names. -/
def table : ItemRequest → Option String
  | .put input => input.table
  | .get input => input.table
  | .delete input => input.table
  | .query input => input.table
  | .scan input => input.table

/-- How items are to be read, and which attributes of them are selected, if
the request is a read. -/
def reading : ItemRequest → Option (ReadOptions × Option Selection)
  | .put _ | .delete _ => none
  | .get input => some (input.options, none)
  | .query input => some (input.options.read, input.options.select)
  | .scan input => some (input.options.read, input.options.select)

/-- A read gives whole items. -/
def checkReading (request : ItemRequest) : Except Error Unit :=
  match request.reading with
  | some (options, select) => options.check select
  | none => .ok ()

end ItemRequest

variable {σ : Type}

/-- What a store does with a request. -/
def Store.serve (store : Store σ) : ItemRequest → Act σ ItemAnswer
  | .put input => return .written (← store.put input)
  | .get input => return .read (← store.get input)
  | .delete input => return .written (← store.delete input)
  | .query input => return .found (← store.query input)
  | .scan input => return .found (← store.scan input)

/-! ## Requests that are noted -/

section Noted

variable {α β : Type} {act : Act σ α} {noting : Act (σ × List StoreRequest) α}

/-- What notes nothing leaves the log as it is. -/
theorem Act.Notes.silent (notes : Notes Prod.mk (fun _ => False) id act noting) (world : σ)
    (log : List StoreRequest) :
    noting.runFrom (world, log) = ((act.runFrom world).1, (act.runFrom world).2, log) := by
  obtain ⟨requests, none, runs⟩ := notes world
  rw [List.eq_nil_iff_forall_not_mem.2 none] at runs
  simpa using runs log

/-- A last step that only forms the output notes nothing more. -/
theorem Act.runFrom_noting_bind {request : StoreRequest}
    (notes : ∀ world log,
      noting.runFrom (world, log) =
        ((act.runFrom world).1, (act.runFrom world).2, log ++ [request]))
    (form : α → β) (world : σ) (log : List StoreRequest) :
    (noting >>= fun a => pure (form a)).runFrom (world, log) =
      (((act >>= fun a => pure (form a)).runFrom world).1,
        ((act >>= fun a => pure (form a)).runFrom world).2, log ++ [request]) := by
  rw [runFrom_bind, notes, runFrom_bind]
  rcases act.runFrom world with ⟨error | a, after⟩ <;> rfl

/-- The store that notes requests notes the one that it serves, and does with
it what it does without. -/
theorem Store.runFrom_serve_logged (store : Store σ) (request : ItemRequest) (world : σ)
    (log : List StoreRequest) :
    (store.logged.serve request).runFrom (world, log) =
      (((store.serve request).runFrom world).1, ((store.serve request).runFrom world).2,
        log ++ [request.noted]) := by
  cases request with
  | put input => exact Act.runFrom_noting_bind (fun _ _ => rfl) ItemAnswer.written world log
  | get input => exact Act.runFrom_noting_bind (fun _ _ => rfl) ItemAnswer.read world log
  | delete input => exact Act.runFrom_noting_bind (fun _ _ => rfl) ItemAnswer.written world log
  | query input => exact Act.runFrom_noting_bind (fun _ _ => rfl) ItemAnswer.found world log
  | scan input => exact Act.runFrom_noting_bind (fun _ _ => rfl) ItemAnswer.found world log

end Noted

/-! ## Partial reads -/

/-- The read does not give whole items: it names attributes to give, has a projection,
or selects attributes. -/
inductive ReadOptions.Partial (options : ReadOptions) : Option Selection → Prop where
  | attributes {select : Option Selection} {name : String} {names : List String}
      (named : options.attributesToGet = some (name :: names)) : Partial options select
  | projection {select : Option Selection} {text : String}
      (projects : options.projection = some text) :
      Partial options select
  | specificAttributes : Partial options (some .specificAttributes)
  | allProjectedAttributes : Partial options (some .allProjectedAttributes)

theorem ReadOptions.check_eq_ok_iff {options : ReadOptions} {select : Option Selection} :
    options.check select = .ok () ↔ ¬ options.Partial select := by
  constructor
  · intro passes isPartial
    unfold check at passes
    obtain ⟨_, attributes, more⟩ := Except.bind_eq_ok_iff.1 passes
    obtain ⟨_, projection, selects⟩ := Except.bind_eq_ok_iff.1 more
    cases isPartial with
    | attributes named =>
        rw [checkAttributes, named] at attributes
        cases attributes
    | projection projects =>
        rw [checkProjection, projects] at projection
        cases projection
    | specificAttributes => cases selects
    | allProjectedAttributes => cases selects
  · intro whole
    have attributes : options.checkAttributes = .ok () := by
      unfold checkAttributes
      split
      · rfl
      · rfl
      · next named => exact absurd (.attributes named) whole
    have projection : options.checkProjection = .ok () := by
      unfold checkProjection
      split
      · rfl
      · next projects => exact absurd (.projection projects) whole
    unfold check
    rw [attributes, projection]
    rcases select with _ | _ | _ | _ | _ | _
    · rfl
    · rfl
    · exact absurd .allProjectedAttributes whole
    · exact absurd .specificAttributes whole
    · rfl
    · rfl

namespace SealedTable

/-! ## Calls in three steps -/

/-- What a view does with a request. -/
def serve (table : SealedTable σ) (nonces : ItemNonces) : ItemRequest → Act σ ItemAnswer
  | .put input => return .written (← table.put nonces input)
  | .get input => return .read (← table.get input)
  | .delete input => return .written (← table.delete input)
  | .query input => return .found (← table.query input)
  | .scan input => return .found (← table.scan input)

/-- The request with the table's own name, and with the item sealed if it is to put one. -/
def address (table : SealedTable σ) (nonces : ItemNonces) : ItemRequest → Act σ ItemRequest
  | .put input =>
      match input.item with
      | none => throw .putWithoutItem
      | some item => do
          let hidden ← item.sealWith table.config nonces
          return .put { input with table := some table.name, item := some hidden }
  | .get input => return .get { input with table := some table.name }
  | .delete input => return .delete { input with table := some table.name }
  | .query input => return .query { input with table := some table.name }
  | .scan input => return .scan { input with table := some table.name }

/-- The request that is sent for one, unless it is refused. -/
def prepare (table : SealedTable σ) (nonces : ItemNonces) (request : ItemRequest) :
    Act σ ItemRequest := do
  table.checkTarget request.table
  request.checkReading
  table.address nonces request

/-- What is given of an answer. -/
def finish (table : SealedTable σ) : ItemAnswer → Act σ ItemAnswer
  | .written output => return .written output
  | .read output => do
      let item ← output.item.mapM (Item.unsealWith table.config)
      return .read { output with item }
  | .found output => return .found (← table.unsealFound output)

/-- All calls go the same way. -/
theorem serve_eq (table : SealedTable σ) (nonces : ItemNonces) (request : ItemRequest) :
    table.serve nonces request =
      table.prepare nonces request >>= fun sent => table.store.serve sent >>= table.finish := by
  have passes : ∀ next : Unit → Act σ ItemAnswer,
      (liftM (Except.ok () : Except Error Unit) >>= next) = next () := fun _ => rfl
  simp only [prepare, bind_assoc, ItemRequest.checkReading]
  cases request with
  | put input =>
      simp only [serve, put, bind_assoc, ItemRequest.reading, passes, address]
      cases input.item with
      | none => rfl
      | some item => simp only [bind_assoc, pure_bind, Store.serve, finish, ItemRequest.table]
  | get input | delete input | query input | scan input =>
      simp only [serve, get, delete, query, scan, bind_assoc, pure_bind, ItemRequest.reading,
        passes, address, Store.serve, finish, ItemRequest.table]

/-! ## What is refused and what is sent -/

section Prepared

variable {table : SealedTable σ} {nonces : ItemNonces} {request sent : ItemRequest}
  {world after : σ}

/-- The request is refused: it names another table, is a read that does not give whole items, or
is to put an item that is missing or cannot be sealed in that world. -/
inductive Refuses (table : SealedTable σ) (nonces : ItemNonces) (world : σ) :
    ItemRequest → Prop where
  | otherTable {request : ItemRequest} {name : String} (names : request.table = some name)
      (other : name ≠ table.name) :
      Refuses table nonces world request
  | partialRead {request : ItemRequest} {options : ReadOptions} {select : Option Selection}
      (reads : request.reading = some (options, select)) (isPartial : options.Partial select) :
      Refuses table nonces world request
  | noItem {input : PutInput} (missing : input.item = none) :
      Refuses table nonces world (.put input)
  | unsealable {input : PutInput} {item : Item} {error : Error} {after : σ}
      (puts : input.item = some item)
      (fails : (item.sealWith table.config nonces).runFrom world = (.error error, after)) :
      Refuses table nonces world (.put input)

/-- What is sent for a request, and the world after it is prepared: the same with the table's own
name, and with the item sealed if it is to put one. -/
inductive Sends (table : SealedTable σ) (nonces : ItemNonces) (world : σ) :
    ItemRequest → ItemRequest → σ → Prop where
  | put {input : PutInput} {item hidden : Item} {after : σ} (puts : input.item = some item)
      (seals : (item.sealWith table.config nonces).runFrom world = (.ok hidden, after)) :
      Sends table nonces world (.put input)
        (.put { input with table := some table.name, item := some hidden }) after
  | get (input : GetInput) :
      Sends table nonces world (.get input) (.get { input with table := some table.name }) world
  | delete (input : DeleteInput) :
      Sends table nonces world (.delete input)
        (.delete { input with table := some table.name }) world
  | query (input : QueryInput) :
      Sends table nonces world (.query input)
        (.query { input with table := some table.name }) world
  | scan (input : ScanInput) :
      Sends table nonces world (.scan input) (.scan { input with table := some table.name }) world

theorem checkTarget_eq_ok_iff {target : Option String} :
    table.checkTarget target = .ok () ↔ ∀ name, target = some name → name = table.name := by
  unfold checkTarget
  rcases target with _ | name
  · simp
  · by_cases own : name = table.name <;> simp [own]

theorem checkReading_eq_ok_iff :
    request.checkReading = .ok () ↔
      ∀ options select, request.reading = some (options, select) → ¬ options.Partial select := by
  unfold ItemRequest.checkReading
  rcases request.reading with _ | ⟨options, select⟩
  · simp
  · simp [ReadOptions.check_eq_ok_iff]

/-- An addressed request is what is sent. -/
theorem sends_of_runFrom_address
    (runs : (table.address nonces request).runFrom world = (.ok sent, after)) :
    table.Sends nonces world request sent after := by
  cases request with
  | put input =>
      simp only [address] at runs
      cases puts : input.item with
      | none =>
          rw [puts] at runs
          cases runs
      | some item =>
          rw [puts] at runs
          obtain ⟨hidden, between, seals, built⟩ := Act.runFrom_bind_eq_ok_iff.1 runs
          cases built
          exact .put puts seals
  | get input =>
      cases runs
      exact .get input
  | delete input =>
      cases runs
      exact .delete input
  | query input =>
      cases runs
      exact .query input
  | scan input =>
      cases runs
      exact .scan input

/-- A request that cannot be addressed is to put an item that is missing or cannot be sealed. -/
theorem exists_runFrom_address_eq_error_iff :
    (∃ error after, (table.address nonces request).runFrom world = (.error error, after)) ↔
      ∃ input, request = .put input ∧ (input.item = none ∨
        ∃ item error after, input.item = some item ∧
          (item.sealWith table.config nonces).runFrom world = (.error error, after)) := by
  cases request with
  | put input =>
      simp only [address, ItemRequest.put.injEq, exists_eq_left']
      cases input.item with
      | none => simp
      | some item =>
          simp only [Act.runFrom_bind_eq_error_iff]
          simp
  | get input | delete input | query input | scan input => simp [address]

theorem runFrom_prepare (table : SealedTable σ) (nonces : ItemNonces) (request : ItemRequest)
    (world : σ) :
    (table.prepare nonces request).runFrom world =
      match table.checkTarget request.table, request.checkReading with
      | .ok (), .ok () => (table.address nonces request).runFrom world
      | .error error, _ => (.error error, world)
      | .ok (), .error error => (.error error, world) := by
  unfold prepare
  rw [Act.runFrom_bind, Act.runFrom_liftM]
  rcases table.checkTarget request.table with error | ⟨⟩
  · rfl
  · dsimp only
    rw [Act.runFrom_bind, Act.runFrom_liftM]
    rcases request.checkReading with error | ⟨⟩ <;> rfl

/-- Preparing a request fails exactly if it is refused. -/
theorem exists_runFrom_prepare_eq_error_iff :
    (∃ error after, (table.prepare nonces request).runFrom world = (.error error, after)) ↔
      table.Refuses nonces world request := by
  rw [runFrom_prepare]
  constructor
  · intro fails
    split at fails
    · rcases exists_runFrom_address_eq_error_iff.1 fails with
        ⟨input, rfl, missing | ⟨item, error, after, puts, fails⟩⟩
      · exact .noItem missing
      · exact .unsealable puts fails
    · next target =>
        by_contra accepts
        have own := checkTarget_eq_ok_iff.2 fun name names => by_contra fun other =>
          accepts (.otherTable names other)
        cases target.symm.trans own
    · next whole =>
        by_contra accepts
        have reads := checkReading_eq_ok_iff.2 fun _ _ reads isPartial =>
          accepts (.partialRead reads isPartial)
        cases whole.symm.trans reads
  · intro refuses
    split
    · next target whole =>
        rw [exists_runFrom_address_eq_error_iff]
        cases refuses with
        | otherTable names other => exact absurd (checkTarget_eq_ok_iff.1 target _ names) other
        | partialRead reads isPartial =>
            exact absurd isPartial (checkReading_eq_ok_iff.1 whole _ _ reads)
        | noItem missing => exact ⟨_, rfl, .inl missing⟩
        | unsealable puts fails => exact ⟨_, rfl, .inr ⟨_, _, _, puts, fails⟩⟩
    · exact ⟨_, _, rfl⟩
    · exact ⟨_, _, rfl⟩

theorem sends_of_runFrom_prepare
    (runs : (table.prepare nonces request).runFrom world = (.ok sent, after)) :
    table.Sends nonces world request sent after := by
  rw [runFrom_prepare] at runs
  split at runs
  · exact sends_of_runFrom_address runs
  · cases runs
  · cases runs

end Prepared

/-! ## What is given -/

section Finished

variable {table : SealedTable σ} {answer given : ItemAnswer} {world after : σ}

/-- The items are unsealed in order, each in its place. -/
def Unsealed (config : SealConfig σ) (world : σ) (items results : List Item) : Prop :=
  results.length = items.length ∧
    ∀ place item, items[place]? = some item → ∃ turn result after,
      Act.Turn (Item.unsealWith config) items world place item turn ∧
      (item.unsealWith config).runFrom turn = (.ok result, after) ∧ results[place]? = some result

/-- What is given of an answer in that world: the outcome of a write as it came, and that of a
read with its items unsealed in their places and the rest as it came. -/
inductive Gives (config : SealConfig σ) (world : σ) : ItemAnswer → ItemAnswer → Prop where
  | written (output : WriteOutput) : Gives config world (.written output) (.written output)
  | read {output : GetOutput} {result : Option Item}
      (unseals : Option.Rel
        (fun item result => ∃ after,
          (item.unsealWith config).runFrom world = (.ok result, after))
        output.item result) :
      Gives config world (.read output) (.read { output with item := result })
  | found {output : SearchOutput} {results : Option (List Item)}
      (unseals : Option.Rel (Unsealed config world) output.items results) :
      Gives config world (.found output) (.found { output with items := results })

/-- Some item of the answer cannot be unsealed when its turn comes, with that error. -/
inductive Spoils (config : SealConfig σ) (world : σ) : ItemAnswer → Error → Prop where
  | read {output : GetOutput} {item : Item} {error : Error} {after : σ}
      (answered : output.item = some item)
      (fails : (item.unsealWith config).runFrom world = (.error error, after)) :
      Spoils config world (.read output) error
  | found {output : SearchOutput} {items : List Item} {place : Nat} {item : Item}
      {turn after : σ} {error : Error} (answered : output.items = some items)
      (reached : Act.Turn (Item.unsealWith config) items world place item turn)
      (fails : (item.unsealWith config).runFrom turn = (.error error, after)) :
      Spoils config world (.found output) error

theorem gives_of_runFrom_finish
    (runs : (table.finish answer).runFrom world = (.ok given, after)) :
    Gives table.config world answer given := by
  cases answer with
  | written output =>
      cases runs
      exact .written output
  | read output =>
      obtain ⟨item, between, unseals, built⟩ := Act.runFrom_bind_eq_ok_iff.1 runs
      cases built
      exact .read ((Act.runFrom_optionMapM_eq_ok unseals).imp fun _ _ runs => ⟨_, runs⟩)
  | found output =>
      obtain ⟨found, between, unseals, built⟩ := Act.runFrom_bind_eq_ok_iff.1 runs
      cases built
      obtain ⟨items, last, unseals, built⟩ := Act.runFrom_bind_eq_ok_iff.1 unseals
      cases built
      exact .found ((Act.runFrom_optionMapM_eq_ok unseals).imp fun _ _ =>
        Act.exists_turn_of_runFrom_mapM)

theorem exists_runFrom_finish_eq_error_iff {error : Error} :
    (∃ after, (table.finish answer).runFrom world = (.error error, after)) ↔
      Spoils table.config world answer error := by
  constructor
  · intro ⟨after, fails⟩
    cases answer with
    | written output => cases fails
    | read output =>
        rcases Act.runFrom_bind_eq_error_iff.1 fails with fails | ⟨_, _, -, built⟩
        · obtain ⟨item, answered, fails⟩ := Act.runFrom_optionMapM_eq_error_iff.1 fails
          exact .read answered fails
        · cases built
    | found output =>
        rcases Act.runFrom_bind_eq_error_iff.1 fails with fails | ⟨_, _, -, built⟩
        · rcases Act.runFrom_bind_eq_error_iff.1 fails with fails | ⟨_, _, -, built⟩
          · obtain ⟨items, answered, fails⟩ := Act.runFrom_optionMapM_eq_error_iff.1 fails
            obtain ⟨place, item, turn, reached, fails⟩ := Act.runFrom_mapM_eq_error_iff.1 fails
            exact .found answered reached fails
          · cases built
        · cases built
  · intro spoils
    cases spoils with
    | read answered fails =>
        exact ⟨_,
          Act.runFrom_bind_of_error (Act.runFrom_optionMapM_eq_error_iff.2 ⟨_, answered, fails⟩)⟩
    | found answered reached fails =>
        have loops := Act.runFrom_mapM_eq_error_iff.2 ⟨_, _, _, reached, fails⟩
        have all := Act.runFrom_optionMapM_eq_error_iff.2 ⟨_, answered, loops⟩
        exact ⟨_, Act.runFrom_bind_of_error (Act.runFrom_bind_of_error all)⟩

end Finished

/-! ## All of it, with requests noted -/

/-- The view whose store notes each request. -/
def logged (table : SealedTable σ) : SealedTable (σ × List StoreRequest) where
  store := table.store.logged
  schema := table.schema
  policy := table.policy
  autoRefresh := table.autoRefresh
  config := table.config.logged

section Noted

open Act (Notes)

variable {allowed : StoreRequest → Prop}

theorem notes_prepare (table : SealedTable σ) (nonces : ItemNonces) (request : ItemRequest) :
    Notes Prod.mk allowed id (table.prepare nonces request)
      (table.logged.prepare nonces request) := by
  refine (Notes.liftM_id _).bind fun _ => (Notes.liftM_id _).bind fun _ => ?_
  cases request with
  | put input =>
      simp only [address]
      cases input.item with
      | none => exact .throw _
      | some item =>
          exact (Item.notes_sealWith table.config nonces item).bind fun hidden => .pure _
  | get input | delete input | query input | scan input => exact .pure _

theorem notes_finish (table : SealedTable σ) (answer : ItemAnswer) :
    Notes Prod.mk allowed id (table.finish answer) (table.logged.finish answer) := by
  cases answer with
  | written output => exact .pure _
  | read output =>
      exact (Notes.optionMapM fun item _ => Item.notes_unsealWith table.config item).bind
        fun item => .pure _
  | found output =>
      refine Notes.bind (Notes.bind (Notes.optionMapM fun items _ => ?_) fun _ =>
        .pure _) fun _ => .pure _
      exact Notes.mapM fun item _ => Item.notes_unsealWith table.config item

end Noted

/-- A call is refused, and then it fails and the store gets no request; or the store gets
the one request that is sent for it, and no other. If the store fails, so does the call.
Else it gives the answer with all items unsealed, unless one of them cannot be: then that
error is what it comes to. -/
theorem serve_oneRequest (table : SealedTable σ) (nonces : ItemNonces) (request : ItemRequest)
    (world : σ) (log : List StoreRequest) :
    (table.Refuses nonces world request ∧ ∃ error after,
        (table.logged.serve nonces request).runFrom (world, log) = (.error error, after, log)) ∨
      (¬ table.Refuses nonces world request ∧ ∃ sent between,
        table.Sends nonces world request sent between ∧
        ((∃ error after, (table.store.serve sent).runFrom between = (.error error, after) ∧
            (table.logged.serve nonces request).runFrom (world, log) =
              (.error error, after, log ++ [sent.noted])) ∨
          ∃ answer answered outcome after, (table.store.serve sent).runFrom between =
            (.ok answer, answered) ∧
            (table.logged.serve nonces request).runFrom (world, log) =
              (outcome, after, log ++ [sent.noted]) ∧
            (∀ given, outcome = .ok given → Gives table.config answered answer given) ∧
            ∀ error, outcome = .error error ↔ Spoils table.config answered answer error)) := by
  have prepares := (notes_prepare table nonces request).silent world log
  have sameStore : table.logged.store = table.store.logged := rfl
  rw [serve_eq, sameStore]
  rcases prepared : (table.prepare nonces request).runFrom world with ⟨error | sent, between⟩ <;>
    rw [prepared] at prepares
  · exact .inl ⟨exists_runFrom_prepare_eq_error_iff.1 ⟨error, between, prepared⟩, error, between,
      Act.runFrom_bind_of_error prepares⟩
  · have accepts : ¬ table.Refuses nonces world request := by
      rw [← exists_runFrom_prepare_eq_error_iff, prepared]
      simp
    refine .inr ⟨accepts, sent, between, sends_of_runFrom_prepare prepared, ?_⟩
    have asks := table.store.runFrom_serve_logged sent between log
    rw [Act.runFrom_bind_of_ok prepares]
    rcases answers : (table.store.serve sent).runFrom between with ⟨error | answer, answered⟩ <;>
      rw [answers] at asks
    · exact .inl ⟨error, answered, rfl, Act.runFrom_bind_of_error asks⟩
    · refine .inr ⟨answer, answered, ((table.finish answer).runFrom answered).1,
        ((table.finish answer).runFrom answered).2, rfl, ?_, ?_, ?_⟩
      · rw [Act.runFrom_bind_of_ok asks]
        exact (notes_finish table answer).silent answered _
      · intro given gives
        exact gives_of_runFrom_finish (Prod.ext gives rfl)
      · intro error
        rw [← exists_runFrom_finish_eq_error_iff]
        exact ⟨fun fails => ⟨_, Prod.ext fails rfl⟩, fun ⟨_, fails⟩ => congrArg Prod.fst fails⟩

end SealedTable

end ItemSeal
