import Mathlib.Data.List.Induction
import ItemSeal.Proofs.SealedStore.RequestLog

/-!
Whole runs of calls on a cache of schemas, over any store. A run tells the calls with their
outcomes, and what the cache holds is what they left (`SchemaCall.get?_run_iff`): without
automatic refreshing, the schema of the last entry or successful refresh of a name that nothing
has taken away since. `SchemaCall.obeys_run` says what every call does after every run.
-/

namespace ItemSeal

/-- A call on a cache of schemas. -/
inductive SchemaCall where
  /-- A schema is entered under its own name. -/
  | enter (schema : TableSchema)
  /-- The schema of a table is forgotten. -/
  | forget (table : String)
  /-- A table is described again. -/
  | refresh (table : String)
  /-- The schema of a table is asked for. -/
  | lookUp (table : String)

namespace SchemaCall

/-- The table that the call is about. -/
def table : SchemaCall → String
  | .enter schema => schema.name
  | .forget table | .refresh table | .lookUp table => table

/-- The call is there to change what is remembered of its table, where a lookup is not. -/
def replaces : SchemaCall → Bool
  | .enter _ | .forget _ | .refresh _ => true
  | .lookUp _ => false

/-- The call may describe its table. -/
def describes : SchemaCall → Bool
  | .enter _ | .forget _ => false
  | .refresh _ | .lookUp _ => true

end SchemaCall

/-- A call and its outcome: a schema, if it gives one. -/
structure SchemaEvent where
  call : SchemaCall
  outcome : Except Error (Option TableSchema)

namespace SchemaEvent

/-- The schema that the event leaves in the cache: one that is entered, or that
describing the table again gave. -/
def leaves? : SchemaEvent → Option TableSchema
  | ⟨.enter schema, _⟩ => some schema
  | ⟨.refresh _, .ok found⟩ => found
  | _ => none

/-- The event changes what is in the cache under the name of its table: it leaves a schema
there, or takes it away. -/
def changes : SchemaEvent → Bool
  | ⟨.forget _, _⟩ => true
  | event => event.leaves?.isSome

theorem changes_of_leaves? {event : SchemaEvent} {schema : TableSchema}
    (leaves : event.leaves? = some schema) :
    event.changes = true := by
  unfold changes
  split
  · rfl
  · rw [leaves, Option.isSome_some]

/-- What the events leave in the cache under a name: the schema of the last event that left one,
if none after it has changed it. -/
def Left (events : List SchemaEvent) (table : String) (schema : TableSchema) : Prop :=
  ∃ before event later, events = before ++ event :: later ∧ event.call.table = table ∧
    event.leaves? = some schema ∧
    ∀ other ∈ later, other.call.table = table → other.changes = false

theorem not_left_nil {table : String} {schema : TableSchema} : ¬ Left [] table schema := by
  intro ⟨before, event, later, events, _⟩
  cases before <;> cases events

/-- One more event leaves what it changes to, or what was there if it changes nothing. -/
theorem left_concat_iff {events : List SchemaEvent} {event : SchemaEvent} {table : String}
    {schema : TableSchema} :
    Left (events ++ [event]) table schema ↔
      if event.call.table = table ∧ event.changes = true then event.leaves? = some schema
      else Left events table schema := by
  constructor
  · intro ⟨before, leaving, later, same, here, leaves, unchanged⟩
    rcases List.eq_nil_or_concat later with rfl | ⟨front, last, rfl⟩
    · obtain ⟨-, last⟩ := List.append_inj' same rfl
      cases last
      rwa [if_pos ⟨here, changes_of_leaves? leaves⟩]
    · rw [List.concat_eq_append, ← List.cons_append, ← List.append_assoc] at same
      obtain ⟨rfl, isLast⟩ := List.append_inj' same rfl
      cases isLast
      rw [if_neg fun changes => by simp [unchanged event (by simp) changes.1] at changes]
      exact ⟨before, leaving, front, rfl, here, leaves,
        fun other member => unchanged other (by simp [member])⟩
  · intro left
    split at left
    · next changes => exact ⟨events, event, [], rfl, changes.1, left, by simp⟩
    · next unchanged =>
        obtain ⟨before, leaving, later, rfl, here, leaves, kept⟩ := left
        refine ⟨before, leaving, later ++ [event], by simp, here, leaves,
          fun other member about => ?_⟩
        rcases List.mem_append.1 member with earlier | last
        · exact kept other earlier about
        · cases List.mem_singleton.1 last
          exact Bool.eq_false_iff.2 fun changes => unchanged ⟨about, changes⟩

end SchemaEvent

namespace Session

variable {σ : Type} {store : Store σ} {autoRefresh : Bool} {table : String} {schema : TableSchema}
  {session after : Session σ}

/-- A description that is refused, or has no partition key, leaves the cache as it is; else
its schema is remembered. -/
theorem runFrom_refreshSchema_of (store : Store σ) (table : String) (session : Session σ) :
    (refreshSchema store table).runFrom session =
      match (describeSchema store table).runFrom session.world with
      | (.error error, world) => (.error error, { session with world })
      | (.ok schema, world) =>
          (.ok schema,
            { session with world, schemas := NameMap.insert session.schemas table schema }) := by
  unfold refreshSchema
  rw [Act.runFrom_bind, runFrom_call]
  rcases (describeSchema store table).runFrom session.world with ⟨error | schema, world⟩ <;> rfl

theorem schemas_of_runFrom_refreshSchema_error {error : Error}
    (fails : (refreshSchema store table).runFrom session = (.error error, after)) :
    after.schemas = session.schemas := by
  rw [runFrom_refreshSchema_of] at fails
  split at fails <;> cases fails
  rfl

theorem schemas_of_runFrom_schema_error {error : Error}
    (fails : (Session.schema store autoRefresh table).runFrom session = (.error error, after)) :
    after.schemas = session.schemas := by
  rw [runFrom_schema_of] at fails
  split at fails
  · cases fails
  · exact schemas_of_runFrom_refreshSchema_error fails
  · cases fails
    rfl

/-- With automatic refreshing only complete schemas are found. -/
theorem isComplete_of_runFrom_schema
    (runs : (Session.schema store true table).runFrom session = (.ok schema, after)) :
    schema.isComplete = true := by
  cases schemaFrom_of_runFrom runs with
  | cache serves => exact (Option.filter_eq_some_iff.1 serves).2
  | description _ _ _ gives =>
      unfold TableSchema.ofDescription at gives
      split at gives <;> cases gives
      rfl

/-- What is found is remembered. -/
theorem get?_of_runFrom_schema
    (runs : (Session.schema store autoRefresh table).runFrom session = (.ok schema, after)) :
    after.schemas.get? table = some schema := by
  rw [runFrom_schema_of] at runs
  split at runs
  · next serves =>
      cases runs
      exact (Option.filter_eq_some_iff.1 serves).1
  · rw [runFrom_refreshSchema_of] at runs
    split at runs <;> cases runs
    exact NameMap.get?_insert_self _ _ _
  · cases runs

/-- A complete schema that is remembered is found there, and nothing else happens. -/
theorem runFrom_schema_of_complete (known : session.schemas.get? table = some schema)
    (complete : schema.isComplete = true) :
    (Session.schema store autoRefresh table).runFrom session = (.ok schema, session) := by
  have serves : served? autoRefresh (session.schemas.get? table) = some schema := by
    rw [known, served?, Option.filter_some, complete, Bool.or_true, if_pos rfl]
  rw [runFrom_schema_of, serves]

/-- Without automatic refreshing what is found is what is remembered, and nothing else happens. -/
theorem runFrom_schema_of_off (store : Store σ) (table : String) (session : Session σ) :
    ∃ outcome, (Session.schema store false table).runFrom session = (outcome, session) ∧
      (∀ schema, outcome = .ok schema ↔ session.schemas.get? table = some schema) ∧
      ∀ error, outcome = .error error → error = .notCached table := by
  rw [runFrom_schema_of]
  rcases session.schemas.get? table with _ | known
  · exact ⟨_, rfl, by simp, by simp [eq_comm]⟩
  · exact ⟨_, rfl, by simp, by simp⟩

/-- Describing a table is one request, whatever comes of it. -/
theorem log_describeSchema (store : Store σ) (table : String) (world : σ)
    (log : List StoreRequest) :
    ((describeSchema store.logged table).runFrom (world, log)).2.2 =
      log ++ [.describe table] := by
  have asks : (store.logged.describe table).runFrom (world, log) =
      (((store.describe table).runFrom world).1, ((store.describe table).runFrom world).2,
        log ++ [.describe table]) :=
    rfl
  unfold describeSchema
  rw [Act.runFrom_bind_of_ok (Act.runFrom_attempt _ _), asks]
  rcases (store.describe table).runFrom world with ⟨cause | described, later⟩ <;> rfl

/-- So is describing it again. -/
theorem log_refreshSchema (session : Session (σ × List StoreRequest)) :
    ((refreshSchema store.logged table).runFrom session).2.world.2 =
      session.world.2 ++ [.describe table] := by
  have asks := log_describeSchema store table session.world.1 session.world.2
  rw [runFrom_refreshSchema_of]
  rcases runs : (describeSchema store.logged table).runFrom session.world with
    ⟨error | schema, world⟩ <;>
    rw [runs] at asks <;> exact asks

end Session

namespace SchemaCall

variable {σ : Type}

/-- What a call does to a session, and the schema that it gives. -/
def act (store : Store σ) (autoRefresh : Bool) : SchemaCall → Act (Session σ) (Option TableSchema)
  | .enter schema => do
      Session.enterSchema schema
      return none
  | .forget table => do
      Session.forgetSchema table
      return none
  | .refresh table => do return some (← Session.refreshSchema store table)
  | .lookUp table => do return some (← Session.schema store autoRefresh table)

/-- The calls one after the other: what they came to, and the session that they leave. -/
def run (store : Store σ) (autoRefresh : Bool) (calls : List SchemaCall) (start : Session σ) :
    List SchemaEvent × Session σ :=
  calls.foldl (fun (events, session) call =>
    let (outcome, after) := (call.act store autoRefresh).runFrom session
    (events ++ [⟨call, outcome⟩], after)) ([], start)

/-! ## Single calls -/

section Calls

variable {store : Store σ} {autoRefresh : Bool} {call : SchemaCall} {name : String}
  {schema : TableSchema} {session after : Session σ}

theorem runFrom_act_refresh (store : Store σ) (autoRefresh : Bool) (name : String)
    (session : Session σ) :
    ((refresh name).act store autoRefresh).runFrom session =
      (((Session.refreshSchema store name).runFrom session).1.map some,
        ((Session.refreshSchema store name).runFrom session).2) :=
  Act.runFrom_bind_liftM _ (fun schema => .ok (some schema)) session

theorem runFrom_act_lookUp (store : Store σ) (autoRefresh : Bool) (name : String)
    (session : Session σ) :
    ((lookUp name).act store autoRefresh).runFrom session =
      (((Session.schema store autoRefresh name).runFrom session).1.map some,
        ((Session.schema store autoRefresh name).runFrom session).2) :=
  Act.runFrom_bind_liftM _ (fun schema => .ok (some schema)) session

/-- A call that fails leaves what is remembered as it is. -/
theorem schemas_of_runFrom_error {error : Error}
    (fails : (call.act store autoRefresh).runFrom session = (.error error, after)) :
    after.schemas = session.schemas := by
  cases call with
  | enter => cases fails
  | forget => cases fails
  | refresh name =>
      rcases Act.runFrom_bind_eq_error_iff.1 fails with fails | ⟨found, between, -, gives⟩
      · exact Session.schemas_of_runFrom_refreshSchema_error fails
      · cases gives
  | lookUp name =>
      rcases Act.runFrom_bind_eq_error_iff.1 fails with fails | ⟨found, between, -, gives⟩
      · exact Session.schemas_of_runFrom_schema_error fails
      · cases gives

/-- A complete schema stays remembered under its name, unless the call is there to change that. -/
theorem keeps_complete (complete : schema.isComplete = true)
    (other : call.replaces = true → call.table ≠ name) :
    Act.Keeps (fun session : Session σ => session.schemas.get? name = some schema)
      (call.act store autoRefresh) := by
  intro session known
  cases call with
  | enter entered =>
      exact (NameMap.get?_insert_of_ne session.schemas entered (other rfl).symm).trans known
  | forget asked =>
      exact (Ascending.get?_erase_of_ne session.schemas (other rfl).symm).trans known
  | refresh asked =>
      rw [runFrom_act_refresh, Session.runFrom_refreshSchema_of]
      rcases (Session.describeSchema store asked).runFrom session.world with
        ⟨error | described, world⟩
      · exact known
      · exact (NameMap.get?_insert_of_ne session.schemas described (other rfl).symm).trans known
  | lookUp asked =>
      rw [runFrom_act_lookUp]
      by_cases same : asked = name
      · rw [same, Session.runFrom_schema_of_complete known complete]
        exact known
      · refine Session.keeps_schema (Session.keeps_remembered_call _)
          (fun found session known => ?_) _ session known
        exact (NameMap.get?_insert_of_ne session.schemas found (Ne.symm same)).trans known

/-- A call that describes its table asks for that once at most, and no other
call asks for anything. -/
theorem exists_asked_of_runFrom {session after : Session (σ × List StoreRequest)}
    {outcome : Except Error (Option TableSchema)}
    (runs : (call.act store.logged autoRefresh).runFrom session = (outcome, after)) :
    after.world.2 = session.world.2 ∨
      call.describes = true ∧ after.world.2 = session.world.2 ++ [.describe call.table] := by
  cases call with
  | enter => cases runs; exact .inl rfl
  | forget => cases runs; exact .inl rfl
  | refresh name =>
      rw [runFrom_act_refresh] at runs
      cases runs
      exact .inr ⟨rfl, Session.log_refreshSchema session⟩
  | lookUp name =>
      rw [runFrom_act_lookUp] at runs
      cases runs
      rw [Session.runFrom_schema_of]
      split
      · exact .inl rfl
      · exact .inr ⟨rfl, Session.log_refreshSchema session⟩
      · exact .inl rfl

/-- Without automatic refreshing only calls that are there to change what is remembered do so:
after a call it is what the call leaves there, or else what it was. -/
theorem get?_schemas_of_runFrom {outcome : Except Error (Option TableSchema)}
    (runs : (call.act store false).runFrom session = (outcome, after)) (name : String) :
    after.schemas.get? name =
      if call.table = name ∧ SchemaEvent.changes ⟨call, outcome⟩ = true then
        SchemaEvent.leaves? ⟨call, outcome⟩
      else session.schemas.get? name := by
  cases call with
  | enter entered =>
      cases runs
      exact (NameMap.get?_insert ..).trans
        (by simp [table, SchemaEvent.changes, SchemaEvent.leaves?])
  | forget asked =>
      cases runs
      exact (NameMap.get?_erase ..).trans
        (by simp [table, SchemaEvent.changes, SchemaEvent.leaves?])
  | refresh asked =>
      rw [runFrom_act_refresh, Session.runFrom_refreshSchema_of] at runs
      rcases describes : (Session.describeSchema store asked).runFrom session.world with
        ⟨error | found, world⟩ <;>
        rw [describes] at runs <;> cases runs
      · simp [Except.map, SchemaEvent.changes, SchemaEvent.leaves?]
      · exact (NameMap.get?_insert ..).trans
          (by simp [table, Except.map, SchemaEvent.changes, SchemaEvent.leaves?])
  | lookUp asked =>
      obtain ⟨found, runsHere, -⟩ := Session.runFrom_schema_of_off store asked session
      rw [runFrom_act_lookUp, runsHere] at runs
      cases runs
      simp [SchemaEvent.changes, SchemaEvent.leaves?]

end Calls

/-! ## Runs -/

section Runs

variable {store : Store σ} {autoRefresh : Bool} {calls : List SchemaCall}

/-- The last call of a run goes from where the calls before it lead. -/
theorem run_concat (store : Store σ) (autoRefresh : Bool) (calls : List SchemaCall)
    (call : SchemaCall) (start : Session σ) :
    run store autoRefresh (calls ++ [call]) start =
      ((run store autoRefresh calls start).1 ++
          [⟨call,
            ((call.act store autoRefresh).runFrom (run store autoRefresh calls start).2).1⟩],
        ((call.act store autoRefresh).runFrom (run store autoRefresh calls start).2).2) := by
  rw [run, List.foldl_append]
  rfl

/-- A run keeps what its calls keep. -/
theorem keeps_run {property : Session σ → Prop}
    (keeps : ∀ call ∈ calls, Act.Keeps property (call.act store autoRefresh)) {start : Session σ}
    (holds : property start) : property (run store autoRefresh calls start).2 := by
  induction calls using List.reverseRecOn with
  | nil => exact holds
  | append_singleton earlier call ih =>
      rw [run_concat]
      exact keeps call (by simp) _ (ih fun other member => keeps other (by simp [member]))

/-- Without automatic refreshing, a cache that starts empty holds what the calls left. -/
theorem get?_run_iff {start : Session σ} (empty : start.schemas = ∅) (name : String)
    (schema : TableSchema) :
    (run store false calls start).2.schemas.get? name = some schema ↔
      SchemaEvent.Left (run store false calls start).1 name schema := by
  induction calls using List.reverseRecOn with
  | nil =>
      have forgotten : (run store false [] start).2.schemas.get? name = none := by
        rw [show (run store false [] start).2.schemas = ∅ from empty]
        rfl
      rw [forgotten]
      exact iff_of_false (by simp) SchemaEvent.not_left_nil
  | append_singleton earlier call ih =>
      rcases step : (call.act store false).runFrom (run store false earlier start).2 with
        ⟨outcome, after⟩
      rw [run_concat, SchemaEvent.left_concat_iff, step, get?_schemas_of_runFrom step]
      split
      · rfl
      · exact ih

end Runs

/-- What the calls on a cache do after a run of such calls, with those outcomes, that
leads to that session. -/
structure Obeys (store : Store σ) (autoRefresh : Bool) (events : List SchemaEvent)
    (session : Session (σ × List StoreRequest)) : Prop where
  /-- With automatic refreshing, no schema is found that is not complete. -/
  complete : autoRefresh = true → ∀ {name schema after},
    (Session.schema store.logged autoRefresh name).runFrom session = (.ok schema, after) →
      schema.isComplete = true
  /-- A complete schema that has been found is found again without a request or any other effect,
  until a call that replaces schemas is about its name. -/
  kept : ∀ {name schema after calls},
    (Session.schema store.logged autoRefresh name).runFrom session = (.ok schema, after) →
      schema.isComplete = true →
    (∀ call ∈ calls, call.replaces = true → call.table ≠ name) →
    (Session.schema store.logged autoRefresh name).runFrom
      (run store.logged autoRefresh calls after).2 =
      (.ok schema, (run store.logged autoRefresh calls after).2)
  /-- Without automatic refreshing a lookup changes nothing and asks for nothing: it finds what
  the calls left, and else fails. -/
  off : autoRefresh = false → ∀ name, ∃ outcome,
    (Session.schema store.logged autoRefresh name).runFrom session = (outcome, session) ∧
      (∀ schema, outcome = .ok schema ↔ SchemaEvent.Left events name schema) ∧
      ∀ error, outcome = .error error → error = .notCached name
  /-- A call that fails leaves what is remembered as it is. -/
  failed : ∀ {call : SchemaCall} {error after},
    (call.act store.logged autoRefresh).runFrom session = (.error error, after) →
      after.schemas = session.schemas
  /-- A call asks for nothing, but for the description of its table, once at most,
  if it may describe it. -/
  asked : ∀ {call : SchemaCall} {outcome after},
    (call.act store.logged autoRefresh).runFrom session = (outcome, after) →
    after.world.2 = session.world.2 ∨
      call.describes = true ∧ after.world.2 = session.world.2 ++ [.describe call.table]

/-- After every run of calls on an empty cache, over every store, the calls do as they should. -/
theorem obeys_run (store : Store σ) (autoRefresh : Bool) (calls : List SchemaCall) (world : σ)
    (log : List StoreRequest) (warnings : List Overriding) :
    Obeys store autoRefresh (run store.logged autoRefresh calls ⟨(world, log), ∅, warnings⟩).1
      (run store.logged autoRefresh calls ⟨(world, log), ∅, warnings⟩).2 where
  complete on name schema after finds := by
    subst on
    exact Session.isComplete_of_runFrom_schema finds
  kept finds complete others :=
    Session.runFrom_schema_of_complete
      (keeps_run (fun call member => keeps_complete complete (others call member))
        (Session.get?_of_runFrom_schema finds)) complete
  off off name := by
    subst off
    obtain ⟨outcome, runs, found, failed⟩ := Session.runFrom_schema_of_off store.logged name
      (run store.logged false calls ⟨(world, log), ∅, warnings⟩).2
    exact ⟨outcome, runs, fun schema => (found schema).trans (get?_run_iff rfl name schema),
      failed⟩
  failed fails := schemas_of_runFrom_error fails
  asked runs := exists_asked_of_runFrom runs

end SchemaCall

end ItemSeal
