import Mathlib.Data.List.Induction
import ItemSeal.Proofs.Schema.KeyExemption
import ItemSeal.Proofs.SealedStore.RequestLog

/-!
Views of one table that are held and refreshed, over any store, whatever else goes on between the
refreshes. A view is changed in place, its configuration before its schema, and comes out as one
that is made anew with the description, or else as it was (`HeldTable.runFrom_refresh`). What has
been before is therefore lost: after any run the view is a new one with the schema of the last
refresh that succeeded (`HeldTable.keepsNoHistory_run`).
-/

namespace ItemSeal

variable {σ : Type}

/-! ## New views -/

section Configured

variable {provider : MaterialsProvider σ} {policy : ActionPolicy} {schema : TableSchema}

theorem Session.runFrom_configure (provider : MaterialsProvider σ) (policy : ActionPolicy)
    (schema : TableSchema) (session : Session σ) :
    (Session.configure provider policy schema).runFrom session =
      match SealConfig.forTable provider policy schema with
      | .ok config =>
          (.ok config,
            { session with warnings := session.warnings ++ policy.overriddenBy schema })
      | .error error => (.error error, session) := by
  unfold Session.configure
  rw [Act.runFrom_bind, Act.runFrom_liftM]
  rcases SealConfig.forTable provider policy schema with error | config <;> rfl

/-- A table with an accepted description can be configured. -/
theorem SealConfig.exists_forTable_of_ofDescription {name : String}
    {description : TableDescription}
    (accepted : TableSchema.ofDescription name description = .ok schema) :
    ∃ config, forTable provider policy schema = .ok config := by
  obtain ⟨keys, known⟩ :=
    TableSchema.protectedKeys_eq_ok (TableDescription.indexes_ofDescription accepted).1
  exact ⟨_, forTable_eq_ok_iff.2 ⟨keys, known, rfl⟩⟩

/-- The configuration exempts the keys of the table's indexes, and leaves
all else to the policy. -/
theorem SealConfig.action_forTable {config : SealConfig σ}
    (configured : forTable provider policy schema = .ok config) (name : String) :
    config.policy.action name =
      if ∃ index ∈ schema.indexes, name ∈ index.attributes then .doNothing else
        policy.action name := by
  obtain ⟨keys, known, rfl⟩ := forTable_eq_ok_iff.1 configured
  rw [ActionPolicy.action_withIndexKeys]
  simp only [TableSchema.mem_protectedKeys known]

end Configured

namespace SealedTable

section New

variable {store : Store σ} {provider : MaterialsProvider σ} {policy : ActionPolicy}
  {schema : TableSchema} {autoRefresh : Bool} {table : SealedTable σ}

/-- The view is one that is made with these. -/
def IsNew (store : Store σ) (provider : MaterialsProvider σ) (policy : ActionPolicy)
    (schema : TableSchema) (autoRefresh : Bool) (table : SealedTable σ) : Prop :=
  ∃ config, SealConfig.forTable provider policy schema = .ok config ∧
    table = { store, schema, policy, autoRefresh, config }

/-- It does not matter in which session a view is made. -/
theorem exists_runFrom_create_iff {session : Session σ} :
    (∃ after, (create store provider policy schema autoRefresh).runFrom session =
      (.ok table, after)) ↔
      IsNew store provider policy schema autoRefresh table := by
  have configures := Session.runFrom_configure provider policy schema session
  unfold create IsNew
  rw [Act.runFrom_bind, configures]
  rcases SealConfig.forTable provider policy schema with error | config
  · simp
  · simp [eq_comm]

end New

/-- How a refresh of a view goes in a session. -/
inductive Refreshes (table : SealedTable σ) (session : Session σ) :
    Except Error (SealedTable σ) → Session σ → Prop where
  | off (isOff : table.autoRefresh = false) : Refreshes table session (.ok table) session
  | untold {error : Error} {world : σ} (isOn : table.autoRefresh = true)
      (fails : (table.store.describe table.name).runFrom session.world = (.error error, world)) :
      Refreshes table session (.error error) { session with world }
  | refused {description : TableDescription} {error : Error} {world : σ}
      (isOn : table.autoRefresh = true)
      (describes :
        (table.store.describe table.name).runFrom session.world = (.ok description, world))
      (refuses : TableSchema.ofDescription table.name description = .error error) :
      Refreshes table session (.error error) { session with world }
  | renewed {description : TableDescription} {schema : TableSchema} {config : SealConfig σ}
      {world : σ} (isOn : table.autoRefresh = true)
      (describes :
        (table.store.describe table.name).runFrom session.world = (.ok description, world))
      (accepts : TableSchema.ofDescription table.name description = .ok schema)
      (configures : SealConfig.forTable table.config.provider table.policy schema = .ok config) :
      Refreshes table session (.ok { table with schema, config })
        { session with world, warnings := session.warnings ++ table.policy.overriddenBy schema }

theorem refreshes_runFrom_refresh (table : SealedTable σ) (session : Session σ) :
    table.Refreshes session (table.refresh.runFrom session).1
      (table.refresh.runFrom session).2 := by
  unfold refresh
  split
  · next isOn =>
      rcases describes : (table.store.describe table.name).runFrom session.world with
        ⟨error | description, world⟩
      · have asks : (Session.call (table.store.describe table.name)).runFrom session =
            (.error error, { session with world }) := by rw [Session.runFrom_call, describes]
        rw [Act.runFrom_bind_of_error asks]
        exact .untold isOn describes
      · have asks : (Session.call (table.store.describe table.name)).runFrom session =
            (.ok description, { session with world }) := by rw [Session.runFrom_call, describes]
        rw [Act.runFrom_bind_of_ok asks, Act.runFrom_bind, Act.runFrom_liftM]
        cases accepts : TableSchema.ofDescription table.name description with
        | error error => exact .refused isOn describes accepts
        | ok schema =>
            obtain ⟨config, configures⟩ := SealConfig.exists_forTable_of_ofDescription accepts
            have builds := Session.runFrom_configure table.config.provider table.policy schema
              { session with world }
            rw [configures] at builds
            dsimp only
            rw [Act.runFrom_bind_of_ok builds]
            exact .renewed isOn describes accepts configures
  · next isOff => exact .off (by simpa using isOff)

end SealedTable

/-! ## Views changed in place -/

/-- A view of a table that is held in a session. -/
structure HeldTable (σ : Type) where
  session : Session σ
  table : SealedTable σ

/-- A refresh of a view. -/
structure Refreshing where
  /-- The name of the table by then. -/
  name : String
  /-- What the store told of it, if it was asked. -/
  told : Option (Except Error TableDescription)
  outcome : Except Error Unit

/-- What happens while a view is held. -/
inductive HeldStep (σ : Type) where
  /-- The view is refreshed. -/
  | refresh
  /-- Something else goes on in the session. -/
  | elsewhere (change : Session σ → Session σ)

namespace HeldTable

/-- The session of a view. -/
def sessionPart : Part (HeldTable σ) (Session σ) :=
  ⟨(·.session), fun session held => { held with session }⟩

/-- Refreshes the view: first its configuration is replaced, and then its schema. -/
def refresh : Act (HeldTable σ) Unit := do
  let table := (← get).table
  if table.autoRefresh then
    let description ← (Session.call (table.store.describe table.name)).within sessionPart
    let schema ← TableSchema.ofDescription table.name description
    let config ← (Session.configure table.config.provider table.policy schema).within sessionPart
    modify fun held => { held with table := { held.table with config } }
    modify fun held => { held with table := { held.table with schema } }

/-- What refreshing the view now comes to. -/
def refreshing (held : HeldTable σ) : Refreshing where
  name := held.table.name
  told :=
    if held.table.autoRefresh then
      some ((held.table.store.describe held.table.name).runFrom held.session.world).1
    else none
  outcome := (refresh.runFrom held).1

/-- The refreshes and all else one after the other: how the refreshes went, and
the view that they leave. -/
def run (steps : List (HeldStep σ)) (start : HeldTable σ) : List Refreshing × HeldTable σ :=
  steps.foldl (fun (refreshings, held) step =>
    match step with
    | .refresh => (refreshings ++ [held.refreshing], (refresh.runFrom held).2)
    | .elsewhere change =>
        (refreshings, { held with session := change held.session })) ([], start)

end HeldTable

namespace Refreshing

/-- What a refresh has to come to: it succeeds if nobody is asked, or if a description is told
that can be accepted, and else fails with what stands against that. -/
def due (refreshing : Refreshing) : Except Error Unit :=
  match refreshing.told with
  | none => .ok ()
  | some told => (told >>= TableSchema.ofDescription refreshing.name).map fun _ => ()

/-- The schema that a refresh brings if it succeeds. -/
def brought? (refreshing : Refreshing) : Option TableSchema :=
  match refreshing.outcome, refreshing.told with
  | .ok (), some (.ok description) =>
      (TableSchema.ofDescription refreshing.name description).toOption
  | _, _ => none

/-- The schema of the last refresh that succeeded, or the initial one. -/
def last (initial : TableSchema) (refreshings : List Refreshing) : TableSchema :=
  (refreshings.filterMap brought?).getLast?.getD initial

theorem last_concat (initial : TableSchema) (earlier : List Refreshing)
    (refreshing : Refreshing) :
    last initial (earlier ++ [refreshing]) = refreshing.brought?.getD (last initial earlier) := by
  unfold last
  rw [List.filterMap_append, List.getLast?_append]
  cases brought : refreshing.brought? with
  | none => rw [List.filterMap_cons_none brought]; rfl
  | some schema => rw [List.filterMap_cons_some brought]; rfl

end Refreshing

namespace HeldTable

/-! ## Single refreshes -/

theorem runFrom_within {α : Type} (act : Act (Session σ) α) (held : HeldTable σ) :
    (act.within sessionPart).runFrom held =
      ((act.runFrom held.session).1, { held with session := (act.runFrom held.session).2 }) := rfl

/-- A view refreshed in place is what the refresh makes of it, or what it was. -/
theorem runFrom_refresh (held : HeldTable σ) :
    refresh.runFrom held =
      match held.table.refresh.runFrom held.session with
      | (.ok table, session) => (.ok (), ⟨session, table⟩)
      | (.error error, session) => (.error error, ⟨session, held.table⟩) := by
  obtain ⟨session, table⟩ := held
  have reads : (get : Act (HeldTable σ) (HeldTable σ)).runFrom ⟨session, table⟩ =
      (.ok ⟨session, table⟩, ⟨session, table⟩) := rfl
  unfold refresh SealedTable.refresh
  rw [Act.runFrom_bind_of_ok reads]
  dsimp only
  split
  · rw [Act.runFrom_bind, runFrom_within, Act.runFrom_bind]
    rcases (Session.call (table.store.describe table.name)).runFrom session with
      ⟨error | description, between⟩
    · rfl
    · dsimp only
      rw [Act.runFrom_bind, Act.runFrom_bind, Act.runFrom_liftM, Act.runFrom_liftM]
      rcases TableSchema.ofDescription table.name description with error | schema
      · rfl
      · dsimp only
        rw [Act.runFrom_bind, runFrom_within, Act.runFrom_bind]
        rcases (Session.configure table.config.provider table.policy schema).runFrom between with
          ⟨error | config, after⟩ <;> rfl
  · rfl

/-- How a refresh of the view goes, and what it leaves of the view. -/
theorem exists_refreshes (held : HeldTable σ) :
    ∃ outcome after, held.table.Refreshes held.session outcome after ∧
      refresh.runFrom held =
        match outcome with
        | .ok table => (.ok (), ⟨after, table⟩)
        | .error error => (.error error, ⟨after, held.table⟩) := by
  refine ⟨_, _, held.table.refreshes_runFrom_refresh held.session, ?_⟩
  rw [runFrom_refresh]
  rcases held.table.refresh.runFrom held.session with ⟨error | table, after⟩ <;> rfl

/-- A refresh asks for a description with automatic refreshing only. -/
theorem isSome_told_refreshing (held : HeldTable σ) :
    held.refreshing.told.isSome = held.table.autoRefresh := by
  unfold refreshing
  cases held.table.autoRefresh <;> rfl

/-- A refresh comes to what it has to. -/
theorem outcome_refreshing (held : HeldTable σ) :
    held.refreshing.outcome = held.refreshing.due := by
  obtain ⟨outcome, after, goes, changes⟩ := held.exists_refreshes
  simp only [refreshing, Refreshing.due, changes]
  cases goes with
  | off isOff =>
      rw [isOff]
      rfl
  | untold isOn fails =>
      rw [isOn, fails]
      rfl
  | refused isOn describes gives | renewed isOn describes gives =>
      rw [isOn, describes]
      change _ = (TableSchema.ofDescription held.table.name _).map _
      rw [gives]
      rfl

/-- A refresh that fails leaves the view as it is. -/
theorem table_of_runFrom_refresh_error {held after : HeldTable σ} {error : Error}
    (fails : refresh.runFrom held = (.error error, after)) : after.table = held.table := by
  rw [runFrom_refresh] at fails
  split at fails <;> cases fails
  rfl

/-- Without automatic refreshing a refresh does nothing. -/
theorem runFrom_refresh_of_off {held : HeldTable σ} (isOff : held.table.autoRefresh = false) :
    refresh.runFrom held = (.ok (), held) := by
  obtain ⟨outcome, after, goes, changes⟩ := held.exists_refreshes
  cases goes with
  | off => exact changes
  | untold isOn | refused isOn | renewed isOn => cases isOff.symm.trans isOn

/-- With automatic refreshing it asks for the description of the table, and for nothing else. -/
theorem log_refresh_of_on {store : Store σ} {held : HeldTable (σ × List StoreRequest)}
    (noting : held.table.store = store.logged) (isOn : held.table.autoRefresh = true) :
    (refresh.runFrom held).2.session.world.2 = held.session.world.2 ++
      [.describe held.table.name] := by
  have asks : ((held.table.store.describe held.table.name).runFrom held.session.world).2.2 =
      held.session.world.2 ++ [.describe held.table.name] := by
    rw [noting]
    rfl
  obtain ⟨outcome, after, goes, changes⟩ := held.exists_refreshes
  rw [changes]
  cases goes with
  | off isOff => cases isOff.symm.trans isOn
  | untold _ describes | refused _ describes | renewed _ describes =>
      rw [describes] at asks
      exact asks

section New

variable {store : Store σ} {provider : MaterialsProvider σ} {policy : ActionPolicy}
  {schema : TableSchema} {autoRefresh : Bool} {held : HeldTable σ}

/-- A refresh leaves a new view with the schema that it brings, or with the one
before if it brings none. -/
theorem isNew_refresh (isNew : held.table.IsNew store provider policy schema autoRefresh) :
    (refresh.runFrom held).2.table.IsNew store provider policy
      (held.refreshing.brought?.getD schema) autoRefresh := by
  obtain ⟨outcome, after, goes, changes⟩ := held.exists_refreshes
  simp only [refreshing, Refreshing.brought?, changes]
  cases goes with
  | off isOff =>
      rw [isOff]
      exact isNew
  | untold => exact isNew
  | refused => exact isNew
  | renewed isOn describes accepts configures =>
      rw [isOn, if_pos rfl, describes]
      dsimp only
      rw [accepts]
      -- The policy of the view has no keys exempt yet, and its provider is the one
      -- that it was made with.
      obtain ⟨config, configured, made⟩ := isNew
      obtain ⟨keys, -, rfl⟩ := SealConfig.forTable_eq_ok_iff.1 configured
      rw [made] at isOn configures ⊢
      obtain rfl : autoRefresh = true := isOn
      exact ⟨_, configures, rfl⟩

end New

/-! ## Runs -/

theorem run_concat_refresh (steps : List (HeldStep σ)) (start : HeldTable σ) :
    run (steps ++ [.refresh]) start =
      ((run steps start).1 ++ [(run steps start).2.refreshing],
        (refresh.runFrom (run steps start).2).2) := by
  rw [run, List.foldl_append]
  rfl

theorem run_concat_elsewhere (steps : List (HeldStep σ)) (change : Session σ → Session σ)
    (start : HeldTable σ) :
    run (steps ++ [.elsewhere change]) start =
      ((run steps start).1,
        { (run steps start).2 with session := change (run steps start).2.session }) := by
  rw [run, List.foldl_append]
  rfl

section Run

variable {store : Store σ} {provider : MaterialsProvider σ} {policy : ActionPolicy}
  {initial : TableSchema} {autoRefresh : Bool} {start : HeldTable σ}

/-- A run leaves a new view with the schema of the last refresh that succeeded. -/
theorem isNew_run (isNew : start.table.IsNew store provider policy initial autoRefresh)
    (steps : List (HeldStep σ)) :
    (run steps start).2.table.IsNew store provider policy
      (Refreshing.last initial (run steps start).1) autoRefresh := by
  induction steps using List.reverseRecOn with
  | nil => exact isNew
  | append_singleton earlier step ih =>
      cases step with
      | refresh =>
          rw [run_concat_refresh, Refreshing.last_concat]
          exact isNew_refresh ih
      | elsewhere change =>
          rw [run_concat_elsewhere]
          exact ih

/-- Each refresh of a run is that of the view that the steps before it leave. -/
theorem exists_of_mem_run {steps : List (HeldStep σ)} {refreshing : Refreshing}
    (member : refreshing ∈ (run steps start).1) :
    ∃ earlier, earlier <+: steps ∧ (run earlier start).2.refreshing = refreshing := by
  induction steps using List.reverseRecOn with
  | nil => cases member
  | append_singleton earlier step ih =>
      have before : refreshing ∈ (run earlier start).1 →
          ∃ front, front <+: earlier ++ [step] ∧
            (run front start).2.refreshing = refreshing := by
        intro already
        obtain ⟨front, isFront, same⟩ := ih already
        exact ⟨front, isFront.trans (List.prefix_append earlier [step]), same⟩
      cases step with
      | refresh =>
          rw [run_concat_refresh] at member
          rcases List.mem_append.1 member with already | here
          · exact before already
          · exact ⟨earlier, List.prefix_append earlier _, (List.mem_singleton.1 here).symm⟩
      | elsewhere change =>
          rw [run_concat_elsewhere] at member
          exact before member

end Run

/-- What refreshes have come to, and what the next one does, for a view
that was made with these. -/
structure KeepsNoHistory (store : Store σ) (provider : MaterialsProvider (σ × List StoreRequest))
    (policy : ActionPolicy) (initial : TableSchema) (autoRefresh : Bool)
    (refreshings : List Refreshing) (held : HeldTable (σ × List StoreRequest)) : Prop where
  /-- The view is a new one with the schema of the last refresh that succeeded,
  or with the initial one. -/
  renewed : ∀ session, ∃ after,
    (SealedTable.create store.logged provider policy
      (Refreshing.last initial refreshings) autoRefresh).runFrom
      session = (.ok held.table, after)
  /-- Only the keys of that schema are exempt from the policy. -/
  action : ∀ name, held.table.config.policy.action name =
    if ∃ index ∈ (Refreshing.last initial refreshings).indexes,
      name ∈ index.attributes then .doNothing
    else policy.action name
  /-- With automatic refreshing the store was asked each time, and each refresh
  came to what it was told. -/
  outcomes : ∀ refreshing ∈ refreshings,
    refreshing.told.isSome = autoRefresh ∧ refreshing.outcome = refreshing.due
  /-- With automatic refreshing the next one asks for the description of the
  table, and for nothing else. -/
  on : autoRefresh = true → (refresh.runFrom held).2.session.world.2 =
    held.session.world.2 ++ [.describe (Refreshing.last initial refreshings).name]
  /-- Without automatic refreshing it asks for nothing and changes nothing. -/
  off : autoRefresh = false → refresh.runFrom held = (.ok (), held)
  /-- If it fails, the view stays as it is. -/
  failed : ∀ {error after}, refresh.runFrom held = (.error error, after) →
    after.table = held.table

/-- A view that is refreshed any number of times, while anything else goes on, keeps nothing of
what it was before the last refresh that succeeded. -/
theorem keepsNoHistory_run {store : Store σ}
    {provider : MaterialsProvider (σ × List StoreRequest)} {policy : ActionPolicy}
    {initial : TableSchema} {autoRefresh : Bool} {session : Session (σ × List StoreRequest)}
    {start : HeldTable (σ × List StoreRequest)}
    (made :
      (SealedTable.create store.logged provider policy initial autoRefresh).runFrom session =
      (.ok start.table, start.session)) (steps : List (HeldStep (σ × List StoreRequest))) :
    KeepsNoHistory store provider policy initial autoRefresh (run steps start).1
      (run steps start).2 := by
  have isNew := SealedTable.exists_runFrom_create_iff.1 ⟨_, made⟩
  have kept := isNew_run isNew steps
  obtain ⟨config, configured, same⟩ := id kept
  refine ⟨fun session => SealedTable.exists_runFrom_create_iff.2 kept, ?_, ?_, ?_, ?_, ?_⟩
  · rw [same]
    exact SealConfig.action_forTable configured
  · intro refreshing member
    obtain ⟨earlier, -, rfl⟩ := exists_of_mem_run member
    obtain ⟨_, _, made⟩ := isNew_run isNew earlier
    rw [isSome_told_refreshing, made]
    exact ⟨rfl, outcome_refreshing _⟩
  · intro isOn
    have noting : (run steps start).2.table.store = store.logged := by rw [same]
    rw [log_refresh_of_on noting (by rw [same]; exact isOn), same]
    rfl
  · intro isOff
    exact runFrom_refresh_of_off (by rw [same]; exact isOff)
  · exact table_of_runFrom_refresh_error

namespace Sample

-- A store that says what is to be said one after the other, and a table whose status is an
-- index key for some time.
def store : Store (List (Except Error TableDescription)) where
  describe _ := ExceptT.mk fun answers => (answers.headD (.error .resourceNotFound), answers.tail)
  list _ := throw .resourceNotFound
  batchGet _ := throw .resourceNotFound
  batchWrite _ := throw .resourceNotFound
  put _ := throw .resourceNotFound
  get _ := throw .resourceNotFound
  delete _ := throw .resourceNotFound
  query _ := throw .resourceNotFound
  scan _ := throw .resourceNotFound

-- No item is sealed here, so nobody needs keys.
def provider : MaterialsProvider (List (Except Error TableDescription) × List StoreRequest) where
  encryptionMaterials _ := throw .noCredentials
  decryptionMaterials _ _ := throw .noCredentials

def policy : ActionPolicy := { explicit := NameMap.singleton "Status" .signOnly }

def initial : TableSchema := { name := "Orders", primary := some ⟨"OrderId", none⟩ }

def plain : TableDescription := { keySchema := some [⟨"OrderId", .partition⟩] }

def indexed : TableDescription :=
  { plain with globalIndexes := some [some [⟨"Status", .partition⟩]] }

def session : Session (List (Except Error TableDescription) × List StoreRequest) :=
  { world := ([.ok indexed, .ok {}, .ok plain, .error (.timedOut .dynamoDB)], []) }

def start : HeldTable (List (Except Error TableDescription) × List StoreRequest) where
  session := session
  table := ⟨store.logged, initial, policy, true,
    ⟨provider, .ofSchema initial, policy.withIndexKeys ["OrderId"]⟩⟩

/-- The status is left alone while it is an index key, also when there is no new description,
and signed again after. -/
theorem keepsNoHistory_run_status :
    (SealedTable.create store.logged provider policy initial true).runFrom session =
      (.ok start.table, start.session) ∧
      (∀ steps, KeepsNoHistory store provider policy initial true (run steps start).1
        (run steps start).2) ∧
      ∀ turn ∈ [(1, Action.doNothing), (2, .doNothing), (3, .signOnly), (4, .signOnly)],
        (run (List.replicate turn.1 .refresh) start).2.table.config.policy.action "Status" =
          turn.2 := by
  have made : (SealedTable.create store.logged provider policy initial true).runFrom session =
      (.ok start.table, start.session) := rfl
  have keeps := keepsNoHistory_run made
  refine ⟨made, keeps, ?_⟩
  intro turn member
  rw [(keeps _).action]
  revert turn
  decide

end Sample

end HeldTable

end ItemSeal
