import ItemSeal.Proofs.SealedStore.Resolution

/-!
Sealed stores that note what they ask for. `SealedStore.logged` is the sealed store over a world
with a log, its store noting every request and its keys coming from the world alone. Beside the
log it does what it does without (`Act.Notes`), so requests can be told from runs of the plain
store: finding a configuration asks for the description of that table at most
(`SealedStore.notes_config`), and sealing and unsealing items ask for nothing
(`SealedStore.notes_sealWrites`, `SealedStore.notes_unsealResponse`).
-/

namespace ItemSeal

/-! ## Worlds with a log -/

/-- The world beside something else. -/
def Part.first {σ τ : Type} : Part (σ × τ) σ :=
  ⟨Prod.fst, fun world whole => (world, whole.2)⟩

variable {σ τ α β γ δ : Type}

/-- The provider in a world with a log, which it does not touch. -/
def MaterialsProvider.logged (provider : MaterialsProvider σ) :
    MaterialsProvider (σ × List StoreRequest) where
  encryptionMaterials context := (provider.encryptionMaterials context).within .first
  decryptionMaterials context description :=
    (provider.decryptionMaterials context description).within .first

/-- The configuration in a world with a log. -/
def SealConfig.logged (config : SealConfig σ) : SealConfig (σ × List StoreRequest) :=
  ⟨config.provider.logged, config.context, config.policy⟩

/-- The sealed store whose store notes each request. -/
def SealedStore.logged (sealed : SealedStore σ) : SealedStore (σ × List StoreRequest) where
  store := sealed.store.logged
  provider := sealed.provider.logged
  policy := sealed.policy
  autoRefresh := sealed.autoRefresh

/-- The session over the same world with a log. -/
def Session.withLog (session : Session σ) (log : List StoreRequest) :
    Session (σ × List StoreRequest) where
  world := (session.world, log)
  schemas := session.schemas
  warnings := session.warnings

/-! ## Actions beside a log -/

namespace Act

/-- With a log the action does what it does without, its output translated, and it notes requests
of the allowed kind only, whatever is in the log before. -/
def Notes (note : σ → List StoreRequest → τ) (allowed : StoreRequest → Prop) (translate : α → β)
    (act : Act σ α) (noting : Act τ β) : Prop :=
  ∀ world, ∃ requests, (∀ request ∈ requests, allowed request) ∧ ∀ log,
    noting.runFrom (note world log) =
      ((act.runFrom world).1.map translate, note (act.runFrom world).2 (log ++ requests))

section Notes

variable {note : σ → List StoreRequest → τ} {allowed larger : StoreRequest → Prop}
  {translate : α → β} {act : Act σ α} {noting : Act τ β}

theorem Notes.mono (notes : Notes note allowed translate act noting)
    (within : ∀ request, allowed request → larger request) :
    Notes note larger translate act noting := by
  intro world
  obtain ⟨requests, allowed, runs⟩ := notes world
  exact ⟨requests, fun request member => within request (allowed request member), runs⟩

theorem Notes.liftM (outcome : Except Error α) :
    Notes note allowed translate (MonadLiftT.monadLift outcome : Act σ α)
      (MonadLiftT.monadLift (outcome.map translate) : Act τ β) := by
  intro world
  exact ⟨[], by simp, fun log => by rw [List.append_nil]; rfl⟩

theorem Notes.liftM_id (outcome : Except Error α) :
    Notes note allowed id (MonadLiftT.monadLift outcome : Act σ α)
      (MonadLiftT.monadLift outcome : Act τ α) := by
  have notes : Notes note allowed id (MonadLiftT.monadLift outcome : Act σ α)
      (MonadLiftT.monadLift (outcome.map id) : Act τ α) := .liftM outcome
  rwa [Except.map_id] at notes

theorem Notes.pure (a : α) :
    Notes note allowed translate (Pure.pure a : Act σ α) (Pure.pure (translate a) : Act τ β) :=
  .liftM (.ok a)

theorem Notes.throw (error : Error) :
    Notes note allowed translate (MonadExcept.throw error : Act σ α)
      (MonadExcept.throw error : Act τ β) :=
  .liftM (.error error)

theorem Notes.bind {next : α → Act σ γ} {nextNoting : β → Act τ δ} {translateNext : γ → δ}
    (notes : Notes note allowed translate act noting)
    (notesNext : ∀ a, Notes note allowed translateNext (next a) (nextNoting (translate a))) :
    Notes note allowed translateNext (act >>= next) (noting >>= nextNoting) := by
  intro world
  obtain ⟨requests, within, runs⟩ := notes world
  rcases outcome : act.runFrom world with ⟨error | a, between⟩
  · refine ⟨requests, within, fun log => ?_⟩
    have fails := runs log
    rw [outcome] at fails
    rw [runFrom_bind_of_error outcome, runFrom_bind_of_error fails]
    rfl
  · obtain ⟨more, withinMore, runsMore⟩ := notesNext a between
    refine ⟨requests ++ more, ?_, fun log => ?_⟩
    · intro request member
      exact (List.mem_append.1 member).elim (within request) (withinMore request)
    · have succeeds := runs log
      rw [outcome] at succeeds
      rw [runFrom_bind_of_ok outcome, runFrom_bind_of_ok succeeds, runsMore, List.append_assoc]

theorem Notes.mapM {step : α → Act σ γ} {stepNoting : α → Act τ γ} {list : List α}
    (notes : ∀ a ∈ list, Notes note allowed id (step a) (stepNoting a)) :
    Notes note allowed id (list.mapM step) (list.mapM stepNoting) := by
  induction list with
  | nil => exact .pure []
  | cons first rest ih =>
      rw [List.mapM_cons, List.mapM_cons]
      refine (notes first List.mem_cons_self).bind fun b => (ih ?_).bind fun others =>
        .pure (b :: others)
      exact fun a member => notes a (List.mem_cons_of_mem _ member)

theorem Notes.mapArrangedM {step : String → α → Act σ γ} {stepNoting : String → α → Act τ γ}
    {arrangement : Arrangement} {map : NameMap α}
    (notes : ∀ name a, map.get? name = some a →
      Notes note allowed id (step name a) (stepNoting name a)) :
    Notes note allowed id (map.mapArrangedM arrangement step)
      (map.mapArrangedM arrangement stepNoting) := by
  refine Notes.bind (Notes.mapM fun (name, a) member => ?_) fun changed =>
    .pure (NameMap.ofList changed)
  exact (notes name a (NameMap.mem_arranged_iff.1 member)).bind fun value => .pure (name, value)

theorem Notes.optionMapM {step : α → Act σ γ} {stepNoting : α → Act τ γ} {option : Option α}
    (notes : ∀ a, option = some a → Notes note allowed id (step a) (stepNoting a)) :
    Notes note allowed id (option.mapM step) (option.mapM stepNoting) := by
  cases option with
  | none => exact .pure none
  | some a =>
      rw [Option.mapM_some, Option.mapM_some, map_eq_pure_bind, map_eq_pure_bind]
      exact (notes a rfl).bind fun b => .pure (some b)

theorem Notes.attempt {noting : Act τ α} (notes : Notes note allowed id act noting) :
    Notes note allowed id act.attempt noting.attempt := by
  intro world
  obtain ⟨requests, within, runs⟩ := notes world
  refine ⟨requests, within, fun log => ?_⟩
  rw [runFrom_attempt, runFrom_attempt, runs log, Except.map_id]
  rfl

/-- What is done to the world in a session is done to it in the session with a log. -/
theorem Notes.call {act : Act σ α} {noting : Act (σ × List StoreRequest) β}
    (notes : Notes Prod.mk allowed translate act noting) :
    Notes Session.withLog allowed translate (Session.call act) (Session.call noting) := by
  intro session
  obtain ⟨requests, within, runs⟩ := notes session.world
  refine ⟨requests, within, fun log => ?_⟩
  have runsHere := runs log
  rw [Session.runFrom_call, Session.runFrom_call, Session.withLog, runsHere]
  rfl

/-- Steps on the world beside the log note nothing. -/
theorem notes_within (act : Act σ α) :
    Notes Prod.mk allowed id act (act.within (Part.first : Part (σ × List StoreRequest) σ)) := by
  intro world
  refine ⟨[], by simp, fun log => ?_⟩
  rw [List.append_nil, Except.map_id]
  rfl

/-- Operations of a store note the one request that they are. -/
theorem notes_logged (request : StoreRequest) (act : Act σ α) :
    Notes Prod.mk (· = request) id act (ExceptT.mk fun (world, log) =>
      let (result, world) := act.runFrom world
      (result, world, log ++ [request]) : Act (σ × List StoreRequest) α) := by
  intro world
  refine ⟨[request], by simp, fun log => ?_⟩
  rw [Except.map_id]
  rfl

end Notes

end Act

/-! ## Sealing and unsealing items -/

section Items

open Act (Notes)

variable {allowed : StoreRequest → Prop}

theorem Item.notes_sealWith (config : SealConfig σ) (nonces : ItemNonces) (item : Item) :
    Notes Prod.mk allowed id (sealWith config nonces item)
      (sealWith config.logged nonces item) := by
  have sameFault : sealFault? config.logged.context item = sealFault? config.context item := rfl
  have sameProtection : config.logged.policy.protectsNothing = config.policy.protectsNothing :=
    rfl
  unfold sealWith
  rw [sameFault, sameProtection]
  cases sealFault? config.context item with
  | some error => exact .throw error
  | none =>
      cases config.policy.protectsNothing with
      | true => exact .pure item
      | false => exact (Act.notes_within _).bind fun materials => .liftM_id _

theorem Item.notes_unsealWith (config : SealConfig σ) (item : Item) :
    Notes Prod.mk allowed id (unsealWith config item) (unsealWith config.logged item) := by
  have sameProtection : config.logged.policy.protectsNothing = config.policy.protectsNothing :=
    rfl
  unfold unsealWith
  rw [sameProtection]
  split
  · split
    · exact .pure item
    · exact .throw _
  · next text signature described signed =>
      cases MaterialDescription.ofText? text with
      | none => exact .throw _
      | some description => exact (Act.notes_within _).bind fun materials => .liftM_id _
  · exact .throw _

end Items

/-! ## Configurations -/

namespace Session

open Act (Notes)

variable {store : Store σ} {table : String}

theorem notes_describeSchema :
    Notes Prod.mk (· = .describe table) id (describeSchema store table)
      (describeSchema store.logged table) := by
  refine (Act.notes_logged (.describe table) (store.describe table)).attempt.bind fun outcome =>
    ?_
  cases outcome with
  | error cause => exact (Notes.throw _).bind fun _ => .liftM_id _
  | ok described => exact (Notes.pure described).bind fun _ => .liftM_id _

theorem notes_remember (schema : TableSchema) {allowed : StoreRequest → Prop} :
    Notes withLog allowed id (remember table schema : Act (Session σ) Unit)
      (remember table schema) := by
  intro session
  exact ⟨[], by simp, fun log => by rw [List.append_nil]; rfl⟩

theorem notes_warn (overridings : List Overriding) {allowed : StoreRequest → Prop} :
    Notes withLog allowed id (warn overridings : Act (Session σ) Unit) (warn overridings) := by
  intro session
  exact ⟨[], by simp, fun log => by rw [List.append_nil]; rfl⟩

/-- Looking a schema up asks for the description of the table, if anything. -/
theorem notes_schema (autoRefresh : Bool) :
    Notes withLog (· = .describe table) id (schema store autoRefresh table)
      (schema store.logged autoRefresh table) := by
  have refreshes : Notes withLog (· = .describe table) id (refreshSchema store table)
      (refreshSchema store.logged table) :=
    notes_describeSchema.call.bind fun schema => (notes_remember schema).bind fun _ =>
      .pure schema
  intro session
  have sameCache : ∀ log, (session.withLog log).schemas = session.schemas := fun _ => rfl
  simp only [runFrom_schema_of, sameCache]
  cases served? autoRefresh (session.schemas.get? table) with
  | some known => exact ⟨[], by simp, fun log => by rw [List.append_nil]; rfl⟩
  | none =>
      cases autoRefresh with
      | true => exact refreshes session
      | false => exact ⟨[], by simp, fun log => by rw [List.append_nil]; rfl⟩

theorem notes_configure (provider : MaterialsProvider σ) (policy : ActionPolicy)
    (schema : TableSchema) {allowed : StoreRequest → Prop} :
    Notes withLog allowed SealConfig.logged (configure provider policy schema)
      (configure provider.logged policy schema) := by
  have built : SealConfig.forTable provider.logged policy schema =
      (SealConfig.forTable provider policy schema).map SealConfig.logged := by
    unfold SealConfig.forTable
    cases schema.protectedKeys <;> rfl
  unfold configure
  rw [built]
  exact (Notes.liftM _).bind fun config => (notes_warn _).bind fun _ => .pure config

end Session

namespace SealedStore

open Act (Notes)

variable (sealed : SealedStore σ) (override : Option (SealConfig σ))

/-- Finding the configuration of a table asks for its description, if anything. -/
theorem notes_config (table : String) :
    Notes Session.withLog (· = .describe table) SealConfig.logged (sealed.config override table)
      (sealed.logged.config (override.map SealConfig.logged) table) := by
  cases override with
  | some given => exact .pure given
  | none => exact (Session.notes_schema _).bind fun schema => Session.notes_configure _ _ schema

theorem notes_sealWrites (nonces : String → Nat → ItemNonces) (table : String)
    (requests : List WriteRequest) :
    Notes Session.withLog (· = .describe table) id
      (sealed.sealWrites override nonces table requests)
      (sealed.logged.sealWrites (override.map SealConfig.logged) nonces table requests) := by
  refine (sealed.notes_config override table).bind fun config =>
    Notes.call (Notes.mapM fun entry _ => ?_)
  refine (Notes.optionMapM fun item _ => Item.notes_sealWith config _ item).bind fun put => ?_
  exact .pure { entry.1 with put }

theorem notes_unsealResponse (table : String) (items : List Item) :
    Notes Session.withLog (· = .describe table) id (sealed.unsealResponse override table items)
      (sealed.logged.unsealResponse (override.map SealConfig.logged) table items) :=
  (sealed.notes_config override table).bind fun config =>
    Notes.call (Notes.mapM fun item _ => Item.notes_unsealWith config item)

end SealedStore

end ItemSeal
