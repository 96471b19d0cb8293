import ItemSeal.Proofs.Sealing.ActTurns
import ItemSeal.SealedStore

/-!
Where the configuration of a table comes from, in any store. A schema is remembered, or described
and then remembered under the name of that table only (`Session.schemaFrom_of_runFrom`,
`Session.keeps_schema`), and a configuration is the one given for the call or that of the schema
(`SealedStore.configFrom_of_runFrom`).
-/

namespace ItemSeal

/-- What an action keeps of the world it keeps of it in a session. -/
theorem Act.Keeps.onWorld {σ α : Type} {property : σ → Prop} {act : Act σ α}
    (keeps : Keeps property act) :
    Keeps (fun session : Session σ => property session.world) (Session.call act) :=
  fun session holds => keeps session.world holds

namespace Session

variable {σ α : Type} {store : Store σ} {autoRefresh : Bool} {table : String}
  {session after : Session σ}

theorem runFrom_call (act : Act σ α) (session : Session σ) :
    (call act).runFrom session =
      ((act.runFrom session.world).1,
        { session with world := (act.runFrom session.world).2 }) := rfl

theorem runFrom_call_eq_ok {act : Act σ α} {a : α}
    (runs : (call act).runFrom session = (.ok a, after)) :
    act.runFrom session.world = (.ok a, after.world) := by
  rw [Session.runFrom_call] at runs
  have outcome := congrArg Prod.fst runs
  have world := congrArg (·.2.world) runs
  exact Prod.ext outcome world

theorem runFrom_call_eq_error_iff {act : Act σ α} {error : Error} :
    (call act).runFrom session = (.error error, after) ↔
      ∃ world, act.runFrom session.world = (.error error, world) ∧
        after = { session with world } := by
  rw [Session.runFrom_call]
  rcases act.runFrom session.world with ⟨outcome, world⟩
  simp [eq_comm]

/-- What an action on the world does leaves the cache alone. -/
theorem keeps_remembered_call (act : Act σ α) {remembered : Option TableSchema} :
    Act.Keeps (fun session : Session σ => session.schemas.get? table = remembered) (call act) :=
  fun _ same => same

/-! ## Schemas -/

/-- Only a schema that is remembered may be served without a new description: any, if there are no
new descriptions, and else a complete one. -/
def served? (autoRefresh : Bool) (remembered : Option TableSchema) : Option TableSchema :=
  remembered.filter fun schema => !autoRefresh || schema.isComplete

/-- Where the schema of a table comes from, given what is remembered of it. -/
inductive SchemaFrom (store : Store σ) (autoRefresh : Bool) (table : String)
    (remembered : Option TableSchema) (world : σ) : TableSchema → Prop where
  | cache {schema : TableSchema} (serves : served? autoRefresh remembered = some schema) :
      SchemaFrom store autoRefresh table remembered world schema
  | description {schema : TableSchema} {described : TableDescription} {later : σ}
      (allowed : autoRefresh = true) (unserved : served? autoRefresh remembered = none)
      (describes : (store.describe table).runFrom world = (.ok described, later))
      (gives : TableSchema.ofDescription table described = .ok schema) :
      SchemaFrom store autoRefresh table remembered world schema

/-- A schema is served from the cache, or the table is described, or there is none. -/
theorem runFrom_schema_of (store : Store σ) (autoRefresh : Bool) (table : String)
    (session : Session σ) :
    (schema store autoRefresh table).runFrom session =
      match served? autoRefresh (session.schemas.get? table), autoRefresh with
      | some known, _ => (.ok known, session)
      | none, true => (refreshSchema store table).runFrom session
      | none, false => (.error (.notCached table), session) := by
  unfold schema served?
  rw [Act.runFrom_bind_of_ok (Act.runFrom_get session)]
  rcases session.schemas.get? table with _ | known
  · cases autoRefresh <;> rfl
  · cases autoRefresh with
    | false => rfl
    | true => cases complete : known.isComplete <;> simp [Option.filter, complete]

theorem exists_described_of_runFrom {world later : σ} {schema : TableSchema}
    (runs : (describeSchema store table).runFrom world = (.ok schema, later)) :
    ∃ described, (store.describe table).runFrom world = (.ok described, later) ∧
      TableSchema.ofDescription table described = .ok schema := by
  unfold describeSchema at runs
  rw [Act.runFrom_bind_of_ok (Act.runFrom_attempt _ world)] at runs
  rcases answers : (store.describe table).runFrom world with ⟨cause | described, between⟩ <;>
    rw [answers] at runs
  · cases runs
  · have gives :
        (liftM (TableSchema.ofDescription table described) : Act σ TableSchema).runFrom between =
          (.ok schema, later) := runs
    rw [Act.runFrom_liftM, Prod.mk.injEq] at gives
    exact ⟨described, by rw [gives.2], gives.1⟩

theorem schemaFrom_of_runFrom {found : TableSchema}
    (runs : (schema store autoRefresh table).runFrom session = (.ok found, after)) :
    SchemaFrom store autoRefresh table (session.schemas.get? table) session.world found := by
  rw [runFrom_schema_of] at runs
  split at runs
  · next serves =>
      cases runs
      exact .cache serves
  · next unserved =>
      obtain ⟨found', between, describes, remembers⟩ := Act.runFrom_bind_eq_ok_iff.1 runs
      obtain ⟨_, _, -, built⟩ := Act.runFrom_bind_eq_ok_iff.1 remembers
      cases built
      obtain ⟨described, describes, gives⟩ :=
        exists_described_of_runFrom (runFrom_call_eq_ok describes)
      exact .description rfl unserved describes gives
  · cases runs

/-- Looking a schema up keeps what describing the table and remembering the schema keep. -/
theorem keeps_schema {property : Session σ → Prop}
    (describes : Act.Keeps property (call (describeSchema store table)))
    (remembers : ∀ schema, Act.Keeps property (remember table schema)) (autoRefresh : Bool) :
    Act.Keeps property (schema store autoRefresh table) := by
  have refreshes : Act.Keeps property (refreshSchema store table) :=
    describes.bind fun schema => (remembers schema).bind fun _ => .pure schema
  intro session holds
  rw [runFrom_schema_of]
  split
  · exact holds
  · exact refreshes session holds
  · exact holds

/-- Describing a table is one request for its description. -/
theorem keeps_describeSchema {property : σ → Prop}
    (describes : Act.Keeps property (store.describe table)) :
    Act.Keeps property (describeSchema store table) := by
  have attempts : Act.Keeps property (store.describe table).attempt := by
    intro world holds
    rw [Act.runFrom_attempt]
    exact describes world holds
  refine attempts.bind fun outcome => ?_
  cases outcome with
  | error cause => exact (Act.Keeps.throw _).bind fun _ => .liftM _
  | ok described => exact (Act.Keeps.pure described).bind fun _ => .liftM _

end Session

namespace SealedStore

open Session (SchemaFrom)

variable {σ : Type} {sealed : SealedStore σ} {override : Option (SealConfig σ)} {table : String}
  {session after : Session σ} {config : SealConfig σ}

/-- Where the configuration of a table comes from: it is the one given for the call, or
else that of its schema. -/
def ConfigFrom (sealed : SealedStore σ) (override : Option (SealConfig σ)) (table : String)
    (remembered : Option TableSchema) (world : σ) (config : SealConfig σ) : Prop :=
  match override with
  | some given => config = given
  | none => ∃ schema, SchemaFrom sealed.store sealed.autoRefresh table remembered world schema ∧
      SealConfig.forTable sealed.provider sealed.policy schema = .ok config

theorem configFrom_of_runFrom
    (runs : (sealed.config override table).runFrom session = (.ok config, after)) :
    sealed.ConfigFrom override table (session.schemas.get? table) session.world config := by
  cases override with
  | some given =>
      cases runs
      rfl
  | none =>
      obtain ⟨schema, between, looksUp, configures⟩ := Act.runFrom_bind_eq_ok_iff.1 runs
      obtain ⟨config', later, builds, warns⟩ := Act.runFrom_bind_eq_ok_iff.1 configures
      obtain ⟨_, _, -, built⟩ := Act.runFrom_bind_eq_ok_iff.1 warns
      cases built
      rw [Act.runFrom_liftM, Prod.mk.injEq] at builds
      exact ⟨schema, Session.schemaFrom_of_runFrom looksUp, builds.1⟩

/-- Whose keys a configuration uses. -/
theorem ConfigFrom.provider_eq {remembered : Option TableSchema} {world : σ}
    (derives : sealed.ConfigFrom override table remembered world config) :
    override = some config ∨ config.provider = sealed.provider := by
  cases override with
  | some given => exact .inl (congrArg some derives.symm)
  | none =>
      obtain ⟨schema, -, builds⟩ := derives
      obtain ⟨keys, -, built⟩ := Except.bind_eq_ok_iff.1 builds
      cases built
      exact .inr rfl

/-- Finding a configuration keeps what describing its table, remembering a schema and
noting exemptions keep. -/
theorem keeps_config_of {property : Session σ → Prop}
    (describes : Act.Keeps property (Session.call (Session.describeSchema sealed.store table)))
    (remembers : ∀ schema, Act.Keeps property (Session.remember table schema))
    (warns : ∀ overridings, Act.Keeps property (Session.warn overridings)) :
    Act.Keeps property (sealed.config override table) := by
  cases override with
  | some given => exact .pure given
  | none =>
      refine (Session.keeps_schema describes remembers sealed.autoRefresh).bind fun schema => ?_
      exact (Act.Keeps.liftM _).bind fun config => (warns _).bind fun _ => .pure config

/-- Finding the configuration of one table does not touch what is remembered of another. -/
theorem keeps_remembered_config {other : String} (different : other ≠ table)
    (remembered : Option TableSchema) :
    Act.Keeps (fun session : Session σ => session.schemas.get? table = remembered)
      (sealed.config override other) := by
  refine keeps_config_of (Session.keeps_remembered_call _) (fun schema session same => ?_)
    (fun _ _ same => same)
  exact (NameMap.get?_insert_of_ne _ _ different.symm).trans same

/-- What is done to the items of one table does not touch what is remembered of another. -/
theorem keeps_remembered_of_ne {α : Type} {other : String} (different : other ≠ table)
    (remembered : Option TableSchema) (act : SealConfig σ → Act σ α) :
    Act.Keeps (fun session : Session σ => session.schemas.get? table = remembered)
      (sealed.config override other >>= fun config => Session.call (act config)) :=
  (keeps_remembered_config different remembered).bind fun config =>
    Session.keeps_remembered_call (act config)

theorem keeps_world_config {property : σ → Prop}
    (describes : Act.Keeps property (sealed.store.describe table)) :
    Act.Keeps (fun session : Session σ => property session.world)
      (sealed.config override table) :=
  keeps_config_of (Session.keeps_describeSchema describes).onWorld (fun _ _ holds => holds)
    (fun _ _ holds => holds)

/-- Making a view of a table keeps what describing it keeps. -/
theorem keeps_world_table {property : σ → Prop}
    (describes : Act.Keeps property (sealed.store.describe table))
    (overrides : TableOverrides σ) :
    Act.Keeps (fun session : Session σ => property session.world)
      (sealed.table table overrides) := by
  have looksUp :=
    Session.keeps_schema (Session.keeps_describeSchema describes).onWorld (fun _ _ holds => holds)
    sealed.autoRefresh
  refine looksUp.bind fun schema => Act.Keeps.bind ?_ fun config => .pure _
  refine (Act.Keeps.liftM _).bind fun config => Act.Keeps.bind ?_ fun _ => .pure config
  exact fun session holds => holds

end SealedStore

end ItemSeal
