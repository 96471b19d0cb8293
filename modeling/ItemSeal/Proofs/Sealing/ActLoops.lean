import ItemSeal.Proofs.NameMapViews
import ItemSeal.Proofs.Sealing.ActRuns
import Mathlib.Data.List.Forall2

/-!
Actions on parts of a world and actions in loops. `Act.Keeps` says that an action leads from
worlds with a property to worlds with it, whether it fails or not; loops inherit it. What a loop
has done if it succeeds is told element by element (`Act.forall₂_of_runFrom_mapM`), and a loop
succeeds if each of its steps does (`Act.runFrom_mapM_eq`, `Act.runFrom_mapEntriesM_eq`).
-/

theorem Option.Rel.imp {α β : Type} {R S : α → β → Prop} (weaker : ∀ a b, R a b → S a b)
    {a : Option α} {b : Option β} (related : Option.Rel R a b) : Option.Rel S a b := by
  cases related with
  | none => exact .none
  | some related => exact .some (weaker _ _ related)

namespace ItemSeal.Act

variable {σ τ α β : Type}

@[simp] theorem runFrom_get (world : σ) :
    (get : Act σ σ).runFrom world = (.ok world, world) := rfl

@[simp] theorem runFrom_modify (change : σ → σ) (world : σ) :
    (modify change : Act σ Unit).runFrom world = (.ok (), change world) := rfl

@[simp] theorem runFrom_attempt (act : Act σ α) (world : σ) :
    act.attempt.runFrom world = (.ok (act.runFrom world).1, (act.runFrom world).2) := rfl

/-- The second of two actions runs in the world that the first leaves. -/
theorem runFrom_bind_of_ok {first : Act σ α} {next : α → Act σ β} {world between : σ} {a : α}
    (succeeds : first.runFrom world = (.ok a, between)) :
    (first >>= next).runFrom world = (next a).runFrom between := by
  rw [runFrom_bind, succeeds]

theorem runFrom_bind_of_error {first : Act σ α} {next : α → Act σ β} {world between : σ}
    {error : Error} (fails : first.runFrom world = (.error error, between)) :
    (first >>= next).runFrom world = (.error error, between) := by
  rw [runFrom_bind, fails]

/-! ## What actions keep -/

/-- From worlds with the property the action leads to worlds with it, whether it fails or not. -/
def Keeps (property : σ → Prop) (act : Act σ α) : Prop :=
  ∀ world, property world → property (act.runFrom world).2

section Keeps

variable {property : σ → Prop}

theorem Keeps.pure (a : α) : Keeps property (Pure.pure a : Act σ α) := fun _ holds => holds

theorem Keeps.liftM (outcome : Except Error α) :
    Keeps property (MonadLiftT.monadLift outcome : Act σ α) :=
  fun _ holds => holds

theorem Keeps.throw (error : Error) : Keeps property (MonadExcept.throw error : Act σ α) :=
  fun _ holds => holds

/-- The second action need keep the property for what the first can give only. -/
theorem Keeps.bind_of_ok {first : Act σ α} {next : α → Act σ β}
    (keepsFirst : Keeps property first)
    (keepsNext : ∀ {world between a}, property world → first.runFrom world = (.ok a, between) →
      Keeps property (next a)) : Keeps property (first >>= next) := by
  intro world holds
  have between := keepsFirst world holds
  rw [runFrom_bind]
  rcases ran : first.runFrom world with ⟨error | a, after⟩ <;> rw [ran] at between
  · exact between
  · exact keepsNext holds ran after between

theorem Keeps.bind {first : Act σ α} {next : α → Act σ β} (keepsFirst : Keeps property first)
    (keepsNext : ∀ a, Keeps property (next a)) : Keeps property (first >>= next) :=
  keepsFirst.bind_of_ok fun _ _ => keepsNext _

theorem Keeps.mapM {step : α → Act σ β} (keeps : ∀ a, Keeps property (step a)) (list : List α) :
    Keeps property (list.mapM step) := by
  induction list with
  | nil => exact .pure []
  | cons first rest ih =>
      rw [List.mapM_cons]
      exact (keeps first).bind fun b => ih.bind fun others => .pure (b :: others)

theorem Keeps.mapEntriesM {step : String → α → Act σ β}
    (keeps : ∀ name a, Keeps property (step name a)) {bound : Option String}
    (map : Ascending α bound) :
    Keeps property (map.mapEntriesM step) := by
  induction map with
  | nil => exact .pure Ascending.nil
  | cons name above value rest ih =>
      exact (keeps name value).bind fun b => ih.bind fun others =>
        .pure (Ascending.cons name above b others)

theorem Keeps.optionMapM {step : α → Act σ β} (keeps : ∀ a, Keeps property (step a))
    (option : Option α) :
    Keeps property (option.mapM step) := by
  cases option with
  | none => exact .pure none
  | some a =>
      rw [Option.mapM_some, map_eq_pure_bind]
      exact (keeps a).bind fun b => .pure (some b)

end Keeps

/-! ## Loops that succeed -/

theorem runFrom_optionMapM_eq_ok {step : α → Act σ β} {option : Option α} {result : Option β}
    {world after : σ} (runs : (option.mapM step).runFrom world = (.ok result, after)) :
    Option.Rel (fun a b => (step a).runFrom world = (.ok b, after)) option result := by
  cases option with
  | none =>
      cases runs
      exact .none
  | some a =>
      rw [Option.mapM_some, map_eq_pure_bind] at runs
      obtain ⟨b, between, stepped, built⟩ := runFrom_bind_eq_ok_iff.1 runs
      cases built
      exact .some stepped

theorem runFrom_mapM_some {step : α → Act σ β} {a : α} {b : β} {world after : σ}
    (runs : (step a).runFrom world = (.ok b, after)) :
    ((some a).mapM step).runFrom world = (.ok (some b), after) := by
  rw [Option.mapM_some, map_eq_pure_bind, runFrom_bind_of_ok runs, runFrom_pure]

/-- Every result comes from the element in its place. -/
theorem forall₂_of_runFrom_mapM {step : α → Act σ β} {list : List α} {results : List β}
    {world after : σ} (runs : (list.mapM step).runFrom world = (.ok results, after)) :
    List.Forall₂ (fun a b => ∃ before later, (step a).runFrom before = (.ok b, later)) list
      results := by
  induction list generalizing results world with
  | nil =>
      cases runs
      exact .nil
  | cons first rest ih =>
      rw [List.mapM_cons] at runs
      obtain ⟨b, between, head, more⟩ := runFrom_bind_eq_ok_iff.1 runs
      obtain ⟨others, later, tail, built⟩ := runFrom_bind_eq_ok_iff.1 more
      cases built
      exact .cons ⟨world, between, head⟩ (ih tail)

/-- A loop whose steps succeed and change nothing gives their results. -/
theorem runFrom_mapM_eq {step : α → Act σ β} {list : List α} {results : List β} {world : σ}
    (each : List.Forall₂ (fun a b => (step a).runFrom world = (.ok b, world)) list results) :
    (list.mapM step).runFrom world = (.ok results, world) := by
  induction each with
  | nil => rfl
  | cons head _ ih =>
      rw [List.mapM_cons, runFrom_bind_of_ok head, runFrom_bind_of_ok ih, runFrom_pure]

/-- So does a loop whose steps succeed in all worlds with a property and keep it. -/
theorem runFrom_mapM_eq_map {property : σ → Prop} {step : α → Act σ β} {f : α → β} {list : List α}
    (each : ∀ a ∈ list, ∀ world, property world →
      ∃ after, property after ∧ (step a).runFrom world = (.ok (f a), after))
    {world : σ} (holds : property world) :
    ∃ after, property after ∧ (list.mapM step).runFrom world = (.ok (list.map f), after) := by
  induction list generalizing world with
  | nil => exact ⟨world, holds, rfl⟩
  | cons first rest ih =>
      obtain ⟨between, kept, head⟩ := each first List.mem_cons_self world holds
      obtain ⟨after, keptOn, tail⟩ :=
        ih (fun a member => each a (List.mem_cons_of_mem _ member)) kept
      refine ⟨after, keptOn, ?_⟩
      rw [List.mapM_cons, runFrom_bind_of_ok head, runFrom_bind_of_ok tail, runFrom_pure,
        List.map_cons]

/-- A loop over a map whose steps succeed in all worlds with the property gives their results. -/
theorem runFrom_mapEntriesM_eq {property : σ → Prop} {step : String → α → Act σ β}
    {f : String → α → β} {bound : Option String} {map : Ascending α bound}
    (each : ∀ name a, map.get? name = some a → ∀ world, property world →
      ∃ after, property after ∧ (step name a).runFrom world = (.ok (f name a), after))
    {world : σ} (holds : property world) :
    ∃ after, property after ∧ (map.mapEntriesM step).runFrom world =
      (.ok (map.mapEntries f), after) := by
  induction map generalizing world with
  | nil => exact ⟨world, holds, rfl⟩
  | cons name above value rest ih =>
      obtain ⟨between, kept, head⟩ := each name value (by simp [Ascending.get?]) world holds
      have later : ∀ key a, rest.get? key = some a → ∀ world, property world →
          ∃ after, property after ∧ (step key a).runFrom world = (.ok (f key a), after) := by
        intro key a found
        apply each key a
        have different : key ≠ name := Ascending.ne_of_get?_rest found
        simp only [Ascending.get?, different, if_false, found]
      obtain ⟨after, keptOn, tail⟩ := ih later kept
      refine ⟨after, keptOn, ?_⟩
      rw [Ascending.mapEntriesM, runFrom_bind_of_ok head, runFrom_bind_of_ok tail, runFrom_pure,
        Ascending.mapEntries]

end ItemSeal.Act
