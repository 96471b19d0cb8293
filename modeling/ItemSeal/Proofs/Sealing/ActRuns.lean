import ItemSeal.Act

/-!
Runs of actions on a world: what each way to build an action does to its outcome and to the world.
-/

namespace ItemSeal.Act

variable {σ α β : Type}

@[simp] theorem runFrom_pure (a : α) (world : σ) :
    (pure a : Act σ α).runFrom world = (.ok a, world) := rfl

@[simp] theorem runFrom_throw (error : Error) (world : σ) :
    (throw error : Act σ α).runFrom world = (.error error, world) := rfl

/-- An outcome taken into an action leaves the world alone. -/
@[simp] theorem runFrom_liftM (outcome : Except Error α) (world : σ) :
    (liftM outcome : Act σ α).runFrom world = (outcome, world) := rfl

/-- The second of two actions runs in the world that the first leaves, unless the first fails. -/
theorem runFrom_bind (first : Act σ α) (next : α → Act σ β) (world : σ) :
    (first >>= next).runFrom world =
      match first.runFrom world with
      | (.ok a, between) => (next a).runFrom between
      | (.error error, between) => (.error error, between) := by
  change StateT.run (ExceptT.run (first >>= next)) world = _
  rw [ExceptT.run_bind, StateT.run_bind]
  change (match StateT.run (ExceptT.run first) world with | (outcome, between) => _) = _
  unfold runFrom
  rcases StateT.run (ExceptT.run first) world with ⟨_ | a, between⟩ <;> rfl

/-- What is made of an output without a look at the world is made of it in the world
that the action leaves. -/
theorem runFrom_bind_liftM (first : Act σ α) (next : α → Except Error β) (world : σ) :
    (first >>= fun a => (liftM (next a) : Act σ β)).runFrom world =
      ((first.runFrom world).1 >>= next, (first.runFrom world).2) := by
  rw [runFrom_bind]
  rcases first.runFrom world with ⟨error | a, after⟩
  · rfl
  · exact runFrom_liftM (next a) after

theorem runFrom_bind_eq_ok_iff {first : Act σ α} {next : α → Act σ β} {world after : σ} {b : β} :
    (first >>= next).runFrom world = (.ok b, after) ↔
      ∃ a between, first.runFrom world = (.ok a, between) ∧
        (next a).runFrom between = (.ok b, after) := by
  rw [runFrom_bind]
  rcases first.runFrom world with ⟨error | a, between⟩
  · simp
  · constructor
    · intro succeeds
      exact ⟨a, between, rfl, succeeds⟩
    · rintro ⟨a', between', same, succeeds⟩
      cases same
      exact succeeds

theorem runFrom_bind_eq_error_iff {first : Act σ α} {next : α → Act σ β} {world after : σ}
    {error : Error} :
    (first >>= next).runFrom world = (.error error, after) ↔
      first.runFrom world = (.error error, after) ∨
        ∃ a between, first.runFrom world = (.ok a, between) ∧
          (next a).runFrom between = (.error error, after) := by
  rw [runFrom_bind]
  rcases first.runFrom world with ⟨failure | a, between⟩
  · simp
  · constructor
    · intro fails
      exact .inr ⟨a, between, rfl, fails⟩
    · intro fails
      rcases fails with fails | ⟨a', between', same, fails⟩
      · cases fails
      · cases same
        exact fails

end ItemSeal.Act
