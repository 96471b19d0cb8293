import ItemSeal.Proofs.Sealing.ActLoops

/-!
Two actions side by side, on worlds that are related. A write goes like another if it does the
same to its own world or is refused (`Act.WritesAlike`); a read goes like another if both succeed
and one's output tells the other's (`Act.ReadsAlike`).
-/

namespace ItemSeal.Act

variable {σ τ α β γ : Type} {R : σ → τ → Prop}

/-- From related worlds the first action fails and leaves them related, or both succeed with one
output and lead to related worlds. -/
def WritesAlike (R : σ → τ → Prop) (first : Act σ α) (second : Act τ α) : Prop :=
  ∀ world other, R world other →
    match first.runFrom world with
    | (.ok output, after) =>
        ∃ otherAfter, second.runFrom other = (.ok output, otherAfter) ∧ R after otherAfter
    | (.error _, after) => R after other

/-- From related worlds both actions succeed, the first with a translation of the second's output.
The second leaves its world as it is, and the worlds stay related. -/
def ReadsAlike (R : σ → τ → Prop) (translate : α → β) (first : Act σ β) (second : Act τ α) :
    Prop :=
  ∀ world other, R world other →
    ∃ output after, second.runFrom other = (.ok output, other) ∧
      first.runFrom world = (.ok (translate output), after) ∧ R after other

/-- Nothing is written by an action that is refused beforehand. -/
theorem WritesAlike.throw (error : Error) (second : Act τ α) :
    WritesAlike R (MonadExcept.throw error : Act σ α) second :=
  fun _ _ related => related

theorem WritesAlike.guarded {first : Act σ α} {second : Act τ α}
    (alike : WritesAlike R first second) (check : Except Error Unit) :
    WritesAlike R ((MonadLiftT.monadLift check : Act σ Unit) >>= fun _ => first) second := by
  cases check with
  | error error => exact .throw error second
  | ok => exact alike

/-- What is written may be prepared first, if that keeps the worlds related. -/
theorem WritesAlike.prepared {prepare : Act σ γ} {first : γ → Act σ α} {second : Act τ α}
    (keeps : ∀ other, Keeps (R · other) prepare)
    (alike : ∀ {world other after c}, R world other → prepare.runFrom world = (.ok c, after) →
      WritesAlike R (first c) second) :
    WritesAlike R (prepare >>= first) second := by
  intro world other related
  have kept := keeps other world related
  rw [runFrom_bind]
  rcases ran : prepare.runFrom world with ⟨error | c, after⟩ <;> rw [ran] at kept
  · exact kept
  · exact alike related ran after other kept

theorem ReadsAlike.guarded {translate : α → β} {first : Act σ β} {second : Act τ α}
    (alike : ReadsAlike R translate first second) {check : Except Error Unit}
    (passes : check = .ok ()) :
    ReadsAlike R translate ((MonadLiftT.monadLift check : Act σ Unit) >>= fun _ =>
      first) second := by
  subst passes
  exact alike

theorem ReadsAlike.keeps {translate : α → β} {first : Act σ β} {second : Act τ α}
    (alike : ReadsAlike R translate first second) (other : τ) : Keeps (R · other) first := by
  intro world related
  obtain ⟨output, after, -, reads, relatedAfter⟩ := alike world other related
  rw [reads]
  exact relatedAfter

end ItemSeal.Act
