import ItemSeal.Error

/-!
Actions on a world: what it is made of is left open, so that the same operations run over stores
and services of any kind. An action that fails keeps what it has done to the world by then.
-/

namespace ItemSeal

/-- An action on a world of type `σ`. -/
abbrev Act (σ : Type) := ExceptT Error (StateM σ)

/-- A part of a world, which actions on it can change in place. -/
structure Part (σ τ : Type) where
  get : σ → τ
  set : τ → σ → σ

/-- The action that a step on a part is, on the whole. -/
def Part.lift {σ τ α : Type} (part : Part σ τ) (step : StateM τ α) : StateM σ α := fun world =>
  let (result, rest) := step.run (part.get world)
  (result, part.set rest world)

namespace Act

variable {σ τ α : Type}

/-- The action on the whole world that an action on a part of it is. -/
def within (part : Part σ τ) (act : Act τ α) : Act σ α :=
  ExceptT.mk (part.lift act.run)

/-- The action that never fails but reports the failure. -/
def attempt (act : Act σ α) : Act σ (Except Error α) :=
  ExceptT.mk do return .ok (← act.run)

/-- The outcome of an action and the world that it leaves. -/
def runFrom (act : Act σ α) (world : σ) : Except Error α × σ :=
  act.run.run world

end Act

end ItemSeal
