import ItemSeal.Proofs.Arranging
import ItemSeal.Proofs.Sealing.ActLoops

/-!
The turns of a loop. A loop stops at the first step that fails, so what a step does is told in the
world in which its turn comes: `Act.Turn` for lists, `Act.EntryTurn` for maps that are gone
through as arranged. A loop fails exactly as the step at some turn does
(`Act.runFrom_mapM_eq_error_iff`), and if it succeeds every element has had its turn, with the
result in its place (`Act.exists_turn_of_runFrom_mapM`).
-/

namespace ItemSeal.Act

variable {σ α β : Type}

/-! ## Lists -/

/-- In a loop over the list from the first world, the element at that place has its turn in the
second: all steps before it succeed and lead there. -/
inductive Turn (step : α → Act σ β) : List α → σ → Nat → α → σ → Prop where
  | first (a : α) (rest : List α) (world : σ) : Turn step (a :: rest) world 0 a world
  | later {head a : α} {rest : List α} {start between world : σ} {b : β} {place : Nat}
      (steps : (step head).runFrom start = (.ok b, between))
        (turn : Turn step rest between place a world) :
      Turn step (head :: rest) start (place + 1) a world

section Lists

variable {step : α → Act σ β} {list : List α} {start world after : σ} {place : Nat} {a : α}

theorem Turn.getElem? (turn : Turn step list start place a world) : list[place]? = some a := by
  induction turn with
  | first a rest world => rfl
  | later _ _ ih => rw [List.getElem?_cons_succ, ih]

/-- When its turn comes, what the steps before it keep still holds. -/
theorem Turn.keeps_of_before {property : σ → Prop} (turn : Turn step list start place a world)
    (keeps : ∀ before ∈ list.take place, Keeps property (step before)) (holds : property start) :
    property world := by
  induction turn with
  | first => exact holds
  | @later head _ _ start _ _ _ _ steps _ ih =>
      have between := keeps head List.mem_cons_self start holds
      rw [steps] at between
      exact ih (fun before member => keeps before (List.mem_cons_of_mem _ member)) between

/-- A loop fails as one of its steps does when its turn comes. -/
theorem runFrom_mapM_eq_error_iff {error : Error} :
    (list.mapM step).runFrom start = (.error error, after) ↔
      ∃ place a world, Turn step list start place a world ∧
        (step a).runFrom world = (.error error, after) := by
  constructor
  · intro fails
    induction list generalizing start with
    | nil => cases fails
    | cons head rest ih =>
        rw [List.mapM_cons, runFrom_bind_eq_error_iff] at fails
        rcases fails with here | ⟨b, between, steps, more⟩
        · exact ⟨0, head, start, .first head rest start, here⟩
        -- The first step succeeds, so the failure is one of the loop over the rest:
        -- consing up cannot fail.
        · rcases runFrom_bind_eq_error_iff.1 more with later | ⟨others, last, -, built⟩
          · obtain ⟨place, a, world, turn, fails⟩ := ih later
            exact ⟨place + 1, a, world, .later steps turn, fails⟩
          · cases built
  · intro ⟨place, a, world, turn, fails⟩
    induction turn with
    | first a rest world => rw [List.mapM_cons, runFrom_bind_of_error fails]
    | later steps _ ih =>
        rw [List.mapM_cons, runFrom_bind_of_ok steps, runFrom_bind_of_error (ih fails)]

/-- In a loop that succeeds every element has its turn, and its result is in its place. -/
theorem exists_turn_of_runFrom_mapM {results : List β}
    (runs : (list.mapM step).runFrom start = (.ok results, after)) :
    results.length = list.length ∧
      ∀ place a, list[place]? = some a → ∃ world b later, Turn step list start place a world ∧
        (step a).runFrom world = (.ok b, later) ∧ results[place]? = some b := by
  induction list generalizing start results with
  | nil =>
      cases runs
      exact ⟨rfl, fun place a found => by cases found⟩
  | cons head rest ih =>
      rw [List.mapM_cons] at runs
      obtain ⟨b, between, steps, more⟩ := runFrom_bind_eq_ok_iff.1 runs
      obtain ⟨others, last, tail, built⟩ := runFrom_bind_eq_ok_iff.1 more
      cases built
      obtain ⟨length, turns⟩ := ih tail
      refine ⟨congrArg (· + 1) length, ?_⟩
      intro place a found
      cases place with
      | zero =>
          cases found
          exact ⟨start, b, between, .first head rest start, steps, rfl⟩
      | succ place =>
          obtain ⟨world, c, later, turn, stepsThere, result⟩ := turns place a found
          exact ⟨world, c, later, .later steps turn, stepsThere, result⟩

/-- A loop succeeds exactly if no step fails when its turn comes. -/
theorem exists_runFrom_mapM_eq_ok_iff :
    (∃ results after, (list.mapM step).runFrom start = (.ok results, after)) ↔
      ∀ place a world, Turn step list start place a world →
        ∃ b later, (step a).runFrom world = (.ok b, later) := by
  constructor
  · intro ⟨results, after, runs⟩ place a world turn
    rcases stepped : (step a).runFrom world with ⟨error | b, later⟩
    · have fails := runFrom_mapM_eq_error_iff.2 ⟨place, a, world, turn, stepped⟩
      cases runs.symm.trans fails
    · exact ⟨b, later, rfl⟩
  · intro succeed
    rcases runs : (list.mapM step).runFrom start with ⟨error | results, after⟩
    · obtain ⟨place, a, world, turn, fails⟩ := runFrom_mapM_eq_error_iff.1 runs
      obtain ⟨b, later, steps⟩ := succeed place a world turn
      cases steps.symm.trans fails
    · exact ⟨results, after, rfl⟩

theorem runFrom_optionMapM_eq_error_iff {option : Option α} {error : Error} :
    (option.mapM step).runFrom start = (.error error, after) ↔
      ∃ a, option = some a ∧ (step a).runFrom start = (.error error, after) := by
  cases option with
  | none =>
      constructor
      · intro fails
        cases fails
      · intro ⟨a, found, _⟩
        cases found
  | some a =>
      rw [Option.mapM_some, map_eq_pure_bind, runFrom_bind_eq_error_iff]
      simp

end Lists

/-! ## Maps -/

section Entries

variable {step : String → α → Act σ β} {name : String} {a : α} {world after : σ}

theorem runFrom_changeEntryM_eq_error_iff {error : Error} :
    (NameMap.changeEntryM step (name, a)).runFrom world = (.error error, after) ↔
      (step name a).runFrom world = (.error error, after) := by
  rw [NameMap.changeEntryM, runFrom_bind_eq_error_iff]
  simp

theorem runFrom_changeEntryM_eq_ok_iff {entry : String × β} :
    (NameMap.changeEntryM step (name, a)).runFrom world = (.ok entry, after) ↔
      ∃ b, (step name a).runFrom world = (.ok b, after) ∧ entry = (name, b) := by
  rw [NameMap.changeEntryM, runFrom_bind_eq_ok_iff]
  constructor
  · rintro ⟨b, between, steps, built⟩
    cases built
    exact ⟨b, steps, rfl⟩
  · rintro ⟨b, steps, rfl⟩
    exact ⟨b, after, steps, rfl⟩

end Entries

section Maps

variable {arrangement : Arrangement} {step : String → α → Act σ β} {map : NameMap α}
  {start world after : σ} {name : String} {a : α}

/-- In a loop over the map as arranged, from the first world, the name has its turn in the second:
all steps before it succeed and lead there. -/
def EntryTurn (arrangement : Arrangement) (step : String → α → Act σ β) (map : NameMap α)
    (start : σ) (name : String) (a : α) (world : σ) : Prop :=
  ∃ place, Turn (NameMap.changeEntryM step) (map.arranged arrangement) start place (name, a) world

theorem EntryTurn.get? (turn : EntryTurn arrangement step map start name a world) :
    map.get? name = some a := by
  obtain ⟨place, turn⟩ := turn
  exact NameMap.mem_arranged_iff.1 (List.mem_of_getElem? turn.getElem?)

/-- When its turn comes, what the steps of all other names keep still holds. -/
theorem EntryTurn.keeps_of_ne {property : σ → Prop}
    (turn : EntryTurn arrangement step map start name a world)
    (keeps : ∀ other a, other ≠ name → Keeps property (step other a)) (holds : property start) :
    property world := by
  obtain ⟨place, turn⟩ := turn
  refine turn.keeps_of_before (fun before member => ?_) holds
  have different : before.1 ≠ name := by
    have distinct := NameMap.nodup_arranged arrangement map
    rw [← List.take_append_drop place (map.arranged arrangement), List.map_append,
      List.nodup_append] at distinct
    have here : ((map.arranged arrangement).drop place)[0]? = some (name, a) :=
      List.getElem?_drop.trans turn.getElem?
    have behind := List.mem_of_getElem? here
    exact distinct.2.2 _ (List.mem_map_of_mem member) _ (List.mem_map_of_mem behind)
  exact (keeps before.1 before.2 different).bind fun b => .pure (before.1, b)

theorem runFrom_mapArrangedM_eq_error_iff {error : Error} :
    (map.mapArrangedM arrangement step).runFrom start = (.error error, after) ↔
      ∃ name a world, EntryTurn arrangement step map start name a world ∧
        (step name a).runFrom world = (.error error, after) := by
  rw [NameMap.mapArrangedM, runFrom_bind_eq_error_iff, runFrom_mapM_eq_error_iff]
  constructor
  · rintro (⟨place, ⟨name, a⟩, world, turn, fails⟩ | ⟨changed, between, -, built⟩)
    · exact ⟨name, a, world, ⟨place, turn⟩, runFrom_changeEntryM_eq_error_iff.1 fails⟩
    · cases built
  · rintro ⟨name, a, world, ⟨place, turn⟩, fails⟩
    exact .inl ⟨place, (name, a), world, turn, runFrom_changeEntryM_eq_error_iff.2 fails⟩

theorem exists_turn_of_runFrom_mapArrangedM {result : NameMap β}
    (runs : (map.mapArrangedM arrangement step).runFrom start = (.ok result, after)) :
    result.names = map.names ∧
      ∀ name a, map.get? name = some a → ∃ world b later,
        EntryTurn arrangement step map start name a world ∧
        (step name a).runFrom world = (.ok b, later) ∧ result.get? name = some b := by
  obtain ⟨changed, between, loops, built⟩ := runFrom_bind_eq_ok_iff.1 runs
  cases built
  have sameNames : changed.map (·.1) = (map.arranged arrangement).map (·.1) := by
    have each := (forall₂_of_runFrom_mapM loops).imp fun entry change ⟨_, _, steps⟩ =>
      show entry.1 = change.1 by
        obtain ⟨b, -, rfl⟩ := runFrom_changeEntryM_eq_ok_iff.1 steps
        rfl
    have same : List.Forall₂ Eq ((map.arranged arrangement).map (·.1)) (changed.map (·.1)) :=
      List.forall₂_map_left_iff.2 (List.forall₂_map_right_iff.2 each)
    rw [List.forall₂_eq_eq_eq] at same
    exact same.symm
  obtain ⟨-, turns⟩ := exists_turn_of_runFrom_mapM loops
  refine ⟨NameMap.names_ofList_arranged sameNames, fun name a found => ?_⟩
  obtain ⟨place, placed⟩ := List.getElem?_of_mem (NameMap.mem_arranged_iff.2 found)
  obtain ⟨world, change, later, turn, steps, result⟩ := turns place (name, a) placed
  obtain ⟨b, stepped, rfl⟩ := runFrom_changeEntryM_eq_ok_iff.1 steps
  exact ⟨world, b, later, ⟨place, turn⟩, stepped,
    (NameMap.get?_ofList_arranged sameNames).2 (List.mem_of_getElem? result)⟩

/-- Every name's result comes from its value, by a run in a world with what all steps keep. -/
theorem get?_of_runFrom_mapArrangedM {property : σ → Prop}
    (keeps : ∀ name a, Keeps property (step name a)) {result : NameMap β} (holds : property start)
    (runs : (map.mapArrangedM arrangement step).runFrom start = (.ok result, after))
    (key : String) :
    Option.Rel (fun a b => ∃ before later, property before ∧
      (step key a).runFrom before = (.ok b, later)) (map.get? key) (result.get? key) := by
  obtain ⟨names, turns⟩ := exists_turn_of_runFrom_mapArrangedM runs
  cases found : map.get? key with
  | none =>
      have absent : result.get? key = none := by
        rw [Option.eq_none_iff_forall_not_mem]
        intro b given
        have member := Ascending.mem_names_iff.2 ⟨b, given⟩
        rw [names, Ascending.mem_names_iff, found] at member
        simp at member
      rw [absent]
      exact .none
  | some a =>
      obtain ⟨world, b, later, turn, steps, given⟩ := turns key a found
      rw [given]
      exact .some ⟨world, later, turn.keeps_of_ne (fun other a _ => keeps other a) holds, steps⟩

theorem Keeps.mapArrangedM {property : σ → Prop} (keeps : ∀ name a, Keeps property (step name a))
    (map : NameMap α) :
    Keeps property (map.mapArrangedM arrangement step) := by
  have changes : ∀ entry, Keeps property (NameMap.changeEntryM step entry) := fun entry =>
    (keeps entry.1 entry.2).bind fun b => .pure (entry.1, b)
  exact (Keeps.mapM changes _).bind fun changed => .pure (NameMap.ofList changed)

/-- A loop over a map whose steps succeed in all worlds with a property and keep it gives their
results, whatever the arrangement. -/
theorem runFrom_mapArrangedM_eq {property : σ → Prop} {f : String → α → β}
    (each : ∀ name a, map.get? name = some a → ∀ world, property world →
      ∃ after, property after ∧ (step name a).runFrom world = (.ok (f name a), after))
    (holds : property start) :
    ∃ after, property after ∧
      (map.mapArrangedM arrangement step).runFrom start = (.ok (map.mapEntries f), after) := by
  have changes : ∀ entry ∈ map.arranged arrangement, ∀ world, property world →
    ∃ after, property after ∧
      (NameMap.changeEntryM step entry).runFrom world = (.ok (entry.1, f entry.1 entry.2),
        after) := by
    intro (name, a) member world holds
    obtain ⟨after, kept, steps⟩ := each name a (NameMap.mem_arranged_iff.1 member) world holds
    exact ⟨after, kept, runFrom_changeEntryM_eq_ok_iff.2 ⟨_, steps, rfl⟩⟩
  obtain ⟨after, kept, loops⟩ := runFrom_mapM_eq_map changes holds
  refine ⟨after, kept, (runFrom_bind_of_ok loops).trans ?_⟩
  rw [NameMap.ofList_arranged_map]
  rfl

theorem exists_runFrom_mapArrangedM_eq_ok_iff :
    (∃ result after, (map.mapArrangedM arrangement step).runFrom start = (.ok result, after)) ↔
      ∀ name a world, EntryTurn arrangement step map start name a world →
        ∃ b later, (step name a).runFrom world = (.ok b, later) := by
  constructor
  · intro ⟨result, after, runs⟩ name a world turn
    rcases stepped : (step name a).runFrom world with ⟨error | b, later⟩
    · have fails := runFrom_mapArrangedM_eq_error_iff.2 ⟨name, a, world, turn, stepped⟩
      cases runs.symm.trans fails
    · exact ⟨b, later, rfl⟩
  · intro succeed
    rcases runs : (map.mapArrangedM arrangement step).runFrom start with ⟨error | result, after⟩
    · obtain ⟨name, a, world, turn, fails⟩ := runFrom_mapArrangedM_eq_error_iff.1 runs
      obtain ⟨b, later, steps⟩ := succeed name a world turn
      cases steps.symm.trans fails
    · exact ⟨result, after, rfl⟩

end Maps

/-! ## Maps that may be missing -/

section Optional

variable {arrangement : Arrangement} {step : String → α → Act σ β} {map : Option (NameMap α)}
  {start after : σ}

/-- A missing map has no turns. -/
theorem not_entryTurn_empty {name : String} {a : α} {world : σ} :
    ¬ EntryTurn arrangement step ∅ start name a world :=
  fun turn => by cases turn.get?

theorem runFrom_optionMapArrangedM_eq_error_iff {error : Error} :
    (map.mapM (NameMap.mapArrangedM arrangement step)).runFrom start = (.error error, after) ↔
      ∃ name a world, EntryTurn arrangement step (map.getD ∅) start name a world ∧
        (step name a).runFrom world = (.error error, after) := by
  cases map with
  | none =>
      constructor
      · intro fails
        cases fails
      · intro ⟨name, a, world, turn, _⟩
        exact (not_entryTurn_empty turn).elim
  | some map =>
      rw [Option.getD_some, ← runFrom_mapArrangedM_eq_error_iff, runFrom_optionMapM_eq_error_iff]
      simp

theorem exists_turn_of_runFrom_optionMapArrangedM {result : Option (NameMap β)}
    (runs :
      (map.mapM (NameMap.mapArrangedM arrangement step)).runFrom start = (.ok result, after)) :
    result.map Ascending.names = map.map Ascending.names ∧
      ∀ name a, (map.getD ∅).get? name = some a → ∃ world b later,
        EntryTurn arrangement step (map.getD ∅) start name a world ∧
        (step name a).runFrom world = (.ok b, later) ∧ (result.getD ∅).get? name = some b := by
  cases runFrom_optionMapM_eq_ok runs with
  | none => exact ⟨rfl, fun name a found => by cases found⟩
  | some loops =>
      obtain ⟨names, turns⟩ := exists_turn_of_runFrom_mapArrangedM loops
      exact ⟨congrArg some names, turns⟩

theorem exists_runFrom_optionMapArrangedM_eq_ok_iff :
    (∃ result after, (map.mapM (NameMap.mapArrangedM arrangement step)).runFrom start =
      (.ok result, after)) ↔
      ∀ name a world, EntryTurn arrangement step (map.getD ∅) start name a world →
        ∃ b later, (step name a).runFrom world = (.ok b, later) := by
  cases map with
  | none =>
      constructor
      · intro _ name a world turn
        exact (not_entryTurn_empty turn).elim
      · intro _
        exact ⟨none, start, rfl⟩
  | some map =>
      rw [Option.getD_some, ← exists_runFrom_mapArrangedM_eq_ok_iff]
      constructor
      · intro ⟨result, after, runs⟩
        cases runFrom_optionMapM_eq_ok runs with
        | some loops => exact ⟨_, _, loops⟩
      · intro ⟨result, after, runs⟩
        exact ⟨_, after, runFrom_mapM_some runs⟩

end Optional

end ItemSeal.Act
