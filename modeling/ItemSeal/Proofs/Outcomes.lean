/-!
Successful outcomes taken apart: a computation that may fail and succeeds has
had all its steps succeed.
-/

namespace Except

variable {ε ε' α β : Type}

theorem bind_eq_ok_iff {first : Except ε α} {next : α → Except ε β} {b : β} :
    first >>= next = .ok b ↔ ∃ a, first = .ok a ∧ next a = .ok b := by
  constructor
  · intro succeeds
    cases first with
    | error failure => cases succeeds
    | ok a => exact ⟨a, rfl, succeeds⟩
  · rintro ⟨a, rfl, succeeds⟩
    exact succeeds

theorem map_eq_ok_iff {outcome : Except ε α} {f : α → β} {b : β} :
    outcome.map f = .ok b ↔ ∃ a, outcome = .ok a ∧ f a = b := by
  constructor
  · intro succeeds
    cases outcome with
    | error failure => cases succeeds
    | ok a => exact ⟨a, rfl, Except.ok.inj succeeds⟩
  · rintro ⟨a, rfl, rfl⟩
    rfl

/-- Reporting failures in other words changes no success. -/
theorem mapError_eq_ok_iff {outcome : Except ε α} {f : ε → ε'} {a : α} :
    outcome.mapError f = .ok a ↔ outcome = .ok a := by
  constructor
  · intro succeeds
    cases outcome with
    | error failure => cases succeeds
    | ok a' => rw [Except.ok.inj succeeds]
  · rintro rfl
    rfl

/-- A list of steps succeeds if each does, with the results in a row. -/
theorem mapM_cons_eq_ok_iff {step : α → Except ε β} {first : α} {rest : List α}
    {results : List β} :
    (first :: rest).mapM step = .ok results ↔
      ∃ head tail, step first = .ok head ∧ rest.mapM step = .ok tail ∧
        results = head :: tail := by
  rw [List.mapM_cons, bind_eq_ok_iff]
  constructor
  · rintro ⟨head, headOk, more⟩
    obtain ⟨tail, tailOk, same⟩ := bind_eq_ok_iff.1 more
    exact ⟨head, tail, headOk, tailOk, (Except.ok.inj same).symm⟩
  · rintro ⟨head, tail, headOk, tailOk, rfl⟩
    exact ⟨head, headOk, bind_eq_ok_iff.2 ⟨tail, tailOk, rfl⟩⟩

/-- If every element has a result, so has the list. -/
theorem mapM_eq_ok_map {f : α → Except ε β} {g : α → β} {list : List α}
    (each : ∀ a ∈ list, f a = .ok (g a)) : list.mapM f = .ok (list.map g) := by
  induction list with
  | nil => rfl
  | cons a rest ih =>
      obtain ⟨first, others⟩ := List.forall_mem_cons.1 each
      exact mapM_cons_eq_ok_iff.2 ⟨g a, rest.map g, first, ih others, rfl⟩

theorem exists_of_mapM_eq_ok {f : α → Except ε β} {list : List α} {results : List β}
    (succeeds : list.mapM f = .ok results) : ∀ a ∈ list, ∃ b, f a = .ok b := by
  induction list generalizing results with
  | nil => simp
  | cons a rest ih =>
      obtain ⟨b, others, first, restOk, -⟩ := mapM_cons_eq_ok_iff.1 succeeds
      exact List.forall_mem_cons.2 ⟨⟨b, first⟩, ih restOk⟩

/-- A check of all elements passes if each passes. -/
theorem forM_eq_ok_iff {check : α → Except ε Unit} {list : List α} :
    list.forM check = .ok () ↔ ∀ a ∈ list, check a = .ok () := by
  induction list with
  | nil => simp only [List.not_mem_nil, false_implies, implies_true, iff_true]; rfl
  | cons first rest ih =>
      rw [List.forall_mem_cons, ← ih]
      change (check first >>= fun _ => rest.forM check) = .ok () ↔ _
      rw [bind_eq_ok_iff]
      constructor
      · intro ⟨_, head, tail⟩
        exact ⟨head, tail⟩
      · intro ⟨head, tail⟩
        exact ⟨(), head, tail⟩

theorem exists_of_forM_eq_error {check : α → Except ε Unit} {list : List α} {failure : ε}
    (fails : list.forM check = .error failure) : ∃ a ∈ list, check a = .error failure := by
  induction list with
  | nil => cases fails
  | cons first rest ih =>
      change (check first >>= fun _ => rest.forM check) = .error failure at fails
      cases checked : check first with
      | error found =>
          rw [checked] at fails
          cases fails
          exact ⟨first, List.mem_cons_self, checked⟩
      | ok =>
          rw [checked] at fails
          obtain ⟨a, member, checked⟩ := ih fails
          exact ⟨a, List.mem_cons_of_mem first member, checked⟩

end Except
