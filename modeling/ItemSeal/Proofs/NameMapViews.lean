import ItemSeal.NameMap
import ItemSeal.Proofs.Outcomes

/-!
What the operations on name maps do to the two views of a map: the value of each name, and the
list of entries. A map is built again from its entries (`NameMap.ofList_toList`), and a change
that is undone entry by entry is undone on the whole map (`Ascending.mapEntriesM_of_undone`).
-/

namespace ItemSeal

namespace Ascending

variable {α β γ ε : Type} {bound : Option String}

/-! ## Entries and values -/

/-- The entries of a map are the names with their values. -/
theorem mem_toList_iff {map : Ascending α bound} {key : String} {value : α} :
    (key, value) ∈ map.toList ↔ map.get? key = some value := by
  induction map with
  | nil => simp [toList, get?]
  | cons name above first rest ih =>
      by_cases here : key = name
      · subst here
        have absent : rest.get? key = none := get?_eq_none_of_le rest (Std.le_refl key) rfl
        have notBehind : (key, value) ∉ rest.toList := by
          rw [ih, absent]
          exact (Option.some_ne_none value).symm
        simp [toList, get?, notBehind, eq_comm]
      · simp [toList, get?, here, ih]

theorem mem_names_iff {map : Ascending α bound} {key : String} :
    key ∈ map.names ↔ ∃ value, map.get? key = some value := by
  simp [names, ← mem_toList_iff]

theorem contains_iff {map : Ascending α bound} {key : String} :
    map.contains key = true ↔ ∃ value, map.get? key = some value := by
  simp [contains, Option.isSome_iff_exists]

/-- Every entry stands after the bound. -/
theorem follows_of_mem {map : Ascending α bound} {entry : String × α}
    (member : entry ∈ map.toList) :
    Follows bound entry.1 := by
  induction map with
  | nil => cases member
  | cons name above first rest ih =>
      rcases List.mem_cons.1 member with rfl | later
      · exact above
      · exact above.trans (ih later)

/-- Names after the first one are others. -/
theorem ne_of_get?_rest {name key : String} {rest : Ascending α (some name)} {value : α}
    (found : rest.get? key = some value) : key ≠ name := by
  intro same
  rw [get?_eq_none_of_le rest (Std.le_of_eq same) rfl] at found
  cases found

/-- The names ascend. -/
theorem pairwise_toList (map : Ascending α bound) :
    map.toList.Pairwise fun before after => before.1 < after.1 := by
  induction map with
  | nil => exact .nil
  | cons name above first rest ih => exact .cons (fun _ member => follows_of_mem member) ih

/-! ## Changing values -/

theorem toList_mapEntries (f : String → α → β) (map : Ascending α bound) :
    (map.mapEntries f).toList = map.toList.map fun (name, value) => (name, f name value) := by
  induction map with
  | nil => rfl
  | cons name above first rest ih => simp [mapEntries, toList, ih]

theorem get?_mapEntries (f : String → α → β) (map : Ascending α bound) (key : String) :
    (map.mapEntries f).get? key = (map.get? key).map (f key) := by
  induction map with
  | nil => rfl
  | cons name above first rest ih =>
      by_cases here : key = name
      · simp [mapEntries, get?, here]
      · simp [mapEntries, get?, here, ih]

/-- The run of a fallible change over a map starts with the first entry. -/
theorem mapEntriesM_cons_eq_ok {f : String → α → Except ε β} {name : String}
    {above : Follows bound name} {value : α} {rest : Ascending α (some name)}
    {result : Ascending β bound}
    (changed : (Ascending.cons name above value rest).mapEntriesM f = .ok result) :
    ∃ newValue newRest, f name value = .ok newValue ∧ rest.mapEntriesM f = .ok newRest ∧
      result = .cons name above newValue newRest := by
  obtain ⟨newValue, head, more⟩ := Except.bind_eq_ok_iff.1 changed
  obtain ⟨newRest, tail, built⟩ := Except.bind_eq_ok_iff.1 more
  exact ⟨newValue, newRest, head, tail, (Except.ok.inj built).symm⟩

/-- A change of all entries succeeds exactly if that of each does. -/
theorem exists_mapEntriesM_eq_ok_iff {f : String → α → Except ε β} {map : Ascending α bound} :
    (∃ changed, map.mapEntriesM f = .ok changed) ↔
      ∀ entry ∈ map.toList, ∃ b, f entry.1 entry.2 = .ok b := by
  induction map with
  | nil => exact iff_of_true ⟨.nil, rfl⟩ (by simp [toList])
  | cons name above value rest ih =>
      rw [toList, List.forall_mem_cons, ← ih]
      constructor
      · intro ⟨changed, changes⟩
        obtain ⟨first, others, head, tail, -⟩ := mapEntriesM_cons_eq_ok changes
        exact ⟨⟨first, head⟩, others, tail⟩
      · intro ⟨⟨first, head⟩, others, tail⟩
        exact ⟨.cons name above first others,
          Except.bind_eq_ok_iff.2 ⟨first, head, Except.bind_eq_ok_iff.2 ⟨others, tail, rfl⟩⟩⟩

/-- A change that succeeds gives each name the changed value. -/
theorem get?_mapEntriesM {f : String → α → Except ε β} {map : Ascending α bound}
    {result : Ascending β bound} (changed : map.mapEntriesM f = .ok result) (key : String) :
    Option.Rel (fun value newValue => f key value = .ok newValue) (map.get? key)
      (result.get? key) := by
  induction map with
  | nil =>
      cases changed
      exact .none
  | cons name above value rest ih =>
      obtain ⟨newValue, newRest, head, tail, rfl⟩ := mapEntriesM_cons_eq_ok changed
      by_cases here : key = name
      · subst here
        simp only [get?, if_true]
        exact .some head
      · simpa only [get?, here, if_false] using ih tail

/-- A change makes one value of each. -/
theorem eq_of_changes {change : α → Except ε β} {value : Option α} {left right : Option β}
    (toLeft : Option.Rel (fun value newValue => change value = .ok newValue) value left)
    (toRight : Option.Rel (fun value newValue => change value = .ok newValue) value right) :
    left = right := by
  cases toLeft with
  | none =>
      cases toRight
      rfl
  | some first =>
      cases toRight with
      | some second => rw [Except.ok.inj (first.symm.trans second)]

/-- A change succeeds with a result exactly if it changes the value of each name to
what the result gives it. -/
theorem mapEntriesM_eq_ok_iff {f : String → α → Except ε β} {map : Ascending α bound}
    {result : Ascending β bound} :
    map.mapEntriesM f = .ok result ↔
      ∀ key, Option.Rel (fun value newValue => f key value = .ok newValue) (map.get? key)
        (result.get? key) := by
  refine ⟨get?_mapEntriesM, fun each => ?_⟩
  have succeeds : ∃ changed, map.mapEntriesM f = .ok changed := by
    refine exists_mapEntriesM_eq_ok_iff.2 fun entry member => ?_
    have rel := each entry.1
    rw [mem_toList_iff.1 member] at rel
    cases found : result.get? entry.1 with
    | none =>
        rw [found] at rel
        cases rel
    | some newValue =>
        rw [found] at rel
        cases rel with
        | some changed => exact ⟨newValue, changed⟩
  obtain ⟨changed, changes⟩ := succeeds
  rw [changes]
  exact congrArg Except.ok (ext_get? fun key =>
    eq_of_changes (get?_mapEntriesM changes key) (each key))

/-- A change that succeeds keeps the names. -/
theorem names_mapEntriesM {f : String → α → Except ε β} {map : Ascending α bound}
    {result : Ascending β bound} (changed : map.mapEntriesM f = .ok result) :
    result.names = map.names := by
  induction map with
  | nil =>
      cases changed
      rfl
  | cons name above value rest ih =>
      obtain ⟨newValue, newRest, -, tail, rfl⟩ := mapEntriesM_cons_eq_ok changed
      have same : newRest.names = rest.names := ih tail
      simpa [names, toList] using same

/-- If a second change takes every changed value to `h` of the value before,
so it does with the map. -/
theorem mapEntriesM_of_undone {f : String → α → Except ε β} {g : String → β → Except ε γ}
    {h : String → α → γ}
    (undone : ∀ name value newValue, f name value = .ok newValue →
      g name newValue = .ok (h name value))
    {map : Ascending α bound} {result : Ascending β bound}
    (changed : map.mapEntriesM f = .ok result) :
    result.mapEntriesM g = .ok (map.mapEntries h) := by
  induction map with
  | nil =>
      cases changed
      rfl
  | cons name above value rest ih =>
      obtain ⟨newValue, newRest, head, tail, rfl⟩ := mapEntriesM_cons_eq_ok changed
      simp only [mapEntriesM, undone name value newValue head, ih tail]
      rfl

theorem mapEntriesM_weaken (f : String → α → Except ε β) {name : String}
    (map : Ascending α (some name)) (follows : Follows bound name) :
    (map.weaken follows).mapEntriesM f = (map.mapEntriesM f).map fun changed =>
      changed.weaken follows := by
  cases map with
  | nil => rfl
  | cons next above value rest =>
      simp only [weaken, mapEntriesM]
      cases f next value with
      | error failure => rfl
      | ok newValue => cases rest.mapEntriesM f <;> rfl

/-- A change that succeeds also does without one of the names. -/
theorem mapEntriesM_erase {f : String → α → Except ε β} {map : Ascending α bound}
    {result : Ascending β bound} (changed : map.mapEntriesM f = .ok result) (key : String) :
    (map.erase key).mapEntriesM f = .ok (result.erase key) := by
  induction map with
  | nil =>
      cases changed
      rfl
  | cons name above value rest ih =>
      obtain ⟨newValue, newRest, head, tail, rfl⟩ := mapEntriesM_cons_eq_ok changed
      unfold erase
      split
      · rw [mapEntriesM_weaken, tail]
        rfl
      · simp only [mapEntriesM, head, ih tail]
        rfl

/-- A change of all entries fails with the first of them or, after it, with the others. -/
theorem mapEntriesM_cons_eq_error_iff {f : String → α → Except ε β} {name : String}
    {above : Follows bound name} {value : α} {rest : Ascending α (some name)} {failure : ε} :
    (Ascending.cons name above value rest).mapEntriesM f = .error failure ↔
      f name value = .error failure ∨
        (∃ newValue, f name value = .ok newValue) ∧ rest.mapEntriesM f = .error failure := by
  rw [mapEntriesM]
  cases f name value with
  | error first => simp [bind, Except.bind]
  | ok newValue => cases rest.mapEntriesM f <;> simp [bind, Except.bind, pure, Except.pure]

/-- An entry whose change cannot fail plays no part in how the change of all entries fails. -/
theorem mapEntriesM_erase_eq_error_iff {f : String → α → Except ε β} {key : String}
    (unfailing : ∀ value, ∃ newValue, f key value = .ok newValue) {map : Ascending α bound}
    {failure : ε} :
    (map.erase key).mapEntriesM f = .error failure ↔ map.mapEntriesM f = .error failure := by
  induction map with
  | nil => rfl
  | cons name above value rest ih =>
      rw [mapEntriesM_cons_eq_error_iff, erase]
      split
      · next same =>
          obtain ⟨newValue, changed⟩ := unfailing value
          rw [same] at changed
          rw [mapEntriesM_weaken, changed]
          cases rest.mapEntriesM f <;> simp [Except.map]
      · rw [mapEntriesM_cons_eq_error_iff, ih]

/-! ## Keeping some names -/

/-- The entries under the names that are to be kept. -/
def keep (kept : String → Bool) : {bound : Option String} → Ascending α bound → Ascending α bound
  | _, .nil => .nil
  | _, .cons name above value rest =>
      if kept name then .cons name above value (rest.keep kept) else (rest.keep kept).weaken above

theorem toList_weaken {name : String} (map : Ascending α (some name))
    (follows : Follows bound name) :
    (map.weaken follows).toList = map.toList := by
  cases map <;> rfl

theorem toList_keep (kept : String → Bool) (map : Ascending α bound) :
    (map.keep kept).toList = map.toList.filter fun entry => kept entry.1 := by
  induction map with
  | nil => rfl
  | cons name above value rest ih =>
      unfold keep
      split
      · next yes => simp [toList, yes, ih]
      · next no => simp [toList, no, toList_weaken, ih]

theorem get?_keep (kept : String → Bool) (map : Ascending α bound) (key : String) :
    (map.keep kept).get? key = if kept key then map.get? key else none := by
  induction map with
  | nil => simp [keep, get?]
  | cons name above value rest ih =>
      unfold keep
      by_cases here : key = name
      · subst here
        have absent : rest.get? key = none := get?_eq_none_of_le rest (Std.le_refl key) rfl
        split
        · next yes => simp [get?]
        · next no => rw [get?_weaken, ih, absent, ite_self]
      · split
        · next yes => simp only [get?, here, if_false, ih]
        · next no => rw [get?_weaken, ih, get?, if_neg here]

/-! ## The last entry -/

/-- The greatest name stands last. -/
theorem toList_eq_erase_append {map : Ascending α bound} {key : String} {value : α}
    (found : map.get? key = some value) (greatest : ∀ name ∈ map.names, name ≤ key) :
    map.toList = (map.erase key).toList ++ [(key, value)] := by
  induction map with
  | nil => cases found
  | cons name above first rest ih =>
      have restGreatest : ∀ other ∈ rest.names, other ≤ key :=
        fun other member => greatest other (List.mem_cons_of_mem _ member)
      unfold get? at found
      unfold erase
      split at found
      · next here =>
          subst here
          cases found
          rw [if_pos rfl, toList_weaken]
          cases rest with
          | nil => rfl
          | cons next follows second others =>
              have le : next ≤ key := restGreatest next List.mem_cons_self
              exact absurd (Std.lt_of_lt_of_le follows le) (String.lt_irrefl key)
      · next other =>
          rw [if_neg other, toList, toList, ih found restGreatest, List.cons_append]

/-- Before the last entry stand lesser names. -/
theorem lt_of_toList_eq_concat {map : Ascending α bound} {front : List (String × α)}
    {key : String} {value : α} (ends : map.toList = front ++ [(key, value)]) {entry : String × α}
    (member : entry ∈ front) :
    entry.1 < key := by
  have ascending := pairwise_toList map
  rw [ends, List.pairwise_append] at ascending
  exact ascending.2.2 entry member (key, value) List.mem_cons_self

theorem eq_nil_or_toList_eq_concat (map : Ascending α bound) :
    map.toList = [] ∨ ∃ front key value, map.toList = front ++ [(key, value)] := by
  rcases List.eq_nil_or_concat map.toList with empty | ⟨front, ⟨key, value⟩, ends⟩
  · exact .inl empty
  · rw [List.concat_eq_append] at ends
    exact .inr ⟨front, key, value, ends⟩

end Ascending

namespace NameMap

variable {α : Type}

/-! ## Building maps -/

/-- What a map gives a name after another entry is put into it. -/
theorem get?_insert (map : NameMap α) (key name : String) (value : α) :
    (insert map key value).get? name = if key = name then some value else map.get? name := by
  split
  · next same => rw [← same, get?_insert_self]
  · next different => exact get?_insert_of_ne map value (Ne.symm different)

/-- And after an entry is taken away. -/
theorem get?_erase (map : NameMap α) (key name : String) :
    (map.erase key).get? name = if key = name then none else map.get? name := by
  split
  · next same => rw [← same, Ascending.get?_erase_self]
  · next different => exact Ascending.get?_erase_of_ne map (Ne.symm different)

/-- Entries in order that are put into a map go before those that it has. -/
theorem get?_insertAll {bound : Option String} (entries : Ascending α bound) (map : NameMap α)
    (key : String) :
    (entries.toList.foldl (fun built entry => insert built entry.1 entry.2) map).get? key =
      (entries.get? key).or (map.get? key) := by
  induction entries generalizing map with
  | nil => simp [Ascending.toList, Ascending.get?]
  | cons name above value rest ih =>
      simp only [Ascending.toList, List.foldl_cons, ih]
      by_cases here : key = name
      · subst here
        have absent : rest.get? key = none :=
          Ascending.get?_eq_none_of_le rest (Std.le_refl key) rfl
        simp [Ascending.get?, absent]
      · simp [Ascending.get?, here, get?_insert_of_ne map value here]

/-- A map is built again from its entries. -/
theorem ofList_toList (map : NameMap α) : ofList map.toList = map := by
  apply Ascending.ext_get?
  intro key
  rw [ofList, get?_insertAll]
  simp [Ascending.get?]

theorem get?_ofList_isSome (entries : List (String × α)) (map : NameMap α) (name : String) :
    ((entries.foldl (fun built entry => insert built entry.1 entry.2) map).get?
        name).isSome = true ↔
      name ∈ entries.map (·.1) ∨ (map.get? name).isSome = true := by
  induction entries generalizing map with
  | nil => simp
  | cons entry rest ih =>
      rw [List.foldl_cons, ih, List.map_cons, List.mem_cons]
      by_cases here : name = entry.1
      · simp [here]
      · rw [get?_insert_of_ne _ _ here]
        simp [here]

/-- The names of a map are those of the entries that it was made from. -/
theorem mem_names_ofList {entries : List (String × α)} {name : String} :
    name ∈ (ofList entries).names ↔ name ∈ entries.map (·.1) := by
  rw [Ascending.mem_names_iff, ← Option.isSome_iff_exists, ofList, get?_ofList_isSome]
  simp [Ascending.get?]

/-- What is put under a name that a map lacks can be taken away again. -/
theorem erase_insert {map : NameMap α} {name : String} (value : α)
    (absent : map.get? name = none) :
    (insert map name value).erase name = map := by
  apply Ascending.ext_get?
  intro key
  by_cases here : key = name
  · subst here
    rw [Ascending.get?_erase_self, absent]
  · rw [Ascending.get?_erase_of_ne _ here, get?_insert_of_ne _ _ here]

/-- Putting a value under one name and taking another away may change places. -/
theorem erase_insert_of_ne (map : NameMap α) {name other : String} (value : α)
    (different : other ≠ name) :
    (insert map name value).erase other = insert (map.erase other) name value := by
  apply Ascending.ext_get?
  intro key
  by_cases here : key = name
  · subst here
    rw [Ascending.get?_erase_of_ne _ (Ne.symm different), get?_insert_self, get?_insert_self]
  · rw [get?_insert_of_ne _ _ here]
    by_cases away : key = other
    · subst away
      rw [Ascending.get?_erase_self, Ascending.get?_erase_self]
    · rw [Ascending.get?_erase_of_ne _ away, Ascending.get?_erase_of_ne _ away,
        get?_insert_of_ne _ _ here]

end NameMap

end ItemSeal
