/-!
Maps from names to values, kept in ascending order of the names.

The order is part of the type, so each name occurs once and two maps with the same entries are
equal. Names are compared by code point, which is also the order of their UTF-8 bytes.
-/

namespace ItemSeal

/-- The name may stand after the bound: there is no bound, or the name is greater. -/
def Follows : Option String → String → Prop
  | none, _ => True
  | some bound, name => bound < name

instance (bound : Option String) (name : String) : Decidable (Follows bound name) :=
  match bound with
  | none => isTrue trivial
  | some least => inferInstanceAs (Decidable (least < name))

theorem Follows.trans {bound : Option String} {name next : String} (first : Follows bound name)
    (second : name < next) : Follows bound next := by
  cases bound with
  | none => trivial
  | some least => exact String.lt_trans first second

theorem Follows.of_not_le {name key : String} (notBefore : ¬ key < name)
    (different : ¬ key = name) :
    Follows (some name) key :=
  Std.lt_of_le_of_ne (String.not_lt.1 notBefore) (Ne.symm different)

/-- Entries in strictly ascending order of their names, each name after `bound`. -/
inductive Ascending (α : Type) : Option String → Type where
  | nil {bound : Option String} : Ascending α bound
  | cons {bound : Option String} (name : String) (follows : Follows bound name) (value : α)
      (rest : Ascending α (some name)) : Ascending α bound

/-- A map from names to values. -/
abbrev NameMap (α : Type) := Ascending α none

namespace Ascending

variable {α β : Type} {bound : Option String}

instance : EmptyCollection (Ascending α bound) := ⟨.nil⟩

instance : Inhabited (Ascending α bound) := ⟨.nil⟩

/-- The entries in order. -/
def toList : {bound : Option String} → Ascending α bound → List (String × α)
  | _, .nil => []
  | _, .cons name _ value rest => (name, value) :: rest.toList

/-- The names in order. -/
def names (map : Ascending α bound) : List String :=
  map.toList.map (·.1)

/-- The values in the order of their names. -/
def values (map : Ascending α bound) : List α :=
  map.toList.map (·.2)

/-- The number of entries. -/
def size (map : Ascending α bound) : Nat :=
  map.toList.length

/-- The value of a name. -/
def get? : {bound : Option String} → Ascending α bound → String → Option α
  | _, .nil, _ => none
  | _, .cons name _ value rest, key => if key = name then some value else rest.get? key

/-- The name has a value. -/
def contains (map : Ascending α bound) (key : String) : Bool :=
  (map.get? key).isSome

/-- Gives `key` the value, in place of the one that it has. -/
def insertAbove : {bound : Option String} → Ascending α bound → (key : String) →
    Follows bound key → α → Ascending α bound
  | _, .nil, key, follows, value => .cons key follows value .nil
  | _, .cons name above old rest, key, follows, value =>
      if before : key < name then .cons key follows value (.cons name before old rest)
      else if same : key = name then .cons name above value rest
      else .cons name above old (rest.insertAbove key (.of_not_le before same) value)

/-- The same entries under a weaker bound. -/
def weaken {name : String} (map : Ascending α (some name)) (follows : Follows bound name) :
    Ascending α bound :=
  match map with
  | .nil => .nil
  | .cons next above value rest => .cons next (follows.trans above) value rest

/-- Takes away the entry of a name, if there is one. -/
def erase : {bound : Option String} → Ascending α bound → String → Ascending α bound
  | _, .nil, _ => .nil
  | _, .cons name above value rest, key =>
      if key = name then rest.weaken above else .cons name above value (rest.erase key)

/-- Changes each value by a function of its name and itself. -/
def mapEntries (f : String → α → β) :
    {bound : Option String} → Ascending α bound → Ascending β bound
  | _, .nil => .nil
  | _, .cons name above value rest => .cons name above (f name value) (rest.mapEntries f)

/-- Runs an action on each entry in order and collects the new values. -/
def mapEntriesM {m : Type → Type} [Monad m] (f : String → α → m β) :
    {bound : Option String} → Ascending α bound → m (Ascending β bound)
  | _, .nil => pure .nil
  | _, .cons name above value rest => do
      let value ← f name value
      let rest ← rest.mapEntriesM f
      return .cons name above value rest

end Ascending

namespace NameMap

variable {α : Type}

/-- Gives a name the value, in place of the one that it has. -/
def insert (map : NameMap α) (name : String) (value : α) : NameMap α :=
  map.insertAbove name trivial value

/-- The map of a list of entries; of two with one name the later counts. -/
def ofList (entries : List (String × α)) : NameMap α :=
  entries.foldl (fun map entry => insert map entry.1 entry.2) .nil

/-- The map of a single entry. -/
def singleton (name : String) (value : α) : NameMap α :=
  .cons name trivial value .nil

end NameMap

namespace Ascending

variable {α : Type}

/-- A map is determined by its list of entries. -/
theorem toList_injective {bound : Option String} {left right : Ascending α bound}
    (same : left.toList = right.toList) : left = right := by
  induction left with
  | nil =>
      cases right with
      | nil => rfl
      | cons => cases same
  | cons name above value rest ih =>
      cases right with
      | nil => cases same
      | cons name' above' value' rest' =>
          simp only [toList, List.cons.injEq, Prod.mk.injEq] at same
          obtain ⟨⟨rfl, rfl⟩, tail⟩ := same
          rw [ih tail]

instance {bound : Option String} [DecidableEq α] : DecidableEq (Ascending α bound) :=
  fun left right =>
    decidable_of_iff (left.toList = right.toList) ⟨toList_injective, congrArg toList⟩

/-- A name below every entry has no value. -/
theorem get?_eq_none_of_le {bound : Option String} (map : Ascending α bound) {least key : String}
    (le : key ≤ least) (isBound : bound = some least) : map.get? key = none := by
  induction map generalizing least with
  | nil => rfl
  | cons name above value rest ih =>
      subst isBound
      have less : key < name := Std.lt_of_le_of_lt le above
      have different : key ≠ name := fun same => String.lt_irrefl name (same ▸ less)
      simp only [get?, different, if_false]
      exact ih (Std.le_of_lt less) rfl

theorem get?_insertAbove_self {bound : Option String} (map : Ascending α bound) (key : String)
    (follows : Follows bound key) (value : α) :
    (map.insertAbove key follows value).get? key = some value := by
  induction map with
  | nil => simp [insertAbove, get?]
  | cons name above old rest ih =>
      unfold insertAbove
      split
      · simp [get?]
      · split
        · next same => simp [get?, same]
        · next different => simp only [get?, different, if_false, ih]

theorem get?_insertAbove_of_ne {bound : Option String} (map : Ascending α bound)
    {key other : String} (follows : Follows bound key) (value : α) (different : other ≠ key) :
    (map.insertAbove key follows value).get? other = map.get? other := by
  induction map with
  | nil => simp [insertAbove, get?, different]
  | cons name above old rest ih =>
      unfold insertAbove
      split
      · simp [get?, different]
      · split
        · next same => simp [get?, ← same, different]
        · simp only [get?, ih]

theorem get?_weaken {bound : Option String} {name : String} (map : Ascending α (some name))
    (follows : Follows bound name) (key : String) :
    (map.weaken follows).get? key = map.get? key := by
  cases map <;> rfl

theorem get?_erase_self {bound : Option String} (map : Ascending α bound) (key : String) :
    (map.erase key).get? key = none := by
  induction map with
  | nil => rfl
  | cons name above value rest ih =>
      unfold erase
      split
      · next same =>
          rw [get?_weaken]
          exact get?_eq_none_of_le rest (Std.le_of_eq same) rfl
      · next different => simp only [get?, different, if_false, ih]

theorem get?_erase_of_ne {bound : Option String} (map : Ascending α bound) {key other : String}
    (different : other ≠ key) : (map.erase key).get? other = map.get? other := by
  induction map with
  | nil => rfl
  | cons name above value rest ih =>
      unfold erase
      split
      · next same => rw [get?_weaken, get?, if_neg (same ▸ different)]
      · simp only [get?, ih]

/-- Two maps that give every name the same value are equal. -/
theorem ext_get? {bound : Option String} {left right : Ascending α bound}
    (same : ∀ key, left.get? key = right.get? key) : left = right := by
  induction left with
  | nil =>
      cases right with
      | nil => rfl
      | cons name above value rest =>
          have := same name
          simp [get?] at this
  | cons name above value rest ih =>
      cases right with
      | nil =>
          have := same name
          simp [get?] at this
      | cons name' above' value' rest' =>
          have names : name = name' := by
            have atLeft := same name
            have atRight := same name'
            simp only [get?, if_true] at atLeft atRight
            rcases Std.le_total (a := name) (b := name') with le | le
            · apply Decidable.byContradiction
              intro different
              rw [if_neg different, get?_eq_none_of_le rest' le rfl] at atLeft
              cases atLeft
            · apply Decidable.byContradiction
              intro different
              rw [if_neg (Ne.symm different), get?_eq_none_of_le rest le rfl] at atRight
              cases atRight
          subst names
          have values : value = value' := by
            have := same name
            simpa [get?] using this
          subst values
          have tails : rest = rest' := by
            apply ih
            intro key
            by_cases here : key = name
            · subst here
              rw [get?_eq_none_of_le rest (Std.le_refl key) rfl,
                get?_eq_none_of_le rest' (Std.le_refl key) rfl]
            · have := same key
              simpa [get?, here] using this
          rw [tails]

end Ascending

namespace NameMap

variable {α : Type}

@[simp] theorem get?_insert_self (map : NameMap α) (name : String) (value : α) :
    (insert map name value).get? name = some value :=
  map.get?_insertAbove_self name trivial value

theorem get?_insert_of_ne (map : NameMap α) {name other : String} (value : α)
    (different : other ≠ name) : (insert map name value).get? other = map.get? other :=
  map.get?_insertAbove_of_ne trivial value different

end NameMap

end ItemSeal
