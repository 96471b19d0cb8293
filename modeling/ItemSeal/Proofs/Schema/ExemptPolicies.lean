import ItemSeal.Proofs.Sealing.Unsigned

/-!
Policies with keys exempt. An entry is put in for each key, so the keys count by their names only,
and exempting others after them is exempting all at once. What is overridden on the way are
entries of the policy as it was, one for each time a key is listed, and none if the keys are
exempt already (`ActionPolicy.overridden_withIndexKeys`). All of it together is
`ActionPolicy.exempts_withIndexKeys`.
-/

namespace ItemSeal.ActionPolicy

variable {policy : ActionPolicy} {keys others : List String}

/-! ## Entries -/

@[simp] theorem fallback_withIndexKeys :
    (policy.withIndexKeys keys).fallback = policy.fallback := by
  induction keys generalizing policy with
  | nil => rfl
  | cons key rest ih => exact (@ih (policy.withAction key .doNothing))

theorem withIndexKeys_append :
    policy.withIndexKeys (keys ++ others) = (policy.withIndexKeys keys).withIndexKeys others :=
  List.foldl_append

theorem get?_explicit_withIndexKeys (name : String) :
    (policy.withIndexKeys keys).explicit.get? name =
      if name ∈ keys then some .doNothing else policy.explicit.get? name := by
  induction keys generalizing policy with
  | nil => rfl
  | cons key rest ih =>
      rw [show policy.withIndexKeys (key :: rest) =
        (policy.withAction key .doNothing).withIndexKeys rest from rfl, ih]
      by_cases later : name ∈ rest
      · simp [later]
      · by_cases here : name = key
        · subst here
          simp [later, withAction]
        · simp [later, here, withAction, NameMap.get?_insert_of_ne]

/-- Keys of the same names are exempted alike, in whatever order and however
often they are listed. -/
theorem withIndexKeys_congr (same : ∀ name, name ∈ others ↔ name ∈ keys) :
    policy.withIndexKeys others = policy.withIndexKeys keys := by
  have entries :
      (policy.withIndexKeys others).explicit = (policy.withIndexKeys keys).explicit := by
    apply Ascending.ext_get?
    intro name
    simp only [get?_explicit_withIndexKeys, same]
  rw [ActionPolicy.mk.injEq]
  exact ⟨fallback_withIndexKeys.trans fallback_withIndexKeys.symm, entries⟩

/-! ## What is overridden -/

/-- The policy has an entry for the name that asks for protection. -/
def AsksFor (policy : ActionPolicy) (name : String) : Prop :=
  policy.explicit.get? name = some .signOnly ∨ policy.explicit.get? name = some .encryptAndSign

instance (policy : ActionPolicy) (name : String) : Decidable (policy.AsksFor name) :=
  inferInstanceAs (Decidable (_ ∨ _))

/-- What exempting one key overrides. -/
def overriding? (policy : ActionPolicy) (key : String) : Option Overriding :=
  match policy.explicit.get? key with
  | none | some .doNothing => none
  | some action => some ⟨key, action⟩

theorem overridden_eq : policy.overridden keys = keys.filterMap policy.overriding? := rfl

theorem overriding?_eq_some_iff {key : String} {overriding : Overriding} :
    policy.overriding? key = some overriding ↔
      policy.AsksFor key ∧ overriding.key = key ∧
        policy.explicit.get? key = some overriding.action := by
  unfold overriding? AsksFor
  rcases overriding with ⟨overridden, action⟩
  rcases policy.explicit.get? key with _ | found
  · simp
  · cases found <;> simp [eq_comm]

theorem overriding?_eq_none_iff {key : String} :
    policy.overriding? key = none ↔ ¬ policy.AsksFor key := by
  unfold overriding? AsksFor
  rcases policy.explicit.get? key with _ | found
  · simp
  · cases found <;> simp

/-- One entry is overridden each time a key is listed for which the policy has one
that asks for protection. -/
theorem map_overridden :
    (policy.overridden keys).map (fun overriding => (overriding.key, some overriding.action)) =
    (keys.filter (policy.AsksFor ·)).map fun key => (key, policy.explicit.get? key) := by
  rw [overridden_eq]
  induction keys with
  | nil => rfl
  | cons key rest ih =>
      cases found : policy.overriding? key with
      | none =>
          have silent := overriding?_eq_none_iff.1 found
          rw [List.filterMap_cons_none found, List.filter_cons_of_neg (by simpa using silent), ih]
      | some overriding =>
          obtain ⟨asks, rfl, action⟩ := overriding?_eq_some_iff.1 found
          rw [List.filterMap_cons_some found, List.filter_cons_of_pos (by simpa using asks),
            List.map_cons, List.map_cons, ih, action]

/-- Keys that are exempt already override nothing. -/
theorem overridden_withIndexKeys :
    (policy.withIndexKeys keys).overridden others =
      policy.overridden (others.filter (· ∉ keys)) := by
  rw [overridden_eq, overridden_eq, List.filterMap_filter]
  apply List.filterMap_congr
  intro key _
  unfold overriding?
  rw [get?_explicit_withIndexKeys]
  by_cases exempt : key ∈ keys <;> simp [exempt]

/-- The keys taken one by one: each is looked up in the policy as it was and put into a copy. -/
def exempting (policy : ActionPolicy) (keys : List String) : ActionPolicy × List Overriding :=
  keys.foldl (fun (adjusted, overridden) key =>
    (adjusted.withAction key .doNothing, overridden ++ (policy.overriding? key).toList))
      (policy, [])

theorem exempting_eq :
    policy.exempting keys = (policy.withIndexKeys keys, policy.overridden keys) := by
  have runs : ∀ (adjusted : ActionPolicy) (overridden : List Overriding),
      keys.foldl (fun (adjusted, overridden) key =>
        (adjusted.withAction key .doNothing, overridden ++ (policy.overriding? key).toList))
          (adjusted, overridden) =
      (adjusted.withIndexKeys keys, overridden ++ policy.overridden keys) := by
    rw [overridden_eq]
    induction keys with
    | nil => simp [withIndexKeys]
    | cons key rest ih =>
        intro adjusted overridden
        rw [List.foldl_cons, ih, List.append_assoc]
        cases found : policy.overriding? key with
        | none => rw [List.filterMap_cons_none found]; rfl
        | some overriding => rw [List.filterMap_cons_some found]; rfl
  exact runs policy []

/-! ## All of it -/

/-- What exempting keys does to a policy, also if it is done again. -/
structure Exempts (policy : ActionPolicy) (keys : List String) : Prop where
  /-- Nothing is done to the keys, and all else has the action that it had. -/
  action : ∀ name, (policy.withIndexKeys keys).action name =
    if name ∈ keys then .doNothing else policy.action name
  fallback : (policy.withIndexKeys keys).fallback = policy.fallback
  /-- The keys count by their names only. -/
  namesOnly : ∀ others, (∀ name, name ∈ others ↔ name ∈ keys) →
    policy.withIndexKeys others = policy.withIndexKeys keys
  /-- Exempting others after them is exempting all. -/
  append : ∀ others, (policy.withIndexKeys keys).withIndexKeys others =
    policy.withIndexKeys (keys ++ others)
  /-- The keys may be taken one by one. -/
  onePass : policy.exempting keys = (policy.withIndexKeys keys, policy.overridden keys)
  /-- What is overridden, in the order of the keys: the entries that ask for protection, each as
  often as its name is listed. -/
  overridden :
    (policy.overridden keys).map (fun overriding => (overriding.key, some overriding.action)) =
    (keys.filter (policy.AsksFor ·)).map fun key => (key, policy.explicit.get? key)
  /-- Done again, it overrides nothing. -/
  again : (policy.withIndexKeys keys).overridden keys = []
  /-- Nothing at all is protected if the policy leaves all names alone that are no keys. -/
  protectsNothing : (policy.withIndexKeys keys).protectsNothing = true ↔
    ∀ name, name ∉ keys → policy.action name = .doNothing

theorem exempts_withIndexKeys (policy : ActionPolicy) (keys : List String) :
    policy.Exempts keys where
  action := policy.action_withIndexKeys keys
  fallback := fallback_withIndexKeys
  namesOnly _ same := withIndexKeys_congr same
  append _ := withIndexKeys_append.symm
  onePass := exempting_eq
  overridden := map_overridden
  again := by
    rw [overridden_withIndexKeys, List.filter_eq_nil_iff.2 (by simp)]
    rfl
  protectsNothing := by
    rw [protectsNothing_iff]
    constructor
    · intro alone name other
      have left := alone name
      rwa [action_withIndexKeys, if_neg other] at left
    · intro alone name
      rw [action_withIndexKeys]
      split
      · rfl
      · next other => exact alone name other

end ItemSeal.ActionPolicy
