import ItemSeal.NameMap

/-!
What is done to each attribute of an item. A policy names the action of some attributes and
has one for all others; `ActionPolicy.withIndexKeys` exempts the key attributes, which the
store must be able to read.
-/

namespace ItemSeal

/-- The protection of one attribute, from the weakest to the strongest. -/
inductive Action where
  | doNothing
  | signOnly
  | encryptAndSign
  deriving DecidableEq, Repr

namespace Action

/-- The place of an action in the order of strength. -/
def rank : Action → Nat
  | .doNothing => 0
  | .signOnly => 1
  | .encryptAndSign => 2

/-- The byte that stands for an action under a signature. -/
def byte (action : Action) : UInt8 :=
  UInt8.ofNat action.rank

/-- The name of an action. -/
def name : Action → String
  | .doNothing => "DoNothing"
  | .signOnly => "SignOnly"
  | .encryptAndSign => "EncryptAndSign"

/-- The action of that name. -/
def ofName? (name : String) : Option Action :=
  [doNothing, signOnly, encryptAndSign].find? (·.name == name)

/-- Actions compare by their strength. -/
instance : Ord Action := ⟨fun a b => compare a.rank b.rank⟩

/-- Actions of one byte are one action. -/
theorem byte_injective {a b : Action} (same : a.byte = b.byte) : a = b := by
  cases a <;> cases b <;> first | rfl | exact absurd same (by decide)

end Action

/-- The action of each attribute name. -/
structure ActionPolicy where
  /-- The action of the names without an entry. -/
  fallback : Action := .encryptAndSign
  /-- The actions given by name. -/
  explicit : NameMap Action := ∅
  deriving DecidableEq

instance : Inhabited ActionPolicy := ⟨{}⟩

/-- The exemption of an index key for which a policy asks protection. -/
structure Overriding where
  /-- The name of the key. -/
  key : String
  /-- What the policy asks for. -/
  action : Action
  deriving DecidableEq, Repr

/-- The words of the warning about an exemption. -/
def Overriding.warning : String :=
  "overriding configured action on index key attribute"

namespace ActionPolicy

/-- The action of a name. -/
def action (policy : ActionPolicy) (name : String) : Action :=
  (policy.explicit.get? name).getD policy.fallback

/-- The policy with another action for the names without an entry. -/
def withFallback (policy : ActionPolicy) (action : Action) : ActionPolicy :=
  { policy with fallback := action }

/-- The policy with an entry for a name. -/
def withAction (policy : ActionPolicy) (name : String) (action : Action) : ActionPolicy :=
  { policy with explicit := NameMap.insert policy.explicit name action }

/-- The policy with nothing done to the keys, whatever it says about them. -/
def withIndexKeys (policy : ActionPolicy) (keys : List String) : ActionPolicy :=
  keys.foldl (fun adjusted key => adjusted.withAction key .doNothing) policy

/-- The entries that exempting the keys overrides, once for each time a key is listed. -/
def overridden (policy : ActionPolicy) (keys : List String) : List Overriding :=
  keys.filterMap fun key =>
    match policy.explicit.get? key with
    | none | some .doNothing => none
    | some action => some ⟨key, action⟩

/-- No name at all is signed or encrypted: neither the fallback nor any entry asks for it. -/
def protectsNothing (policy : ActionPolicy) : Bool :=
  policy.fallback == .doNothing && policy.explicit.values.all (· == .doNothing)

@[simp] theorem action_withAction_self (policy : ActionPolicy) (name : String) (action : Action) :
    (policy.withAction name action).action name = action := by
  simp [ActionPolicy.action, withAction]

theorem action_withAction_of_ne (policy : ActionPolicy) {name other : String} (action : Action)
    (different : other ≠ name) :
    (policy.withAction name action).action other = policy.action other := by
  simp [ActionPolicy.action, withAction, NameMap.get?_insert_of_ne _ _ different]

end ActionPolicy

end ItemSeal
