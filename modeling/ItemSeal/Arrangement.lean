import ItemSeal.NameMap

/-!
Maps gone through in any order. Where a collection hands out its entries in no order of its own,
what is done with one after the other may depend on it: an `Arrangement` is such an order, and
what holds for all arrangements holds whichever order it is.
-/

namespace ItemSeal

/-- An order to go through names in. -/
structure Arrangement where
  arrange : List String → List String
  perm : ∀ names, (arrange names).Perm names

/-- The order in which the names stand. -/
def Arrangement.byName : Arrangement := ⟨id, fun names => .refl names⟩

namespace NameMap

variable {α β : Type}

/-- The entries of a map as an arrangement orders them. -/
def arranged (arrangement : Arrangement) (map : NameMap α) : List (String × α) :=
  (arrangement.arrange map.names).filterMap fun name => (map.get? name).map (name, ·)

section Actions

variable {m : Type → Type} [Monad m]

/-- Runs an action on an entry and gives the name the new value. -/
def changeEntryM (f : String → α → m β) (entry : String × α) : m (String × β) := do
  let value ← f entry.1 entry.2
  return (entry.1, value)

/-- Runs an action on each entry, one after the other as arranged, and collects the new values. -/
def mapArrangedM (arrangement : Arrangement) (f : String → α → m β) (map : NameMap α) :
    m (NameMap β) := do
  let changed ← (map.arranged arrangement).mapM (changeEntryM f)
  return ofList changed

end Actions

end NameMap

end ItemSeal
