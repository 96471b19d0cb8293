import ItemSeal.Error
import ItemSeal.Store.Input

/-!
Reads of sealed items must give whole items: one that drops attributes could drop
the seal, or what it covers.
-/

namespace ItemSeal

/-- The selection keeps all attributes, or is not about attributes; else the report of it. -/
def Selection.check : Selection → Except Error Unit
  | .specificAttributes => .error (.selection "SpecificAttributes")
  | .allProjectedAttributes => .error (.selection "AllProjectedAttributes")
  | .allAttributes | .count | .other _ => .ok ()

namespace ReadOptions

/-- The read names no attributes to give, or none at all. -/
def checkAttributes (options : ReadOptions) : Except Error Unit :=
  match options.attributesToGet with
  | none | some [] => .ok ()
  | some (_ :: _) => .error .attributesToGet

/-- The read has no projection. -/
def checkProjection (options : ReadOptions) : Except Error Unit :=
  match options.projection with
  | none => .ok ()
  | some _ => .error .projection

/-- The read gives whole items. -/
def check (options : ReadOptions) (select : Option Selection) : Except Error Unit := do
  options.checkAttributes
  options.checkProjection
  match select with
  | some selection => selection.check
  | none => return ()

end ReadOptions

end ItemSeal
