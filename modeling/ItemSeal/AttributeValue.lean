import ItemSeal.Bytes
import ItemSeal.NameMap

/-!
Attribute values: scalars, sets kept as ordered lists, and lists and maps
of values nested at will.
-/

namespace ItemSeal

/-- The value of an attribute. -/
inductive AttributeValue where
  | string (text : String)
  /-- A number, as its text: no digit of it is ever interpreted. -/
  | number (text : String)
  | binary (bytes : Bytes)
  | stringSet (members : List String)
  | numberSet (members : List String)
  | binarySet (members : List Bytes)
  | map (entries : Ascending AttributeValue none)
  | list (items : List AttributeValue)
  | null (flag : Bool)
  | bool (flag : Bool)
  /-- A value of a type that is not known here. -/
  | unknown

/-- An item: a value for each of its attribute names. -/
abbrev Item := NameMap AttributeValue

namespace AttributeValue

mutual

/-- The two values are the same. -/
def same : AttributeValue → AttributeValue → Bool
  | .string a, .string b => a == b
  | .number a, .number b => a == b
  | .binary a, .binary b => a == b
  | .stringSet a, .stringSet b => a == b
  | .numberSet a, .numberSet b => a == b
  | .binarySet a, .binarySet b => a == b
  | .map a, .map b => sameEntries a b
  | .list a, .list b => sameItems a b
  | .null a, .null b => a == b
  | .bool a, .bool b => a == b
  | .unknown, .unknown => true
  | _, _ => false

/-- The two lists hold the same values. -/
def sameItems : List AttributeValue → List AttributeValue → Bool
  | [], [] => true
  | a :: as, b :: bs => same a b && sameItems as bs
  | _, _ => false

/-- The two runs of entries hold the same values under the same names. -/
def sameEntries : {bound other : Option String} → Ascending AttributeValue bound →
    Ascending AttributeValue other → Bool
  | _, _, .nil, .nil => true
  | _, _, .cons m _ a as, .cons n _ b bs => m == n && same a b && sameEntries as bs
  | _, _, _, _ => false

end

mutual

theorem eq_of_same : {a b : AttributeValue} → same a b = true → a = b
  | .string _, b, h => by cases b <;> simp_all [same]
  | .number _, b, h => by cases b <;> simp_all [same]
  | .binary _, b, h => by cases b <;> simp_all [same]
  | .stringSet _, b, h => by cases b <;> simp_all [same]
  | .numberSet _, b, h => by cases b <;> simp_all [same]
  | .binarySet _, b, h => by cases b <;> simp_all [same]
  | .map as, b, h => by
      cases b <;> simp only [same, Bool.false_eq_true] at h
      rw [Ascending.toList_injective (toList_eq_of_same h)]
  | .list as, b, h => by
      cases b <;> simp only [same, Bool.false_eq_true] at h
      rw [items_eq_of_same h]
  | .null _, b, h => by cases b <;> simp_all [same]
  | .bool _, b, h => by cases b <;> simp_all [same]
  | .unknown, b, h => by cases b <;> simp_all [same]

theorem items_eq_of_same : {as bs : List AttributeValue} → sameItems as bs = true → as = bs
  | [], [], _ => rfl
  | [], _ :: _, h => by simp [sameItems] at h
  | _ :: _, [], h => by simp [sameItems] at h
  | a :: as, b :: bs, h => by
      simp only [sameItems, Bool.and_eq_true] at h
      rw [eq_of_same h.1, items_eq_of_same h.2]

theorem toList_eq_of_same :
    {bound other : Option String} → {as : Ascending AttributeValue bound} →
    {bs : Ascending AttributeValue other} → sameEntries as bs = true → as.toList = bs.toList
  | _, _, .nil, .nil, _ => rfl
  | _, _, .nil, .cons .., h => by simp [sameEntries] at h
  | _, _, .cons .., .nil, h => by simp [sameEntries] at h
  | _, _, .cons m _ a as, .cons n _ b bs, h => by
      simp only [sameEntries, Bool.and_eq_true, beq_iff_eq] at h
      simp only [Ascending.toList, h.1.1, eq_of_same h.1.2, toList_eq_of_same h.2]

end

mutual

theorem same_refl : (a : AttributeValue) → same a a = true
  | .string _ => by simp [same]
  | .number _ => by simp [same]
  | .binary _ => by simp [same]
  | .stringSet _ => by simp [same]
  | .numberSet _ => by simp [same]
  | .binarySet _ => by simp [same]
  | .map as => by simpa [same] using sameEntries_refl as
  | .list as => by simpa [same] using sameItems_refl as
  | .null _ => by simp [same]
  | .bool _ => by simp [same]
  | .unknown => by simp [same]

theorem sameItems_refl : (as : List AttributeValue) → sameItems as as = true
  | [] => by simp [sameItems]
  | a :: as => by simp [sameItems, same_refl a, sameItems_refl as]

theorem sameEntries_refl : {bound : Option String} → (as : Ascending AttributeValue bound) →
    sameEntries as as = true
  | _, .nil => by simp [sameEntries]
  | _, .cons _ _ a as => by simp [sameEntries, same_refl a, sameEntries_refl as]

end

instance : DecidableEq AttributeValue := fun a b =>
  if h : same a b = true then isTrue (eq_of_same h)
  else isFalse fun equal => h (equal ▸ same_refl a)

instance : Inhabited AttributeValue := ⟨.unknown⟩

end AttributeValue

end ItemSeal
