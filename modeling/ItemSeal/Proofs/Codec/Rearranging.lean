import ItemSeal.Proofs.Codec.Canonical
import Mathlib.Logic.Relation

/-!
What the canonical form leaves out, as changes to a value: `AttributeValue.Rearranged` is one
change, of the order of one set's members or of one null's flag, anywhere in the value. Such
changes lead from a value to all alike ones and to no others
(`AttributeValue.alike_iff_rearrangeable`), so values with the same canonical bytes are those that
differ in nothing else: `AttributeValue.serializeCanonical_eq_iff_rearranged`.
-/

namespace ItemSeal

/-! ## Maps -/

namespace NameMap

variable {α : Type}

/-- The later of two values for one name counts. -/
theorem insert_insert (map : NameMap α) (name : String) (first second : α) :
    insert (insert map name first) name second = insert map name second := by
  apply Ascending.ext_get?
  intro key
  by_cases here : key = name
  · subst here
    rw [get?_insert_self, get?_insert_self]
  · rw [get?_insert_of_ne _ _ here, get?_insert_of_ne _ _ here, get?_insert_of_ne _ _ here]

/-- A name may be given the value that it has. -/
theorem insert_of_get? {map : NameMap α} {name : String} {value : α}
    (found : map.get? name = some value) : insert map name value = map := by
  apply Ascending.ext_get?
  intro key
  by_cases here : key = name
  · subst here
    rw [get?_insert_self, found]
  · rw [get?_insert_of_ne _ _ here]

end NameMap

namespace AttributeValue

theorem canonicalEntries_eq_mapEntries {bound : Option String}
    (entries : Ascending AttributeValue bound) :
    canonicalEntries entries = entries.mapEntries fun _ value => value.canonical := by
  induction entries with
  | nil => rw [canonicalEntries, Ascending.mapEntries]
  | cons name above value rest ih => rw [canonicalEntries, Ascending.mapEntries, ih]

theorem canonicalItems_eq_map (items : List AttributeValue) :
    canonicalItems items = items.map canonical := by
  induction items with
  | nil => rw [canonicalItems, List.map_nil]
  | cons item rest ih => rw [canonicalItems, List.map_cons, ih]

/-! ## Changes -/

/-- One set has its members in another order, or one null another flag; all else is the same. -/
inductive Rearranged : AttributeValue → AttributeValue → Prop
  | stringSet {left right : List String} (perm : left.Perm right) :
      Rearranged (.stringSet left) (.stringSet right)
  | numberSet {left right : List String} (perm : left.Perm right) :
      Rearranged (.numberSet left) (.numberSet right)
  | binarySet {left right : List Bytes} (perm : left.Perm right) :
      Rearranged (.binarySet left) (.binarySet right)
  | null (left right : Bool) : Rearranged (.null left) (.null right)
  | item {before after : List AttributeValue} {left right : AttributeValue}
      (inside : Rearranged left right) :
      Rearranged (.list (before ++ left :: after)) (.list (before ++ right :: after))
  | entry {entries : NameMap AttributeValue} {name : String} {left right : AttributeValue}
      (found : entries.get? name = some left) (inside : Rearranged left right) :
      Rearranged (.map entries) (.map (NameMap.insert entries name right))

/-- A change is not seen in the canonical value. -/
theorem Rearranged.canonical_eq {left right : AttributeValue} (change : Rearranged left right) :
    left.canonical = right.canonical := by
  induction change with
  | stringSet perm => rw [canonical, canonical, mergeSort_eq_iff_perm.2 perm]
  | numberSet perm => rw [canonical, canonical, mergeSort_eq_iff_perm.2 perm]
  | binarySet perm => rw [canonical, canonical, mergeSort_eq_iff_perm.2 perm]
  | null left right => rw [canonical, canonical]
  | item inside ih =>
      simp only [canonical, canonicalItems_eq_map, List.map_append, List.map_cons, ih]
  | @entry entries name left right found inside ih =>
      have sameEntries : canonicalEntries (NameMap.insert entries name right) =
          canonicalEntries entries := by
        apply Ascending.ext_get?
        intro key
        rw [canonicalEntries_eq_mapEntries, canonicalEntries_eq_mapEntries,
          Ascending.get?_mapEntries, Ascending.get?_mapEntries]
        by_cases here : key = name
        · subst here
          rw [NameMap.get?_insert_self, found, Option.map_some, Option.map_some, ih]
        · rw [NameMap.get?_insert_of_ne _ _ here]
      rw [canonical, canonical, sameEntries]

/-- Changes one after the other, none at all included. -/
abbrev Rearrangeable : AttributeValue → AttributeValue → Prop :=
  Relation.ReflTransGen Rearranged

theorem Rearrangeable.item {left right : AttributeValue} (inside : Rearrangeable left right)
    (before after : List AttributeValue) :
    Rearrangeable (.list (before ++ left :: after)) (.list (before ++ right :: after)) := by
  induction inside with
  | refl => exact .refl
  | tail _ change ih => exact ih.tail (.item change)

/-- A name's value may be rearranged in place. -/
theorem Rearrangeable.entry {left right : AttributeValue} (inside : Rearrangeable left right)
    {entries : NameMap AttributeValue} {name : String} (found : entries.get? name = some left) :
    Rearrangeable (.map entries) (.map (NameMap.insert entries name right)) := by
  induction inside with
  | refl => rw [NameMap.insert_of_get? found]
  | @tail value next _ change ih =>
      have step : Rearranged (.map (NameMap.insert entries name value))
          (.map (NameMap.insert (NameMap.insert entries name value) name next)) :=
        .entry (NameMap.get?_insert_self _ _ _) change
      rw [NameMap.insert_insert] at step
      exact ih.tail step

/-- Alike entries have the same names. -/
theorem get?_eq_none_of_alikeEntries {lefts rights : NameMap AttributeValue}
    (alike : AlikeEntries lefts rights) {name : String} (absent : rights.get? name = none) :
    lefts.get? name = none := by
  have same := Ascending.toList_injective (alikeEntries_iff_toList.1 alike)
  rw [canonicalEntries_eq_mapEntries, canonicalEntries_eq_mapEntries] at same
  have values := congrArg (fun entries => Ascending.get? entries name) same
  simpa [Ascending.get?_mapEntries, absent] using values

mutual

/-- Alike values are rearranged into one another. -/
theorem rearrangeable_of_alike : {left right : AttributeValue} → Alike left right →
    Rearrangeable left right
  | .string _, right, alike => by cases right <;> simp_all [Alike]; rfl
  | .number _, right, alike => by cases right <;> simp_all [Alike]; rfl
  | .binary _, right, alike => by cases right <;> simp_all [Alike]; rfl
  | .stringSet _, right, alike => by
      cases right <;> simp only [Alike] at alike
      exact .single (.stringSet alike)
  | .numberSet _, right, alike => by
      cases right <;> simp only [Alike] at alike
      exact .single (.numberSet alike)
  | .binarySet _, right, alike => by
      cases right <;> simp only [Alike] at alike
      exact .single (.binarySet alike)
  | .map lefts, right, alike => by
      cases right <;> simp only [Alike] at alike
      next rights =>
        have all := rearrangeable_of_alikeEntries alike lefts fun name value found => found
        have result :
            rights.toList.foldl (fun built entry => NameMap.insert built entry.1 entry.2) lefts =
              rights := by
          apply Ascending.ext_get?
          intro name
          rw [NameMap.get?_insertAll]
          cases found : rights.get? name with
          | some value => rfl
          | none => rw [get?_eq_none_of_alikeEntries alike found, Option.or_none]
        rwa [result] at all
  | .list lefts, right, alike => by
      cases right <;> simp only [Alike] at alike
      exact rearrangeable_of_alikeItems [] alike
  | .null left, right, alike => by
      cases right <;> simp only [Alike] at alike
      exact .single (.null _ _)
  | .bool _, right, alike => by cases right <;> simp_all [Alike]; rfl
  | .unknown, right, alike => by cases right <;> simp_all [Alike]; rfl

theorem rearrangeable_of_alikeItems : (before : List AttributeValue) →
    {lefts rights : List AttributeValue} → AlikeItems lefts rights →
    Rearrangeable (.list (before ++ lefts)) (.list (before ++ rights))
  | _, [], [], _ => .refl
  | _, [], _ :: _, alike => by simp only [AlikeItems] at alike
  | _, _ :: _, [], alike => by simp only [AlikeItems] at alike
  | before, left :: lefts, right :: rights, alike => by
      simp only [AlikeItems] at alike
      have head := (rearrangeable_of_alike alike.1).item before lefts
      have tail := rearrangeable_of_alikeItems (before ++ [right]) alike.2
      rw [List.append_assoc, List.append_assoc] at tail
      exact head.trans tail

/-- A map that has the first entries is rearranged into one that has the second in their place. -/
theorem rearrangeable_of_alikeEntries : {bound other : Option String} →
    {lefts : Ascending AttributeValue bound} → {rights : Ascending AttributeValue other} →
    AlikeEntries lefts rights → (entries : NameMap AttributeValue) →
    (∀ name value, lefts.get? name = some value → entries.get? name = some value) →
    Rearrangeable (.map entries)
      (.map (rights.toList.foldl
        (fun built entry => NameMap.insert built entry.1 entry.2) entries))
  | _, _, .nil, .nil, _, _, _ => .refl
  | _, _, .nil, .cons .., alike, _, _ => by simp only [AlikeEntries] at alike
  | _, _, .cons .., .nil, alike, _, _ => by simp only [AlikeEntries] at alike
  | _, _, .cons name _ left lefts, .cons _ _ right rights, alike, entries, has => by
      simp only [AlikeEntries] at alike
      obtain ⟨rfl, values, others⟩ := alike
      have here : entries.get? name = some left := has name left (by simp [Ascending.get?])
      have head := (rearrangeable_of_alike values).entry here
      have tail := rearrangeable_of_alikeEntries others (NameMap.insert entries name right) ?_
      · exact head.trans tail
      · intro key value found
        have different : key ≠ name := Ascending.ne_of_get?_rest found
        rw [NameMap.get?_insert_of_ne _ _ different]
        exact has key value (by simp [Ascending.get?, different, found])

end

/-- Alike are the values that are rearranged into one another. -/
theorem alike_iff_rearrangeable {left right : AttributeValue} :
    Alike left right ↔ Rearrangeable left right := by
  refine ⟨rearrangeable_of_alike, fun changes => ?_⟩
  rw [alike_iff]
  induction changes with
  | refl => rfl
  | tail _ change ih => exact ih.trans change.canonical_eq

/-- The canonical bytes of a value are those of another exactly if the two are alike, and alike
are those that differ in the order of set members and in the flags of nulls, however deep
inside, and in nothing else. -/
theorem serializeCanonical_eq_iff_rearranged {left right : AttributeValue} {bytes : Bytes}
    (written : left.serializeCanonical = .ok bytes) :
    (left.serializeCanonical = right.serializeCanonical ↔ Alike left right) ∧
      (Alike left right ↔ Relation.ReflTransGen Rearranged left right) := by
  refine ⟨⟨fun same => ?_, fun alike => ?_⟩, alike_iff_rearrangeable⟩
  · exact (serializeCanonical_eq_iff written (same ▸ written)).1 rfl
  · rw [serializeCanonical, serializeCanonical, alike_iff.1 alike]

namespace Sample

-- One set in two orders beside nulls of both flags, and the set with a member less.
def sizes : AttributeValue :=
  .map (NameMap.ofList [("Sizes", .numberSet ["2", "1", "2"]), ("Notes", .list [.null false])])

def sizesInOrder : AttributeValue :=
  .map (NameMap.ofList [("Sizes", .numberSet ["1", "2", "2"]), ("Notes", .list [.null true])])

def sizesOnce : AttributeValue :=
  .map (NameMap.ofList [("Sizes", .numberSet ["1", "2"]), ("Notes", .list [.null true])])

end Sample

open Sample in
theorem serializeCanonical_sizes :
    ∃ bytes, sizes.serializeCanonical = .ok bytes ∧
      sizes.serializeCanonical = sizesInOrder.serializeCanonical ∧
      Relation.ReflTransGen Rearranged sizes sizesInOrder ∧
      sizes.serializeCanonical ≠ sizesOnce.serializeCanonical := by
  have swapped : ["2", "1", "2"].Perm ["1", "2", "2"] := by decide
  have fewer : ¬ ["2", "1", "2"].Perm ["1", "2"] := by decide
  have alike : Alike sizes sizesInOrder :=
    ⟨rfl, ⟨trivial, trivial⟩, rfl, swapped, trivial⟩
  have sorted : ["1", "2", "2"].mergeSort = ["1", "2", "2"] :=
    List.mergeSort_of_pairwise (by decide)
  have inForm : sizesInOrder.canonical = sizesInOrder := by
    change AttributeValue.map
      (.cons _ _ _ (.cons _ _ (.numberSet ["1", "2", "2"].mergeSort) .nil)) = _
    rw [sorted]
    rfl
  have succeeds : ∃ bytes, sizes.serializeCanonical = .ok bytes := by
    rw [serializeCanonical, alike_iff.1 alike, inForm]
    exact ⟨_, rfl⟩
  obtain ⟨bytes, written⟩ := succeeds
  have inOrder := @serializeCanonical_eq_iff_rearranged _ sizesInOrder _ written
  have once := @serializeCanonical_eq_iff_rearranged _ sizesOnce _ written
  refine ⟨bytes, written, inOrder.1.2 alike, inOrder.2.1 alike, ?_⟩
  intro same
  obtain ⟨-, -, -, perm, -⟩ := once.1.1 same
  exact fewer perm

end AttributeValue

end ItemSeal
