import ItemSeal.Proofs.Codec.RoundTrip

/-!
The canonical bytes of a value. `AttributeValue.Alike` says what they leave out: the order of set
members, at any depth, and the flags of nulls. `AttributeValue.alike_iff` ties it to the canonical
value, and `AttributeValue.serializeCanonical_eq_iff` to the bytes.
-/

namespace ItemSeal

/-- Lists are sorted alike exactly if they have the same members equally often. -/
theorem mergeSort_eq_iff_perm {α : Type} [LE α] [DecidableLE α] [Std.IsLinearOrder α]
    {left right : List α} :
    left.mergeSort (fun a b => decide (a ≤ b)) = right.mergeSort (fun a b => decide (a ≤ b)) ↔
      left.Perm right := by
  have sorted : ∀ list : List α,
      (list.mergeSort fun a b => decide (a ≤ b)).Pairwise fun a b => decide (a ≤ b) = true := by
    intro list
    apply List.pairwise_mergeSort
    · intro a b c before after
      simp only [decide_eq_true_eq] at before after ⊢
      exact Std.le_trans before after
    · intro a b
      simp only [Bool.or_eq_true, decide_eq_true_eq]
      exact Std.le_total
  constructor
  · intro same
    exact (List.mergeSort_perm left _).symm.trans (same ▸ List.mergeSort_perm right _)
  · intro perm
    have sameMembers := (List.mergeSort_perm left fun a b => decide (a ≤ b)).trans
      (perm.trans (List.mergeSort_perm right fun a b => decide (a ≤ b)).symm)
    refine List.Perm.eq_of_pairwise ?_ (sorted left) (sorted right) sameMembers
    intro a b _ _ before after
    simp only [decide_eq_true_eq] at before after
    exact Std.le_antisymm before after

namespace AttributeValue

mutual

/-- The values are equal up to the order of set members and the flags of nulls, at any depth. -/
def Alike : AttributeValue → AttributeValue → Prop
  | .string a, .string b => a = b
  | .number a, .number b => a = b
  | .binary a, .binary b => a = b
  | .stringSet a, .stringSet b => a.Perm b
  | .numberSet a, .numberSet b => a.Perm b
  | .binarySet a, .binarySet b => a.Perm b
  | .map a, .map b => AlikeEntries a b
  | .list a, .list b => AlikeItems a b
  | .null _, .null _ => True
  | .bool a, .bool b => a = b
  | .unknown, .unknown => True
  | _, _ => False

/-- The lists hold alike values in the same order. -/
def AlikeItems : List AttributeValue → List AttributeValue → Prop
  | [], [] => True
  | a :: as, b :: bs => Alike a b ∧ AlikeItems as bs
  | _, _ => False

/-- The runs of entries hold alike values under the same names. -/
def AlikeEntries : {bound other : Option String} → Ascending AttributeValue bound →
    Ascending AttributeValue other → Prop
  | _, _, .nil, .nil => True
  | _, _, .cons m _ a as, .cons n _ b bs => m = n ∧ Alike a b ∧ AlikeEntries as bs
  | _, _, _, _ => False

end

mutual

/-- Values are alike exactly if they have one canonical value. -/
theorem alike_iff : {a b : AttributeValue} → (Alike a b ↔ a.canonical = b.canonical)
  | .string _, b => by cases b <;> simp [Alike, canonical]
  | .number _, b => by cases b <;> simp [Alike, canonical]
  | .binary _, b => by cases b <;> simp [Alike, canonical]
  | .stringSet _, b => by cases b <;> simp [Alike, canonical, mergeSort_eq_iff_perm]
  | .numberSet _, b => by cases b <;> simp [Alike, canonical, mergeSort_eq_iff_perm]
  | .binarySet _, b => by cases b <;> simp [Alike, canonical, mergeSort_eq_iff_perm]
  | .map as, b => by
      cases b with
      | map bs =>
          rw [Alike, alikeEntries_iff_toList, canonical, canonical, AttributeValue.map.injEq]
          exact ⟨Ascending.toList_injective, congrArg Ascending.toList⟩
      | _ => simp [Alike, canonical]
  | .list as, b => by
      cases b with
      | list bs => rw [Alike, alikeItems_iff, canonical, canonical, AttributeValue.list.injEq]
      | _ => simp [Alike, canonical]
  | .null _, b => by cases b <;> simp [Alike, canonical]
  | .bool _, b => by cases b <;> simp [Alike, canonical]
  | .unknown, b => by cases b <;> simp [Alike, canonical]

theorem alikeItems_iff : {as bs : List AttributeValue} →
    (AlikeItems as bs ↔ canonicalItems as = canonicalItems bs)
  | [], [] => by simp [AlikeItems]
  | [], _ :: _ => by simp [AlikeItems, canonicalItems]
  | _ :: _, [] => by simp [AlikeItems, canonicalItems]
  | a :: as, b :: bs => by
      rw [AlikeItems, canonicalItems, canonicalItems, List.cons.injEq, alike_iff, alikeItems_iff]

theorem alikeEntries_iff_toList : {bound other : Option String} →
    {as : Ascending AttributeValue bound} → {bs : Ascending AttributeValue other} →
    (AlikeEntries as bs ↔ (canonicalEntries as).toList = (canonicalEntries bs).toList)
  | _, _, .nil, .nil => by simp [AlikeEntries, canonicalEntries, Ascending.toList]
  | _, _, .nil, .cons .. => by simp [AlikeEntries, canonicalEntries, Ascending.toList]
  | _, _, .cons .., .nil => by simp [AlikeEntries, canonicalEntries, Ascending.toList]
  | _, _, .cons m _ a as, .cons n _ b bs => by
      rw [AlikeEntries, canonicalEntries, canonicalEntries, Ascending.toList, Ascending.toList,
        List.cons.injEq, Prod.mk.injEq, alike_iff, alikeEntries_iff_toList, and_assoc]

end

mutual

/-- The nulls of a canonical value are flagged. -/
theorem settled_canonical : (value : AttributeValue) → value.canonical.settled = value.canonical
  | .string _ => by simp only [canonical, settled]
  | .number _ => by simp only [canonical, settled]
  | .binary _ => by simp only [canonical, settled]
  | .stringSet _ => by simp only [canonical, settled]
  | .numberSet _ => by simp only [canonical, settled]
  | .binarySet _ => by simp only [canonical, settled]
  | .map entries => by rw [canonical, settled, settledEntries_canonical entries]
  | .list items => by rw [canonical, settled, settledItems_canonical items]
  | .null _ => by simp only [canonical, settled]
  | .bool _ => by simp only [canonical, settled]
  | .unknown => by simp only [canonical, settled]

theorem settledItems_canonical : (items : List AttributeValue) →
    settledItems (canonicalItems items) = canonicalItems items
  | [] => by simp only [canonicalItems, settledItems]
  | item :: rest => by
      rw [canonicalItems, settledItems, settled_canonical item, settledItems_canonical rest]

theorem settledEntries_canonical : {bound : Option String} →
    (entries : Ascending AttributeValue bound) →
    settledEntries (canonicalEntries entries) = canonicalEntries entries
  | _, .nil => by simp only [canonicalEntries, settledEntries]
  | _, .cons name above value rest => by
      rw [canonicalEntries, settledEntries, settled_canonical value,
        settledEntries_canonical rest]

end

/-- The canonical bytes of two values are the same exactly if the values are alike. -/
theorem serializeCanonical_eq_iff {a b : AttributeValue} {left right : Bytes}
    (writtenLeft : a.serializeCanonical = .ok left)
    (writtenRight : b.serializeCanonical = .ok right) :
    left = right ↔ Alike a b := by
  rw [alike_iff]
  constructor
  · intro same
    have readLeft := deserialize_of_serialize writtenLeft
    have readRight := deserialize_of_serialize writtenRight
    rw [settled_canonical] at readLeft readRight
    rw [same, readRight] at readLeft
    exact (Except.ok.inj readLeft).symm
  · intro same
    rw [serializeCanonical, same] at writtenLeft
    exact Except.ok.inj (writtenLeft.symm.trans writtenRight)

end AttributeValue

/-! ## Items -/

theorem AttributeValue.rel_alike_iff {left right : Option AttributeValue} :
    Option.Rel Alike left right ↔ left.map canonical = right.map canonical := by
  cases left <;> cases right <;> simp [alike_iff]

/-- The items hold alike values under the same names. -/
def Item.Alike (left right : Item) : Prop :=
  ∀ name, Option.Rel AttributeValue.Alike (left.get? name) (right.get? name)

theorem Item.alike_iff {left right : Item} :
    Item.Alike left right ↔
      left.mapEntries (fun _ value => value.canonical) =
        right.mapEntries fun _ value => value.canonical := by
  constructor
  · intro alike
    apply Ascending.ext_get?
    intro name
    rw [Ascending.get?_mapEntries, Ascending.get?_mapEntries]
    exact AttributeValue.rel_alike_iff.1 (alike name)
  · intro same name
    have values := congrArg (fun item => Ascending.get? item name) same
    simp only [Ascending.get?_mapEntries] at values
    exact AttributeValue.rel_alike_iff.2 values

end ItemSeal
