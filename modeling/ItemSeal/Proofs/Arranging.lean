import ItemSeal.Arrangement
import ItemSeal.Proofs.NameMapLists

/-!
Whatever the arrangement, all entries of a map are gone through and each of them once
(`NameMap.arranged_perm`), so the map that is collected from new values has the same names, and
under each of them its new value (`NameMap.names_ofList_arranged`,
`NameMap.get?_ofList_arranged`).
-/

namespace ItemSeal.NameMap

variable {α β : Type} {arrangement : Arrangement} {map : NameMap α}

/-- All entries come up, each of them once. -/
theorem arranged_perm (arrangement : Arrangement) (map : NameMap α) :
    (map.arranged arrangement).Perm map.toList := by
  have each : ∀ entry ∈ map.toList, (map.get? entry.1).map (entry.1, ·) = some entry := by
    intro entry member
    rw [Ascending.mem_toList_iff.1 member]
    rfl
  have byName : map.names.filterMap (fun name => (map.get? name).map (name, ·)) = map.toList := by
    rw [Ascending.names, List.filterMap_map]
    exact (List.filterMap_congr each).trans List.filterMap_some
  rw [← byName]
  exact (arrangement.perm map.names).filterMap _

theorem mem_arranged_iff {name : String} {a : α} :
    (name, a) ∈ map.arranged arrangement ↔ map.get? name = some a := by
  rw [(arranged_perm arrangement map).mem_iff, Ascending.mem_toList_iff]

theorem nodup_arranged (arrangement : Arrangement) (map : NameMap α) :
    ((map.arranged arrangement).map (·.1)).Nodup :=
  ((arranged_perm arrangement map).map _).nodup_iff.2 (nodup_names map)

section Collecting

variable {changed : List (String × β)}

/-- New values for all entries, as they are arranged, make a map with the same names. -/
theorem names_ofList_arranged
    (sameNames : changed.map (·.1) = (map.arranged arrangement).map (·.1)) :
    (ofList changed).names = map.names := by
  have distinct : (changed.map (·.1)).Nodup := sameNames ▸ nodup_arranged arrangement map
  have names : (ofList changed).names.Perm map.names := by
    refine ((perm_toList_ofList distinct).map _).trans ?_
    rw [sameNames]
    exact (arranged_perm arrangement map).map _
  have ascends : ∀ {γ : Type} (map : NameMap γ), map.names.Pairwise (· < ·) := fun map =>
    List.pairwise_map.2 (Ascending.pairwise_toList map)
  refine List.Perm.eq_of_pairwise ?_ (ascends _) (ascends _) names
  intro name other _ _ before after
  exact absurd before (String.lt_asymm after)

/-- Under each name it has the new value. -/
theorem get?_ofList_arranged {name : String} {b : β}
    (sameNames : changed.map (·.1) = (map.arranged arrangement).map (·.1)) :
    (ofList changed).get? name = some b ↔ (name, b) ∈ changed :=
  get?_ofList_eq_some_iff (sameNames ▸ nodup_arranged arrangement map)

/-- Values changed as arranged are those that are changed in place. -/
theorem ofList_arranged_map (f : String → α → β) :
    ofList ((map.arranged arrangement).map fun entry => (entry.1, f entry.1 entry.2)) =
      map.mapEntries f := by
  have sameNames :
      ((map.arranged arrangement).map fun entry => (entry.1, f entry.1 entry.2)).map (·.1) =
        (map.arranged arrangement).map (·.1) := by
    rw [List.map_map]
    rfl
  apply Ascending.ext_get?
  intro name
  rw [Ascending.get?_mapEntries]
  apply Option.ext
  intro b
  rw [get?_ofList_arranged sameNames, List.mem_map, Option.map_eq_some_iff]
  constructor
  · rintro ⟨⟨name, a⟩, member, same⟩
    cases same
    exact ⟨a, mem_arranged_iff.1 member, rfl⟩
  · rintro ⟨a, found, rfl⟩
    exact ⟨(name, a), mem_arranged_iff.2 found, rfl⟩

end Collecting

end ItemSeal.NameMap
