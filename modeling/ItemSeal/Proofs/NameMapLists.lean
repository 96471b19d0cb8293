import ItemSeal.Proofs.NameMapViews
import Mathlib.Data.List.Forall2
import Mathlib.Data.List.Nodup
import Mathlib.Data.List.Perm.Subperm

/-!
Maps that are made from lists of entries. A list holds the entries of its map, and others that
they overwrite exactly if some name is repeated (`NameMap.exists_overwritten`); without such names
the map has the entries of the list (`NameMap.get?_ofList_eq_some_iff`).
-/

namespace ItemSeal

namespace NameMap

variable {α β ε : Type}

/-- Putting a value into a map and its change into the changed map comes to the same. -/
theorem mapEntriesM_insert {f : String → α → Except ε β} {map : NameMap α} {result : NameMap β}
    (changes : map.mapEntriesM f = .ok result) {name : String} {value : α} {newValue : β}
    (changed : f name value = .ok newValue) :
    (insert map name value).mapEntriesM f = .ok (insert result name newValue) := by
  refine Ascending.mapEntriesM_eq_ok_iff.2 fun key => ?_
  rw [get?_insert, get?_insert]
  split
  · next same => exact .some (same ▸ changed)
  · exact Ascending.get?_mapEntriesM changes key

/-- Entries that are changed one by one make the changed map. -/
theorem mapEntriesM_ofList {f : String → α → Except ε β} {entries : List (String × α)}
    {changed : List (String × β)}
    (each : List.Forall₂
      (fun before after => before.1 = after.1 ∧ f before.1 before.2 = .ok after.2)
      entries changed) :
    (ofList entries).mapEntriesM f = .ok (ofList changed) := by
  have folded : ∀ {map : NameMap α} {result : NameMap β}, map.mapEntriesM f = .ok result →
      (entries.foldl (fun built entry => insert built entry.1 entry.2) map).mapEntriesM f =
        .ok (changed.foldl (fun built entry => insert built entry.1 entry.2) result) := by
    induction each with
    | nil => exact id
    | cons first _ ih =>
        intro map result changes
        obtain ⟨sameName, changed⟩ := first
        refine ih ?_
        dsimp only
        rw [← sameName]
        exact mapEntriesM_insert changes changed
  exact folded rfl

theorem mem_of_mem_ofList {entries : List (String × α)} {entry : String × α}
    (member : entry ∈ (ofList entries).toList) : entry ∈ entries := by
  have folded : ∀ map : NameMap α,
      entry ∈ (entries.foldl (fun built entry => insert built entry.1 entry.2) map).toList →
        entry ∈ entries ∨ entry ∈ map.toList := by
    clear member
    induction entries with
    | nil => exact fun map member => .inr member
    | cons first rest ih =>
        intro map member
        rcases ih _ member with later | inserted
        · exact .inl (List.mem_cons_of_mem _ later)
        · rw [Ascending.mem_toList_iff, get?_insert] at inserted
          split at inserted
          · next same =>
              have whole : entry = first := Prod.ext same.symm (Option.some.inj inserted).symm
              exact .inl (whole ▸ List.mem_cons_self)
          · exact .inr (Ascending.mem_toList_iff.2 inserted)
  rcases folded _ member with here | inEmpty
  · exact here
  · cases inEmpty

theorem nodup_names (map : NameMap α) : (map.toList.map (·.1)).Nodup :=
  List.pairwise_map.2 ((Ascending.pairwise_toList map).imp fun before => String.ne_of_lt before)

/-- A list of entries holds those of its map, and others that they overwrite exactly if
some name is repeated. -/
theorem exists_overwritten (entries : List (String × α)) :
    ∃ overwritten, entries.Perm ((ofList entries).toList ++ overwritten) ∧
      (overwritten = [] ↔ (entries.map (·.1)).Nodup) := by
  have distinct := List.Nodup.of_map _ (nodup_names (ofList entries))
  obtain ⟨kept, samePerm, sublist⟩ :=
    List.subperm_of_subset distinct fun _ member => mem_of_mem_ofList member
  obtain ⟨overwritten, perm⟩ := sublist.exists_perm_append
  have whole : entries.Perm ((ofList entries).toList ++ overwritten) :=
    perm.trans (samePerm.append_right _)
  have names := (whole.map (·.1)).nodup_iff
  refine ⟨overwritten, whole, ?_, ?_⟩
  · rintro rfl
    rw [names, List.append_nil]
    exact nodup_names _
  · intro nodup
    rw [names, List.map_append, List.nodup_append] at nodup
    refine List.eq_nil_iff_forall_not_mem.2 fun entry member => ?_
    have inNames : entry.1 ∈ (ofList entries).names :=
      mem_names_ofList.2 (List.mem_map_of_mem (whole.mem_iff.2 (List.mem_append_right _ member)))
    exact nodup.2.2 _ inNames _ (List.mem_map_of_mem member) rfl

/-- A list without repeated names makes a map of all its entries. -/
theorem perm_toList_ofList {entries : List (String × α)} (distinct : (entries.map (·.1)).Nodup) :
    (ofList entries).toList.Perm entries := by
  obtain ⟨overwritten, perm, noneOverwritten⟩ := exists_overwritten entries
  rw [noneOverwritten.2 distinct, List.append_nil] at perm
  exact perm.symm

/-- In the map of such a list each name has its value in the list. -/
theorem get?_ofList_eq_some_iff {entries : List (String × α)}
    (distinct : (entries.map (·.1)).Nodup) {name : String}
    {value : α} : (ofList entries).get? name = some value ↔ (name, value) ∈ entries := by
  rw [← Ascending.mem_toList_iff, (perm_toList_ofList distinct).mem_iff]

/-- Entries in the order of their names are those of a map. -/
theorem exists_toList_eq {entries : List (String × α)} {bound : Option String}
    (follow : ∀ entry ∈ entries, Follows bound entry.1)
    (ascend : entries.Pairwise fun before after => before.1 < after.1) :
    ∃ map : Ascending α bound, map.toList = entries := by
  induction entries generalizing bound with
  | nil => exact ⟨.nil, rfl⟩
  | cons first rest ih =>
      obtain ⟨before, others⟩ := List.pairwise_cons.1 ascend
      have behind : ∃ map : Ascending α (some first.1), map.toList = rest := ih before others
      obtain ⟨map, same⟩ := behind
      exact ⟨.cons first.1 (follow first List.mem_cons_self) first.2 map, by
        rw [Ascending.toList, same]⟩

/-- The entries of a list's map are another list of entries with the same names exactly if that
ascends and the two lists are one. -/
theorem toList_ofList_eq_iff {entries others : List (String × α)}
    (sameNames : entries.map (·.1) = others.map (·.1)) :
    (ofList entries).toList = others ↔
      (others.map (·.1)).Pairwise (· < ·) ∧ entries = others := by
  have back : (entries.map (·.1)).Pairwise (· < ·) → (ofList entries).toList = entries := by
    intro ascend
    have built : ∃ map : NameMap α, map.toList = entries :=
      exists_toList_eq (fun _ _ => trivial) (List.pairwise_map.1 ascend)
    obtain ⟨map, same⟩ := built
    rw [← same, ofList_toList]
  constructor
  · intro same
    have ascend : (others.map (·.1)).Pairwise (· < ·) :=
      List.pairwise_map.2 (same ▸ Ascending.pairwise_toList (ofList entries))
    exact ⟨ascend, (back (sameNames ▸ ascend)).symm.trans same⟩
  · rintro ⟨ascend, rfl⟩
    exact back ascend

end NameMap

end ItemSeal
