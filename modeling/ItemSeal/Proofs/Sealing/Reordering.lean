import ItemSeal.Proofs.Sealing.Acceptance
import ItemSeal.Proofs.Sealing.FixedKeys
import ItemSeal.Proofs.Signing.CoveredItems

/-!
Stored items of which sets have their members in another order. A store does not keep the order of
set members, so an item must be unsealed whatever order they come back in. What is signed is the
canonical form of a value, in the context as among the attributes, and so the bytes under the
signature are the same (`Item.covered_eq_of_alike`); what is encrypted comes back as its bytes,
which keep the order. `Item.unsealWith_reordered` says what is unsealed.
-/

namespace ItemSeal

theorem AttributeValue.Alike.refl (value : AttributeValue) : value.Alike value :=
  alike_iff.2 rfl

namespace Item

/-! ## Alike items -/

section Alike

variable {left right : Item}

theorem Alike.mem_names_iff (alike : Item.Alike left right) {name : String} :
    name ∈ left.names ↔ name ∈ right.names := by
  rw [Ascending.mem_names_iff, Ascending.mem_names_iff]
  have rel := alike name
  generalize left.get? name = before, right.get? name = after at rel
  cases rel <;> simp

theorem Alike.withoutSeal (alike : Item.Alike left right) :
    Item.Alike left.withoutSeal right.withoutSeal := by
  intro name
  rw [get?_withoutSeal_eq_ite, get?_withoutSeal_eq_ite]
  split
  · exact .none
  · exact alike name

/-- Alike items are signed alike under any policy. -/
theorem Alike.signed (alike : Item.Alike left right) (policy : ActionPolicy) :
    SignedAlike policy left policy right := by
  intro name
  unfold signed?
  split
  · exact .none
  · have rel := alike name
    generalize left.get? name = before, right.get? name = after at rel
    cases rel with
    | none => exact .none
    | some values => exact .some ⟨rfl, rfl, values⟩

/-- Alike items are bound to alike values. -/
theorem Alike.bind (alike : Item.Alike left right) (context : EncryptionContext) :
    Item.Alike (context.bind left).attributes (context.bind right).attributes := by
  intro name
  rw [EncryptionContext.get?_attributes_bind, EncryptionContext.get?_attributes_bind]
  have unbound : Option.Rel AttributeValue.Alike
      (context.attributes.get? name) (context.attributes.get? name) := by
    cases context.attributes.get? name with
    | none => exact .none
    | some value => exact .some (.refl value)
  split
  · have rel := alike name
    generalize left.get? name = before, right.get? name = after at rel
    cases rel with
    | none => exact unbound
    | some values => exact .some values
  · exact unbound

/-- Alike items have the same bytes under a signature. -/
theorem covered_eq_of_alike (alike : Item.Alike left right) (policy : ActionPolicy)
    (context : EncryptionContext) (description : MaterialDescription) :
    covered policy { context.bind left with description } left =
      covered policy { context.bind right with description } right := by
  rw [covered, covered]
  exact congrArg _ (Coverage.bytes_ofItem_congr rfl (alike.bind context) rfl
    (alike.signed policy))

end Alike

/-! ## Encrypted attributes -/

/-- Where the encrypted attributes are those of another item, they are changed to the same. -/
theorem exists_changeEncrypted_of_agree {policy : ActionPolicy}
    {change : String → AttributeValue → Except Error AttributeValue} {left right changed : Item}
    (changes : changeEncrypted policy change left = .ok changed)
    (agree : ∀ name, policy.action name = .encryptAndSign → right.get? name = left.get? name) :
    ∃ other, changeEncrypted policy change right = .ok other ∧
      ∀ name, policy.action name = .encryptAndSign → other.get? name = changed.get? name := by
  have succeeds : ∃ other, changeEncrypted policy change right = .ok other := by
    refine Ascending.exists_mapEntriesM_eq_ok_iff.2 fun entry member => ?_
    by_cases encrypted : policy.action entry.1 = .encryptAndSign
    · have found := Ascending.mem_toList_iff.1 member
      rw [agree _ encrypted] at found
      exact Ascending.exists_mapEntriesM_eq_ok_iff.1 ⟨changed, changes⟩ entry
        (Ascending.mem_toList_iff.2 found)
    · exact ⟨entry.2, if_neg encrypted⟩
  obtain ⟨other, changesOther⟩ := succeeds
  refine ⟨other, changesOther, fun name encrypted => ?_⟩
  have rel := Ascending.get?_mapEntriesM changesOther name
  rw [agree name encrypted] at rel
  exact Ascending.eq_of_changes rel (Ascending.get?_mapEntriesM changes name)

/-! ## Reordered items -/

/-- The other item is the stored one, but that sets may have their members in another order, at
any depth, outside of the seal and of what is encrypted. Nulls may also have other flags there. -/
structure Reordered (policy : ActionPolicy) (stored other : Item) : Prop where
  alike : Item.Alike stored other
  kept : ∀ name, isReserved name = true ∨ policy.action name = .encryptAndSign →
    other.get? name = stored.get? name

theorem Reordered.get?_withoutSeal_of_encrypted {policy : ActionPolicy} {stored other : Item}
    (reordered : Reordered policy stored other) (name : String)
    (encrypted : policy.action name = .encryptAndSign) :
    other.withoutSeal.get? name = stored.withoutSeal.get? name := by
  rw [get?_withoutSeal_eq_ite, get?_withoutSeal_eq_ite, reordered.kept name (.inr encrypted)]

section Reordered

variable {σ : Type} {keys : RawKeys} {config : SealConfig σ} {nonces : ItemNonces}
  {item stored other : Item} {world after : σ}

/-- A sealed item that was reordered is unsealed, with the encrypted values as if it was not. -/
theorem exists_unsealed_of_reordered (fixed : config.provider = .ofKeys keys)
    (readable : config.KeysReadable)
    (sealed : (sealWith config nonces item).runFrom world = (.ok stored, after))
    (reordered : Reordered config.policy stored other) (later : σ) :
    ∃ result, (unsealWith config other).runFrom later = (.ok result, later) ∧
      ∀ name, config.policy.action name = .encryptAndSign →
        result.get? name = (item.settledUnder config.policy).get? name := by
  have keepsSeal : ∀ {name}, isReserved name = true → other.get? name = stored.get? name :=
    fun reserved => reordered.kept _ (.inl reserved)
  cases protects : config.policy.protectsNothing with
  | true =>
      obtain ⟨noDescription, noSignature, -⟩ :=
        sealFault?_eq_none_iff.1 (sealWith_eq_ok_iff.1 sealed).1
      rw [← eq_of_protectsNothing protects sealed] at noDescription noSignature
      rw [unsealWith_of_unsealed ((keepsSeal rfl).trans noDescription)
        ((keepsSeal rfl).trans noSignature), protects]
      refine ⟨other, rfl, fun name encrypted => ?_⟩
      rw [ActionPolicy.action_of_protectsNothing protects] at encrypted
      cases encrypted
  | false =>
      obtain ⟨materials, hidden, bytes, handedOut, hides, covers, rfl, taken⟩ :=
        exists_hidden_of_sealWith protects sealed
      rw [fixed] at handedOut
      cases handedOut
      have described := (keepsSeal rfl).trans get?_description_withSeal
      have signed := (keepsSeal rfl).trans get?_signature_withSeal
      have alike := reordered.alike.withoutSeal
      have agree := reordered.get?_withoutSeal_of_encrypted
      rw [taken] at alike agree
      obtain ⟨result, reveals, same⟩ :=
        exists_changeEncrypted_of_agree (changeEncrypted_reveal_of_hide hides) agree
      rw [← bind_hidden readable hides, covered_eq_of_alike alike] at covers
      refine ⟨result, ?_, same⟩
      rw [runFrom_unsealWith described signed (MaterialDescription.ofText?_text _), fixed]
      exact congrArg (·, later) (unsealUnder_of_signature covers reveals)

/-- Under fixed keys, and while no key is encrypted, a sealed item is unsealed in whatever order
the sets that are not encrypted have their members, however deep inside: keys, signed values and
values left alone are as they are found, and encrypted ones as from the item as it was stored,
with their sets in the order that they were given in. -/
theorem unsealWith_reordered (fixed : config.provider = .ofKeys keys)
    (readable : config.KeysReadable)
    (sealed : (sealWith config nonces item).runFrom world = (.ok stored, after))
    (reordered : Reordered config.policy stored other) (later : σ) :
    ∃ original result, (unsealWith config stored).runFrom later = (.ok original, later) ∧
      (unsealWith config other).runFrom later = (.ok result, later) ∧
      (∀ name, name ∈ result.names ↔ name ∈ item.names) ∧
      (∀ name, isReserved name = false → config.policy.action name ≠ .encryptAndSign →
        result.get? name = other.get? name) ∧
      ∀ name, config.policy.action name = .encryptAndSign →
        result.get? name = original.get? name ∧
          result.get? name = (item.get? name).map AttributeValue.settled := by
  have original := SealOf.unseals ⟨nonces, world, after, sealed⟩ fixed readable later
  obtain ⟨result, unseals, same⟩ :=
    exists_unsealed_of_reordered fixed readable sealed reordered later
  obtain ⟨names, values⟩ := kept_of_unsealed unseals
  refine ⟨_, result, original, unseals, fun name => ?_, values,
    fun name encrypted => ⟨same name encrypted, ?_⟩⟩
  · rw [names, ← reordered.alike.mem_names_iff, ← (kept_of_unsealed original).1,
      names_settledUnder]
  · rw [same name encrypted, get?_settledUnder]
    simp only [encrypted, if_true]

end Reordered

namespace SampleOrder

/-- An order with a set for its number, one inside its status and one among what is encrypted. -/
def listed : Item :=
  NameMap.ofList [("OrderId", .stringSet ["b", "a"]), ("Lines", .stringSet ["pen", "ink"]),
    ("Status", .list [.numberSet ["2", "1"]])]

theorem exists_sealed_listed :
    ∃ stored, (sealWith config nonces listed).runFrom () = (.ok stored, ()) := by
  have values : listed.values =
      [.stringSet ["pen", "ink"], .stringSet ["b", "a"], .list [.numberSet ["2", "1"]]] := rfl
  have compact : ∀ value ∈ listed.values, value.Compact := by
    simp only [values, List.forall_mem_cons]
    refine ⟨?_, ?_, ?_, by simp⟩ <;> intro tree encodes <;> cases encodes <;> decide
  have known : ∀ value ∈ listed.values, .unknown ∉ value.parts := by decide
  have seals : ∃ stored,
      sealUnder config.policy (config.context.bind listed) keys.materials nonces listed =
        .ok stored :=
    (exists_sealUnder_iff fun value written => compact value (written.mem_values rfl)).2
      fun value written => known value (written.mem_values rfl)
  obtain ⟨stored, seals⟩ := seals
  exact ⟨stored, sealWith_eq_ok_iff.2 ⟨by decide, .inr ⟨rfl, keys.materials, rfl, seals⟩⟩⟩

/-- The item with the two sets that are not encrypted in another order. -/
def turned (stored : Item) : Item :=
  NameMap.insert (NameMap.insert stored "OrderId" (.stringSet ["a", "b"])) "Status"
    (.list [.numberSet ["1", "2"]])

theorem reordered_turned {stored : Item}
    (number : stored.get? "OrderId" = some (.stringSet ["b", "a"]))
    (status : stored.get? "Status" = some (.list [.numberSet ["2", "1"]])) :
    Reordered config.policy stored (turned stored) := by
  refine ⟨fun name => ?_, fun name fixed => ?_⟩
  · rw [turned, NameMap.get?_insert, NameMap.get?_insert]
    split
    · next here =>
        rw [← here, status]
        have swapped : ["2", "1"].Perm ["1", "2"] := by decide
        exact .some ⟨swapped, trivial⟩
    · split
      · next here =>
          rw [← here, number]
          have swapped : ["b", "a"].Perm ["a", "b"] := by decide
          exact .some swapped
      · cases stored.get? name with
        | none => exact .none
        | some value => exact .some (.refl value)
  · have notNumber : name ≠ "OrderId" := by
      rintro rfl
      revert fixed
      decide
    have notStatus : name ≠ "Status" := by
      rintro rfl
      revert fixed
      decide
    rw [turned, NameMap.get?_insert_of_ne _ _ notStatus, NameMap.get?_insert_of_ne _ _ notNumber]

end SampleOrder

open SampleOrder in
theorem unsealWith_reordered_listed :
    ∃ stored result, (sealWith config nonces listed).runFrom () = (.ok stored, ()) ∧
      (unsealWith config (turned stored)).runFrom () = (.ok result, ()) ∧
      result.get? "OrderId" = some (.stringSet ["a", "b"]) ∧
      result.get? "Status" = some (.list [.numberSet ["1", "2"]]) ∧
      result.get? "Lines" = some (.stringSet ["pen", "ink"]) := by
  obtain ⟨stored, sealed⟩ := exists_sealed_listed
  have number : stored.get? "OrderId" = some (.stringSet ["b", "a"]) :=
    get?_sealed_of_ne sealed rfl (by decide)
  have status : stored.get? "Status" = some (.list [.numberSet ["2", "1"]]) :=
    get?_sealed_of_ne sealed rfl (by decide)
  have readable : config.KeysReadable := by
    unfold SealConfig.KeysReadable
    decide
  obtain ⟨original, result, -, unseals, -, found, encrypted⟩ :=
    unsealWith_reordered rfl readable sealed (reordered_turned number status) ()
  refine ⟨stored, result, sealed, unseals, ?_, ?_, (encrypted "Lines" (by decide)).2⟩
  · rw [found "OrderId" (by decide) (by decide), turned,
      NameMap.get?_insert_of_ne _ _ (by decide), NameMap.get?_insert_self]
  · rw [found "Status" (by decide) (by decide), turned, NameMap.get?_insert_self]

end Item

end ItemSeal
