import ItemSeal.ItemEdit
import ItemSeal.Proofs.Sealing.FixedKeys
import ItemSeal.Proofs.Sealing.Unsigned
import ItemSeal.Proofs.Signing.CoveredItems

/-!
Edits of what is left alone. An attribute that a policy leaves alone, and that is neither a key
nor part of the seal, is not read when an item is unsealed: binding, the look for keys, the
signature and the change of the encrypted attributes each give the same for an item and for one in
which it has another value, or none. `Item.unsealWith_put` says that unsealing and such an edit
may change places, whatever the item is, and what unsealing leaves as it was.
-/

namespace ItemSeal

open ItemEdit (put)

/-! ## Edits -/

variable {item : Item} {name : String} {value? : Option AttributeValue}

theorem ItemEdit.get?_put (item : Item) (name : String) (value? : Option AttributeValue)
    (key : String) :
    (put item name value?).get? key = if name = key then value? else item.get? key := by
  cases value? with
  | none => exact NameMap.get?_erase item name key
  | some value => exact NameMap.get?_insert item name key value

theorem ItemEdit.get?_put_of_ne {key : String} (different : key ≠ name) :
    (put item name value?).get? key = item.get? key := by
  rw [get?_put, if_neg (Ne.symm different)]

/-- Without the edited name an item is what it was without it. -/
theorem ItemEdit.erase_put (item : Item) (name : String) (value? : Option AttributeValue) :
    (put item name value?).erase name = item.erase name := by
  apply Ascending.ext_get?
  intro key
  rw [NameMap.get?_erase, NameMap.get?_erase, get?_put]
  split <;> rfl

/-- An item is bound to its keys, and not to what is put under another name. -/
theorem EncryptionContext.bind_put {context : EncryptionContext}
    (notKey : name ∉ context.keyNames) :
    context.bind (put item name value?) = context.bind item := by
  refine bind_congr fun key isKey => ItemEdit.get?_put_of_ne ?_
  rintro rfl
  exact notKey isKey

namespace Item

theorem withoutSeal_put (unreserved : isReserved name = false) :
    (put item name value?).withoutSeal = put item.withoutSeal name value? := by
  apply Ascending.ext_get?
  intro key
  rw [ItemEdit.get?_put, get?_withoutSeal_eq_ite, get?_withoutSeal_eq_ite, ItemEdit.get?_put]
  split
  · next reserved => rw [if_neg (ne_of_reserved reserved unreserved).symm]
  · rfl

/-! ## What does not read them -/

variable {policy : ActionPolicy}

theorem covered_put (alone : policy.action name = .doNothing) (context : EncryptionContext) :
    covered policy context (put item name value?) = covered policy context item := by
  have signed : Coverage.signedAttributes policy (put item name value?) =
      Coverage.signedAttributes policy item := by
    refine Coverage.signedAttributes_congr fun key acts => ItemEdit.get?_put_of_ne ?_
    rintro rfl
    exact acts alone
  rw [covered, covered, Coverage.ofItem, Coverage.ofItem, signed]

theorem checkSignature_put (alone : policy.action name = .doNothing) (context : EncryptionContext)
    (key : Key) (signature : Bytes) :
    checkSignature policy context key signature (put item name value?) =
      checkSignature policy context key signature item := by
  rw [checkSignature, checkSignature, covered_put alone]

/-- The change of what is encrypted and an edit of what is not may change places, also
where the change fails. -/
theorem changeEncrypted_put (isOpen : policy.action name ≠ .encryptAndSign)
    (change : String → AttributeValue → Except Error AttributeValue) :
    changeEncrypted policy change (put item name value?) =
      (changeEncrypted policy change item).map (put · name value?) := by
  have keeps : ∀ value,
      (if policy.action name = .encryptAndSign then change name value else .ok value) =
        .ok value := fun value => if_neg isOpen
  cases changes : changeEncrypted policy change item with
  | error failure =>
      -- The entry that fails is another one, so both items fail as they do
      -- without the edited name.
      have unfailing : ∀ value, ∃ newValue,
          (if policy.action name = .encryptAndSign then change name value else .ok value) =
            .ok newValue :=
        fun value => ⟨value, keeps value⟩
      have without := (Ascending.mapEntriesM_erase_eq_error_iff unfailing).2 changes
      rw [← ItemEdit.erase_put item name value?] at without
      exact (Ascending.mapEntriesM_erase_eq_error_iff unfailing).1 without
  | ok changed =>
      refine Ascending.mapEntriesM_eq_ok_iff.2 fun key => ?_
      rw [ItemEdit.get?_put, ItemEdit.get?_put]
      by_cases here : name = key
      · subst here
        rw [if_pos rfl, if_pos rfl]
        cases value? with
        | none => exact .none
        | some value => exact .some (keeps value)
      · rw [if_neg here, if_neg here]
        exact Ascending.get?_mapEntriesM changes key

theorem unsealUnder_put (alone : policy.action name = .doNothing) (context : EncryptionContext)
    (materials : KeyMaterials) (signature : Bytes) :
    unsealUnder policy context materials signature (put item name value?) =
      (unsealUnder policy context materials signature item).map (put · name value?) := by
  have isOpen : policy.action name ≠ .encryptAndSign := by
    rw [alone]
    exact Action.noConfusion
  rw [unsealUnder, unsealUnder, checkSignature_put alone, changeEncrypted_put isOpen]
  cases checkSignature policy context materials.signing signature item <;> rfl

/-! ## Unsealing -/

/-- Unsealing an item with the edit comes to what unsealing the item does, with the edit. -/
theorem runFrom_unsealWith_put {σ : Type} {config : SealConfig σ}
    (unreserved : isReserved name = false) (notKey : name ∉ config.context.keyNames)
    (alone : config.policy.action name = .doNothing) (world : σ) :
    (unsealWith config (put item name value?)).runFrom world =
      (((unsealWith config item).runFrom world).1.map (put · name value?),
        ((unsealWith config item).runFrom world).2) := by
  obtain ⟨notDescription, notSignature⟩ := ne_of_unreserved unreserved
  have description : (put item name value?).get? descriptionName = item.get? descriptionName :=
    ItemEdit.get?_put_of_ne notDescription.symm
  have signature : (put item name value?).get? signatureName = item.get? signatureName :=
    ItemEdit.get?_put_of_ne notSignature.symm
  by_cases carries : item.CarriesSeal
  · obtain ⟨text, tag, described, signed⟩ := carries
    cases reads : MaterialDescription.ofText? text with
    | none =>
        unfold unsealWith
        rw [description, signature, described, signed]
        simp only [reads]
        rfl
    | some read =>
        rw [runFrom_unsealWith (description.trans described) (signature.trans signed) reads,
          runFrom_unsealWith described signed reads, withoutSeal_put unreserved,
            EncryptionContext.bind_put notKey]
        generalize (config.provider.decryptionMaterials _ _).runFrom world = looked
        rcases looked with ⟨failure | materials, after⟩
        · rfl
        · exact congrArg (·, after) (unsealUnder_put alone _ materials tag)
  · have stillNot : ¬ (put item name value?).CarriesSeal := by
      rw [CarriesSeal, description, signature]
      exact carries
    rw [unsealWith_eq_of_not_carriesSeal config stillNot,
      unsealWith_eq_of_not_carriesSeal config carries, description, signature]
    split
    · split <;> rfl
    · rfl

/-- What is left alone is no part of what unsealing an item depends on, be the item valid or not.
If a name is neither reserved nor a key and the policy leaves it alone, then with any value under
the name, or none, the item is unsealed exactly if it is as it stands, with the same edit in what
it gives and the same error where it fails, and the same is done to the world. Whatever is
unsealed keeps its names but for the seal, and every value that is not encrypted. -/
theorem unsealWith_put {σ : Type} (config : SealConfig σ) :
    (∀ (name : String) (value? : Option AttributeValue), isReserved name = false →
      name ∉ config.context.keyNames →
      config.policy.action name = .doNothing → ∀ (item : Item) (world : σ),
        (unsealWith config (put item name value?)).runFrom world =
          (((unsealWith config item).runFrom world).1.map (put · name value?),
            ((unsealWith config item).runFrom world).2)) ∧
    ∀ (item result : Item) (world after : σ),
      (unsealWith config item).runFrom world = (.ok result, after) →
      (∀ name, name ∈ result.names ↔ name ∈ item.names ∧ isReserved name = false) ∧
      ∀ name, isReserved name = false → config.policy.action name ≠ .encryptAndSign →
        result.get? name = item.get? name :=
  ⟨fun _ _ unreserved notKey alone _ world =>
    runFrom_unsealWith_put unreserved notKey alone world, fun _ _ _ _ => kept_of_unsealed⟩

namespace SampleOrder

/-- The orders of which a note is left alone. -/
def notedConfig : SealConfig Unit :=
  { config with policy := config.policy.withAction "Note" .doNothing }

def noted : Item := NameMap.insert order "Note" (.string "a gift")

end SampleOrder

open SampleOrder in
/-- The note of a sealed order is replaced by a value that could not be signed, and taken from one
without its signature. -/
theorem unsealWith_put_noted :
    ∃ stored result, (sealWith notedConfig nonces noted).runFrom () = (.ok stored, ()) ∧
      (unsealWith notedConfig stored).runFrom () = (.ok result, ()) ∧
      result.get? "Status" = some (.string "shipped") ∧
      (unsealWith notedConfig (put stored "Note" (some .unknown))).runFrom () =
        (.ok (put result "Note" (some .unknown)), ()) ∧
      (unsealWith notedConfig (put (stored.erase signatureName) "Note" none)).runFrom () =
        (.error .malformedSeal, ()) := by
  have sealed : ∃ stored, (sealWith notedConfig nonces noted).runFrom () = (.ok stored, ()) ∧
      stored.get? "Status" = some (.string "shipped") ∧
      (unsealWith notedConfig (stored.erase signatureName)).runFrom () =
        (.error .malformedSeal, ()) :=
    ⟨_, rfl, rfl, rfl⟩
  obtain ⟨stored, sealed, status, cut⟩ := sealed
  have readable : notedConfig.KeysReadable := by
    unfold SealConfig.KeysReadable
    decide
  have unsealed := SealOf.unseals ⟨nonces, (), (), sealed⟩ rfl readable ()
  obtain ⟨edits, keeps⟩ := unsealWith_put notedConfig
  have edited := fun value? => edits "Note" value? (by decide) (by decide) (by decide)
  obtain ⟨-, values⟩ := keeps _ _ _ _ unsealed
  refine ⟨stored, _, sealed, unsealed,
    (values "Status" (by decide) (by decide)).trans status, ?_, ?_⟩
  · rw [edited, unsealed]
    rfl
  · rw [edited, cut]
    rfl

end Item

end ItemSeal
