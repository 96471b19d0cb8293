import ItemSeal.Proofs.Sealing.RoundTrip
import ItemSeal.Proofs.Signing.MovedEntries

/-!
What a signature under fixed keys binds. An item that was changed after sealing and presents the
signed bytes again has the same signed attributes, and if it holds all keys of the table the same
keys and description. The keys themselves are not bound: the greatest one can be taken away and
put into the description, provided that its name stands before the provider's entry and its
canonical bytes are those of a text, and the outcome is unsealed (`Item.unsealWith_moveKey`).
`Item.tamperEvident_iff` says that there is no other way.
-/

namespace ItemSeal

open MaterialDescription (providerEntry rawProvider)

namespace Item

variable {σ : Type}

/-- Unsealing the item checks its signature against those bytes: its description reads as that
one, a provider of fixed keys accepts it, and under it the item covers the bytes. -/
def Presents (config : SealConfig σ) (stored : Item) (description : MaterialDescription)
    (bytes : Bytes) : Prop :=
  (∃ text, stored.get? descriptionName = some (.string text) ∧
      MaterialDescription.ofText? text = some description) ∧
    description.get? providerEntry = some rawProvider ∧
    covered config.policy { config.context.bind stored.withoutSeal with description }
      stored.withoutSeal = .ok bytes

/-- The other item is as it was sealed, as far as its signature is to tell. -/
structure SameSealed (config : SealConfig σ) (stored other : Item)
    (description : MaterialDescription) : Prop where
  description : description = .raw
  keys : ∀ key ∈ config.context.keyNames,
    Option.Rel AttributeValue.Alike (stored.get? key) (other.get? key)
  attributes : SignedAlike config.policy stored.withoutSeal config.policy other.withoutSeal

/-- Whatever presents the signed bytes is the sealed item. -/
def TamperEvident (config : SealConfig σ) (stored : Item) (bytes : Bytes) : Prop :=
  ∀ other description, other.Presents config description bytes →
    SameSealed config stored other description

/-- The greatest key of the item stands before the entry of the provider, and its canonical bytes
are those of the text. -/
structure KeyReadsAs (config : SealConfig σ) (stored : Item) (key text : String) : Prop where
  isKey : key ∈ config.context.keyNames
  greatest : ∀ other ∈ config.context.keyNames, other ≤ key
  before : key < providerEntry
  reads : ∃ value, stored.get? key = some value ∧
    value.serializeCanonical = .ok (Bytes.ofString text)

/-- The item with a key taken away and put into the description. -/
def moveKey (stored : Item) (key text : String) : Item :=
  NameMap.insert (stored.erase key) descriptionName
    (.string (MaterialDescription.rawWith key text).text)

/-! ## Items without their seals -/

theorem withoutSeal_moveKey {key : String} (text : String) (unreserved : isReserved key = false)
    (stored : Item) : (stored.moveKey key text).withoutSeal = stored.withoutSeal.erase key := by
  apply Ascending.ext_get?
  intro name
  cases reserved : isReserved name with
  | true =>
      have different := ne_of_reserved reserved unreserved
      rw [get?_withoutSeal_of_reserved reserved, Ascending.get?_erase_of_ne _ different,
        get?_withoutSeal_of_reserved reserved]
  | false =>
      rw [get?_withoutSeal reserved, moveKey,
        NameMap.get?_insert_of_ne _ _ (ne_of_unreserved reserved).1]
      by_cases here : name = key
      · subst here
        rw [Ascending.get?_erase_self, Ascending.get?_erase_self]
      · rw [Ascending.get?_erase_of_ne _ here, Ascending.get?_erase_of_ne _ here,
          get?_withoutSeal reserved]

/-! ## The keys of a table -/

section Tables

variable {keys : RawKeys} {policy : ActionPolicy} {schema : TableSchema} {config : SealConfig σ}

/-- Under a table's configuration an item is bound to its keys and nothing else. -/
theorem get?_bind_forTable {provider : MaterialsProvider σ}
    (built : SealConfig.forTable provider policy schema = .ok config) (item : Item)
    (name : String) :
    (config.context.bind item).attributes.get? name =
      if name ∈ config.context.keyNames then item.get? name else none := by
  obtain ⟨keys, -, rfl⟩ := SealConfig.forTable_eq_ok_iff.1 built
  rw [EncryptionContext.get?_attributes_bind]
  exact Option.or_none

theorem get?_bind_withoutSeal {provider : MaterialsProvider σ} {key : String}
    (built : SealConfig.forTable provider policy schema = .ok config)
    (isKey : key ∈ config.context.keyNames) (unreserved : isReserved key = false) (item : Item) :
    (config.context.bind item.withoutSeal).attributes.get? key = item.get? key := by
  rw [get?_bind_forTable built, if_pos isKey, get?_withoutSeal unreserved]

theorem mem_keyNames_of_mem_bind {provider : MaterialsProvider σ} {item : Item} {name : String}
    (built : SealConfig.forTable provider policy schema = .ok config)
    (bound : name ∈ (config.context.bind item).attributes.names) :
    name ∈ config.context.keyNames := by
  obtain ⟨value, found⟩ := Ascending.mem_names_iff.1 bound
  rw [get?_bind_forTable built] at found
  split at found
  · assumption
  · cases found

/-- An item without a key that it had is bound to what it was, without the key. -/
theorem attributes_bind_erase {provider : MaterialsProvider σ}
    (built : SealConfig.forTable provider policy schema = .ok config) (item : Item)
    (key : String) :
    (config.context.bind (item.erase key)).attributes =
      (config.context.bind item).attributes.erase key := by
  apply Ascending.ext_get?
  intro name
  rw [get?_bind_forTable built]
  by_cases here : name = key
  · subst here
    rw [Ascending.get?_erase_self, Ascending.get?_erase_self, ite_self]
  · rw [Ascending.get?_erase_of_ne _ here, Ascending.get?_erase_of_ne _ here,
      get?_bind_forTable built]

/-- A key is not signed as an attribute. -/
theorem signedAttributes_erase {key : String} (alone : policy.action key = .doNothing)
    (item : Item) :
    Coverage.signedAttributes policy (item.erase key) =
      Coverage.signedAttributes policy item := by
  refine Coverage.signedAttributes_congr fun name acts => Ascending.get?_erase_of_ne _ ?_
  rintro rfl
  exact acts alone

/-! ## Sealed and unsealed items -/

/-- What a sealing under fixed keys stores: the signed bytes are those that
the stored item presents. -/
theorem exists_presented_of_sealed {nonces : ItemNonces} {item stored : Item} {world after : σ}
    (built : SealConfig.forTable (.ofKeys keys) policy schema = .ok config)
    (protects : config.policy.protectsNothing = false)
    (sealed : (sealWith config nonces item).runFrom world = (.ok stored, after)) :
    ∃ bytes,
      stored.get? signatureName =
        some (.binary (signature keys.signing nonces.signature bytes)) ∧
      stored.Presents config .raw bytes ∧
      changeEncrypted config.policy (reveal keys.encryption) stored.withoutSeal =
        .ok (item.settledUnder config.policy) := by
  obtain ⟨materials, hidden, bytes, handedOut, hides, covers, rfl, taken⟩ :=
    exists_hidden_of_sealWith protects sealed
  have readable := SealConfig.keysReadable_forTable built
  obtain ⟨known, -, rfl⟩ := SealConfig.forTable_eq_ok_iff.1 built
  cases handedOut
  refine ⟨bytes, get?_signature_withSeal, ⟨⟨_, get?_description_withSeal, ?_⟩, rfl, ?_⟩, ?_⟩
  · exact MaterialDescription.ofText?_text _
  · rw [taken, bind_hidden readable hides]
    exact covers
  · rw [taken]
    exact changeEncrypted_reveal_of_hide hides

/-- All keys of a sealed item are there, under names that are not reserved. -/
theorem keys_of_sealed {nonces : ItemNonces} {item stored : Item} {world after : σ}
    (readable : config.KeysReadable)
    (sealed : (sealWith config nonces item).runFrom world = (.ok stored, after)) :
    ∀ key ∈ config.context.keyNames,
      isReserved key = false ∧ ∃ value, stored.get? key = some value := by
  intro key member
  obtain ⟨-, -, present⟩ := sealFault?_eq_none_iff.1 (sealWith_eq_ok_iff.1 sealed).1
  obtain ⟨value, found⟩ := present key member
  exact ⟨isReserved_of_sealed sealed found, value,
    get?_sealed_of_ne sealed found (readable key member)⟩

/-- What is unsealed under fixed keys presents bytes for which its signature verifies. -/
theorem presents_of_unsealed {other result : Item} {nonce : Nonce} {bytes : Bytes}
    {later last : σ} (built : SealConfig.forTable (.ofKeys keys) policy schema = .ok config)
    (protects : config.policy.protectsNothing = false)
    (unseals : (unsealWith config other).runFrom later = (.ok result, last))
    (signed : other.get? signatureName = some (.binary (signature keys.signing nonce bytes))) :
    ∃ description presented, other.Presents config description presented ∧
      Gcm.encrypt keys.signing nonce [] presented = Gcm.encrypt keys.signing nonce [] bytes := by
  obtain ⟨nothing, -⟩ | ⟨text, signature', description, materials, described, signed', reads,
      found, checks, -⟩ :=
    unsealWith_eq_ok unseals
  · rw [protects] at nothing
    cases nothing
  cases signed.symm.trans signed'
  obtain ⟨nonce', tag, presented, split, covers, verified⟩ := checkSignature_eq_ok checks
  rw [signature, Nonce.split?_append] at split
  cases split
  obtain ⟨known, -, rfl⟩ := SealConfig.forTable_eq_ok_iff.1 built
  -- The provider gives its keys out only for a description that it accepts.
  have accepted :
      description.get? providerEntry = some rawProvider ∧ materials = keys.materials := by
    simp only [MaterialsProvider.ofKeys] at found
    split at found
    · next accepted =>
        cases found
        exact ⟨accepted, rfl⟩
    · cases found
  obtain ⟨accepted, rfl⟩ := accepted
  exact ⟨description, presented, ⟨⟨text, described, reads⟩, accepted, covers⟩,
    encrypt_eq_of_verifies verified⟩

/-! ## Moving a key -/

/-- What presents the signed bytes has the same signed attributes. It is the sealed item, or it
lacks the greatest key, which its description can have taken over. -/
theorem sameSealed_or_moved {stored other : Item} {description : MaterialDescription}
    {bytes : Bytes} (built : SealConfig.forTable (.ofKeys keys) policy schema = .ok config)
    (keysHeld : ∀ key ∈ config.context.keyNames,
      isReserved key = false ∧ ∃ value, stored.get? key = some value)
    (short : bytes.length < 2 ^ 56) (signed : stored.Presents config .raw bytes)
    (presented : other.Presents config description bytes) :
    SignedAlike config.policy stored.withoutSeal config.policy other.withoutSeal ∧
      (SameSealed config stored other description ∨
        ∃ key text, KeyReadsAs config stored key text ∧ other.get? key = none) := by
  obtain ⟨-, -, covers⟩ := signed
  obtain ⟨-, accepted, covers'⟩ := presented
  have coveredLeft := Except.mapError_eq_ok_iff.1 covers
  have coveredRight := Except.mapError_eq_ok_iff.1 covers'
  obtain ⟨⟨writable, -⟩, -⟩ := Coverage.bytes_eq_ok coveredLeft
  obtain ⟨⟨writable', -⟩, -⟩ := Coverage.bytes_eq_ok coveredRight
  obtain ⟨-, entries, attributes⟩ := (Coverage.bytes_eq_iff_entrySegments coveredLeft coveredRight
    (fun _ member =>
      Nat.lt_of_le_of_lt (Coverage.length_le_of_mem_fields coveredLeft member) short)
    (fun _ member =>
      Nat.lt_of_le_of_lt (Coverage.length_le_of_mem_fields coveredRight member) short)).1 rfl
  refine ⟨attributes, ?_⟩
  have row : Coverage.contextSegments (config.context.bind stored.withoutSeal).attributes ++
        Coverage.descriptionSegments .raw =
      Coverage.contextSegments (config.context.bind other.withoutSeal).attributes ++
        Coverage.descriptionSegments description := entries
  have inContext : ∀ (item : Item), ∀ key ∈ config.context.keyNames,
      (config.context.bind item.withoutSeal).attributes.get? key = item.get? key :=
    fun item key isKey => get?_bind_withoutSeal built isKey (keysHeld key isKey).1 item
  rcases Coverage.moved_of_entrySegments_eq accepted row with
    ⟨sameDescription, contexts⟩ | ⟨front, key, value, text, ends, before, reads, gone⟩
  · have alike : Item.Alike (config.context.bind stored.withoutSeal).attributes
        (config.context.bind other.withoutSeal).attributes :=
      (Coverage.contextSegments_eq_iff writable writable').1 contexts
    refine .inl ⟨sameDescription, ?_, attributes⟩
    intro key isKey
    rw [← inContext stored key isKey, ← inContext other key isKey]
    exact alike key
  · have last : (key, value) ∈ (config.context.bind stored.withoutSeal).attributes.toList := by
      rw [ends]
      exact List.mem_append_right front List.mem_cons_self
    have isKey := mem_keyNames_of_mem_bind built (List.mem_map_of_mem last)
    have written : value.serializeCanonical = .ok (Bytes.ofString text) := by
      obtain ⟨bytes, writes⟩ := writable (key, value) last
      rw [writes, ← reads, AttributeValue.canonicalBytes_of_ok writes]
    refine .inr ⟨key, text, ⟨isKey, ?_, before, value, ?_, written⟩, ?_⟩
    · intro name isName
      obtain ⟨value', held⟩ := (keysHeld name isName).2
      rw [← inContext stored name isName, ← Ascending.mem_toList_iff, ends] at held
      rcases List.mem_append.1 held with inFront | isLast
      · exact Std.le_of_lt (Ascending.lt_of_toList_eq_concat ends inFront)
      · exact Std.le_of_eq (congrArg Prod.fst (List.mem_singleton.1 isLast))
    · rw [← inContext stored key isKey]
      exact Ascending.mem_toList_iff.1 last
    · rw [← inContext other key isKey]
      exact gone

/-- With the greatest key moved the signed bytes are presented again. -/
theorem presents_moveKey {stored : Item} {key text : String} {bytes : Bytes}
    (built : SealConfig.forTable (.ofKeys keys) policy schema = .ok config)
    (unreserved : isReserved key = false) (movable : KeyReadsAs config stored key text)
    (signed : stored.Presents config .raw bytes) :
    (stored.moveKey key text).Presents config (.rawWith key text) bytes := by
  obtain ⟨member, greatest, before, value, found, writes⟩ := movable
  obtain ⟨-, -, covers⟩ := signed
  have different : providerEntry ≠ key := by
    rintro rfl
    exact String.lt_irrefl _ before
  refine ⟨⟨_, NameMap.get?_insert_self _ _ _, MaterialDescription.ofText?_text _⟩, ?_, ?_⟩
  · rw [MaterialDescription.rawWith, NameMap.get?_insert_of_ne _ _ different]
    rfl
  have inContext := (get?_bind_withoutSeal built member unreserved stored).trans found
  have last : ∀ name ∈ (config.context.bind stored.withoutSeal).attributes.names, name ≤ key :=
    fun name bound => greatest name (mem_keyNames_of_mem_bind built bound)
  have moved :=
    Coverage.bytes_moved rfl inContext last before writes (Except.mapError_eq_ok_iff.1 covers)
  have alone := SealConfig.action_of_mem_keyNames built member
  rw [withoutSeal_moveKey text unreserved, covered, Except.mapError_eq_ok_iff, ← moved]
  simp only [Coverage.moved, Coverage.ofItem, attributes_bind_erase built,
    signedAttributes_erase alone]
  rfl

theorem get?_signature_moveKey {key : String} (text : String)
    (unreserved : isReserved key = false) (stored : Item) :
    (stored.moveKey key text).get? signatureName = stored.get? signatureName := by
  have notKey : signatureName ≠ key := Ne.symm (ne_of_unreserved unreserved).2
  rw [moveKey, NameMap.get?_insert_of_ne _ _ (by decide), Ascending.get?_erase_of_ne _ notKey]

theorem get?_moveKey {key : String} (text : String) (unreserved : isReserved key = false)
    (stored : Item) : (stored.moveKey key text).get? key = none := by
  rw [moveKey, NameMap.get?_insert_of_ne _ _ (ne_of_unreserved unreserved).1,
    Ascending.get?_erase_self]

/-- With the greatest key moved the item is unsealed, without that key. -/
theorem unsealWith_moveKey {stored revealed : Item} {key text : String} {nonce : Nonce}
    {bytes : Bytes} (built : SealConfig.forTable (.ofKeys keys) policy schema = .ok config)
    (unreserved : isReserved key = false) (movable : KeyReadsAs config stored key text)
    (signed : stored.get? signatureName = some (.binary (signature keys.signing nonce bytes)))
    (presented : stored.Presents config .raw bytes)
    (reveals :
      changeEncrypted config.policy (reveal keys.encryption) stored.withoutSeal = .ok revealed)
    (later : σ) :
    (unsealWith config (stored.moveKey key text)).runFrom later =
      (.ok (revealed.erase key), later) := by
  obtain ⟨⟨described, hasText, reads⟩, accepted, covers⟩ :=
    presents_moveKey built unreserved movable presented
  have stillSigned := (get?_signature_moveKey text unreserved stored).trans signed
  have stillReveals : changeEncrypted config.policy (reveal keys.encryption)
      (stored.moveKey key text).withoutSeal = .ok (revealed.erase key) := by
    rw [withoutSeal_moveKey text unreserved]
    exact Ascending.mapEntriesM_erase reveals key
  have unseals :
      unsealUnder config.policy _ keys.materials (signature keys.signing nonce bytes) _ = _ :=
    unsealUnder_of_signature covers stillReveals
  obtain ⟨known, -, rfl⟩ := SealConfig.forTable_eq_ok_iff.1 built
  rw [unsealWith_of_seal hasText stillSigned reads]
  refine Act.runFrom_bind_eq_ok_iff.2 ⟨keys.materials, later, ?_, ?_⟩
  · simp only [MaterialsProvider.ofKeys, accepted, if_true, Act.runFrom_pure]
  · rw [Act.runFrom_liftM]
    exact congrArg (·, later) unseals

/-- The signed bytes bind the sealed item exactly if its greatest key cannot be moved to the
description; if it can, the item with that key moved is unsealed all the same. In any case they
bind the signed attributes, and they bind an item that holds all keys of the table. Whatever is
unsealed with the signature presents the signed bytes, or others with the same tag. The bytes are
taken to be fewer than `2 ^ 56`; that they are no more than the `2 ^ 36` which the cipher takes at
once (`Gcm.encrypt`) is a side condition on sealing. -/
theorem tamperEvident_iff {nonces : ItemNonces} {item stored : Item} {world after : σ}
    (built : SealConfig.forTable (.ofKeys keys) policy schema = .ok config)
    (protects : config.policy.protectsNothing = false)
    (sealed : (sealWith config nonces item).runFrom world = (.ok stored, after)) :
    ∃ bytes,
      stored.get? signatureName = some (.binary (signature keys.signing nonces.signature bytes)) ∧
      stored.Presents config .raw bytes ∧
      (bytes.length < 2 ^ 56 →
        (TamperEvident config stored bytes ↔ ¬ ∃ key text, KeyReadsAs config stored key text) ∧
        ∀ other description, other.Presents config description bytes →
          SignedAlike config.policy stored.withoutSeal config.policy other.withoutSeal ∧
          ((∀ key ∈ config.context.keyNames, other.contains key = true) →
            SameSealed config stored other description)) ∧
      (∀ other result later last, (unsealWith config other).runFrom later = (.ok result, last) →
        other.get? signatureName = stored.get? signatureName →
          ∃ description presented, other.Presents config description presented ∧
            Gcm.encrypt keys.signing nonces.signature [] presented =
              Gcm.encrypt keys.signing nonces.signature [] bytes) ∧
      ∀ key text later, KeyReadsAs config stored key text →
        (stored.moveKey key text).get? key = none ∧
        (unsealWith config (stored.moveKey key text)).runFrom later =
          (.ok ((item.settledUnder config.policy).erase key), later) := by
  obtain ⟨bytes, signed, presented, reveals⟩ := exists_presented_of_sealed built protects sealed
  have keysHeld := keys_of_sealed (SealConfig.keysReadable_forTable built) sealed
  refine ⟨bytes, signed, presented, fun short => ⟨⟨?_, ?_⟩, ?_⟩, ?_, ?_⟩
  · rintro evident ⟨key, text, movable⟩
    obtain ⟨unreserved, value, found⟩ := keysHeld key movable.isKey
    have same :=
      (evident _ _ (presents_moveKey built unreserved movable presented)).keys key movable.isKey
    rw [found, get?_moveKey text unreserved] at same
    cases same
  · intro unmovable other description presents
    rcases (sameSealed_or_moved built keysHeld short presented presents).2 with
      same | ⟨key, text, movable, -⟩
    · exact same
    · exact absurd ⟨key, text, movable⟩ unmovable
  · intro other description presents
    obtain ⟨attributes, same | ⟨key, text, movable, gone⟩⟩ :=
      sameSealed_or_moved built keysHeld short presented presents
    · exact ⟨attributes, fun _ => same⟩
    · refine ⟨attributes, fun holdsAll => ?_⟩
      have held := holdsAll key movable.isKey
      rw [Ascending.contains, gone] at held
      cases held
  · intro other result later last unseals same
    exact presents_of_unsealed built protects unseals (same.trans signed)
  · intro key text later movable
    have unreserved := (keysHeld key movable.isKey).1
    exact ⟨get?_moveKey text unreserved stored,
      unsealWith_moveKey built unreserved movable signed presented reveals later⟩

end Tables

/-- A signed order whose number is its only key. -/
def SampleOrder.numbered : Item :=
  NameMap.ofList [("OrderId", .string "123"), ("Status", .string "shipped")]

open SampleOrder in
/-- The order without its number is unsealed. -/
theorem unsealWith_numberless :
    ∃ stored bytes forged result,
      (sealWith config nonces numbered).runFrom () = (.ok stored, ()) ∧
      stored.Presents config .raw bytes ∧ ¬ TamperEvident config stored bytes ∧
      forged.get? "OrderId" = none ∧ (unsealWith config forged).runFrom () = (.ok result, ()) ∧
      result.get? "Status" = some (.string "shipped") := by
  have built : SealConfig.forTable (.ofKeys keys) policy schema = .ok config := rfl
  have sealed : ∃ stored, (sealWith config nonces numbered).runFrom () = (.ok stored, ()) ∧
      stored.withoutSeal = numbered ∧ stored.get? "OrderId" = some (.string "123") :=
    ⟨_, rfl, rfl, rfl⟩
  obtain ⟨stored, sealed, taken, number⟩ := sealed
  obtain ⟨bytes, -, presented, bound, -, moves⟩ := tamperEvident_iff built rfl sealed
  -- The number is short, so it can be read as a text.
  obtain ⟨text, reads⟩ := AttributeValue.exists_text_of_short (.inl rfl)
    (show (Bytes.ofString "123").length < 128 by decide)
  have movable : KeyReadsAs config stored "OrderId" text :=
    ⟨by decide, by decide, by decide, .string "123", number, reads⟩
  obtain ⟨gone, unsealed⟩ := moves "OrderId" text () movable
  have short : bytes.length < 2 ^ 56 := by
    have fits : (covered config.policy { config.context.bind numbered with description := .raw }
        numbered).toOption.any (·.length < 2 ^ 56) = true := by decide +kernel
    have covers := presented.2.2
    rw [taken] at covers
    rw [covers] at fits
    exact of_decide_eq_true fits
  refine ⟨stored, bytes, _, _, sealed, presented, ?_, gone, unsealed, rfl⟩
  exact fun evident => ((bound short).1.1 evident) ⟨"OrderId", text, movable⟩

end Item

end ItemSeal
