import ItemSeal.Proofs.Codec.RoundTrip
import ItemSeal.Proofs.Json.StringMembers
import ItemSeal.Proofs.Schema.KeyExemption
import ItemSeal.Proofs.Sealing.ActRuns
import ItemSeal.Sealing

/-!
What sealing and unsealing do, step by step. `Item.sealWith_eq_ok_iff` says all that a
successful sealing has done, `Item.exists_hidden_of_sealWith` what it stores,
`Item.unsealWith_of_seal` what unsealing does with an item that carries a seal, and
`Item.unsealWith_eq_ok` what it has checked if it succeeds.
-/

namespace ItemSeal

/-! ## Descriptions -/

/-- A description is read back from its text. -/
theorem MaterialDescription.ofText?_text (description : MaterialDescription) :
    MaterialDescription.ofText? description.text = some description := by
  have collected : ∀ entries : List (String × String),
      (Json.stringMembers entries).mapM (fun entry => do return (entry.1, ← entry.2.string?)) =
        some entries := by
    intro entries
    induction entries with
    | nil => rfl
    | cons entry rest ih =>
        rw [Json.stringMembers] at ih ⊢
        rw [List.map_cons, List.mapM_cons, ih]
        rfl
  have read :
      Json.parse? description.text = some (.object (Json.stringMembers description.toList)) :=
    Json.parse?_print_strings description.toList
  rw [ofText?, read, Option.bind_eq_bind, Option.bind_some, ofJson?, Json.object?,
    Option.bind_eq_bind, Option.bind_some, collected]
  exact congrArg some (NameMap.ofList_toList description)

/-! ## Contexts -/

namespace EncryptionContext

/-- Binding puts the values that an item gives its keys before those of the context. -/
theorem get?_attributes_bind (context : EncryptionContext) (item : Item) (name : String) :
    (context.bind item).attributes.get? name =
      (if name ∈ context.keyNames then item.get? name else none).or
        (context.attributes.get? name) := by
  unfold bind
  dsimp only
  generalize context.attributes = attributes
  induction context.keyNames generalizing attributes with
  | nil => simp
  | cons key rest ih =>
      rw [List.foldl_cons, ih]
      cases found : item.get? key with
      | none =>
          by_cases here : name = key
          · subst here
            simp [found]
          · simp [here]
      | some value =>
          by_cases here : name = key
          · subst here
            by_cases again : name ∈ rest <;> simp [found, again]
          · simp [here, NameMap.get?_insert_of_ne]

/-- The context that an item is bound to depends on the item's keys only. -/
theorem bind_congr {context : EncryptionContext} {left right : Item}
    (same : ∀ key ∈ context.keyNames, left.get? key = right.get? key) :
    context.bind left = context.bind right := by
  have attributes : (context.bind left).attributes = (context.bind right).attributes := by
    apply Ascending.ext_get?
    intro name
    rw [get?_attributes_bind, get?_attributes_bind]
    by_cases isKey : name ∈ context.keyNames
    · rw [same name isKey]
    · simp [isKey]
  exact congrArg (fun attributes => { context with attributes }) attributes

end EncryptionContext

/-! ## Signatures -/

/-- Where nothing is enciphered, all there is is a tag. -/
theorem Gcm.encrypt_nil (key : Key) (nonce : Nonce) (associated : Bytes) :
    Gcm.encrypt key nonce [] associated =
      Gcm.tag (Aes.roundKeys key.bytes) nonce associated [] := by
  have empty : Gcm.crypt (Aes.roundKeys key.bytes) nonce [] = [] :=
    List.length_eq_zero_iff.1 (Gcm.length_crypt _ _ _)
  unfold Gcm.encrypt
  dsimp only
  rw [empty, List.nil_append]

namespace Item

/-! ## Single attributes -/

/-- What a value is hidden as is bytes, those of a nonce and a tag more than
the value is written as. -/
theorem length_of_hide {key : Key} {nonce : Nonce} {name : String} {value hidden : AttributeValue}
    (hides : hide key nonce name value = .ok hidden) :
    ∃ plain bytes, value.serialize = .ok plain ∧ hidden = .binary bytes ∧
      bytes.length = plain.length + 28 := by
  obtain ⟨plain, written, built⟩ := Except.bind_eq_ok_iff.1 hides
  cases built
  refine ⟨plain, _, Except.mapError_eq_ok_iff.1 written, rfl, ?_⟩
  rw [List.length_append, nonce.length_eq, Gcm.length_encrypt, Gcm.tagLength]
  omega

/-- A hidden attribute is revealed as the settled value. -/
theorem reveal_of_hide {key : Key} {nonce : Nonce} {name : String} {value hidden : AttributeValue}
    (hides : hide key nonce name value = .ok hidden) :
    reveal key name hidden = .ok value.settled := by
  obtain ⟨plain, written, built⟩ := Except.bind_eq_ok_iff.1 hides
  cases built
  simp only [reveal, Nonce.split?_append, Gcm.decrypt?_encrypt,
    AttributeValue.deserialize_of_serialize (Except.mapError_eq_ok_iff.1 written)]
  rfl

section ChangeEncrypted

variable {policy : ActionPolicy} {change : String → AttributeValue → Except Error AttributeValue}
  {item changed : Item}

theorem names_changeEncrypted (changes : changeEncrypted policy change item = .ok changed) :
    changed.names = item.names :=
  Ascending.names_mapEntriesM changes

/-- The attributes that are not to be encrypted are kept. -/
theorem get?_changeEncrypted_of_ne (changes : changeEncrypted policy change item = .ok changed)
    {name : String} (isOpen : policy.action name ≠ .encryptAndSign) :
    changed.get? name = item.get? name := by
  have rel := Ascending.get?_mapEntriesM changes name
  simp only [isOpen, if_false] at rel
  cases before : item.get? name with
  | none =>
      rw [before] at rel
      cases after : changed.get? name with
      | none => rfl
      | some value => rw [after] at rel; cases rel
  | some value =>
      rw [before] at rel
      cases after : changed.get? name with
      | none => rw [after] at rel; cases rel
      | some newValue =>
          rw [after] at rel
          cases rel with
          | some kept => rw [Except.ok.inj kept]

end ChangeEncrypted

/-- The item as it comes back: encrypted attributes are settled, the others are as they were. -/
def settledUnder (policy : ActionPolicy) (item : Item) : Item :=
  item.mapEntries fun name value =>
    if policy.action name = .encryptAndSign then value.settled else value

/-- What hiding changes, revealing takes back. -/
theorem changeEncrypted_reveal_of_hide {policy : ActionPolicy} {key : Key}
    {nonces : String → Nonce} {item hidden : Item}
    (hides : changeEncrypted policy (fun name => hide key (nonces name) name) item = .ok hidden) :
    changeEncrypted policy (reveal key) hidden = .ok (item.settledUnder policy) := by
  refine Ascending.mapEntriesM_of_undone ?_ hides
  intro name value newValue changed
  by_cases encrypts : policy.action name = .encryptAndSign
  · simp only [encrypts, if_true] at changed ⊢
    exact reveal_of_hide changed
  · simp only [encrypts, if_false] at changed ⊢
    exact changed.symm

/-! ## Seals -/

theorem isReserved_iff {name : String} :
    isReserved name = true ↔ name = descriptionName ∨ name = signatureName := by
  simp [isReserved]

theorem ne_of_unreserved {name : String} (unreserved : isReserved name = false) :
    name ≠ descriptionName ∧ name ≠ signatureName := by
  simpa [isReserved] using unreserved

theorem ne_of_reserved {name other : String} (reserved : isReserved name = true)
    (unreserved : isReserved other = false) : name ≠ other := by
  rintro rfl
  rw [reserved] at unreserved
  cases unreserved

/-- An item can be sealed exactly if it has no reserved name and all keys. -/
theorem sealFault?_eq_none_iff {context : EncryptionContext} {item : Item} :
    sealFault? context item = none ↔
      item.get? descriptionName = none ∧ item.get? signatureName = none ∧
        ∀ key ∈ context.keyNames, ∃ value, item.get? key = some value := by
  have unreserved : item.names.find? isReserved = none ↔
      item.get? descriptionName = none ∧ item.get? signatureName = none := by
    rw [List.find?_eq_none]
    constructor
    · intro free
      refine ⟨?_, ?_⟩
      · rw [Option.eq_none_iff_forall_not_mem]
        intro value found
        exact free descriptionName (Ascending.mem_names_iff.2 ⟨value, found⟩) rfl
      · rw [Option.eq_none_iff_forall_not_mem]
        intro value found
        exact free signatureName (Ascending.mem_names_iff.2 ⟨value, found⟩) rfl
    · rintro ⟨noDescription, noSignature⟩ name member reserved
      obtain ⟨value, found⟩ := Ascending.mem_names_iff.1 member
      rcases isReserved_iff.1 reserved with rfl | rfl
      · rw [noDescription] at found
        cases found
      · rw [noSignature] at found
        cases found
  unfold sealFault?
  cases reserved : item.names.find? isReserved with
  | some name =>
      have taken : ¬ (item.get? descriptionName = none ∧ item.get? signatureName = none) := by
        rw [← unreserved, reserved]
        exact Option.some_ne_none name
      simp only [reduceCtorEq, false_iff]
      rintro ⟨noDescription, noSignature, -⟩
      exact taken ⟨noDescription, noSignature⟩
  | none =>
      obtain ⟨noDescription, noSignature⟩ := unreserved.1 reserved
      simp only [Option.map_eq_none_iff, List.find?_eq_none, Bool.not_eq_true', Bool.not_eq_false,
        Ascending.contains_iff, noDescription, noSignature, true_and]

/-- What sealing under given keys stores: the hidden item with its seal over what it covers. -/
theorem sealUnder_eq_ok {policy : ActionPolicy} {context : EncryptionContext}
    {materials : KeyMaterials} {nonces : ItemNonces} {item stored : Item}
    (seals : sealUnder policy context materials nonces item = .ok stored) :
    ∃ hidden bytes,
      changeEncrypted policy (fun name => hide materials.encryption (nonces.content name) name)
        item = .ok hidden ∧
      covered policy { context with description := materials.description } hidden = .ok bytes ∧
      stored = NameMap.insert
        (NameMap.insert hidden descriptionName (.string materials.description.text))
        signatureName (.binary (signature materials.signing nonces.signature bytes)) := by
  obtain ⟨hidden, hides, more⟩ := Except.bind_eq_ok_iff.1 seals
  obtain ⟨bytes, covers, built⟩ := Except.bind_eq_ok_iff.1 more
  exact ⟨hidden, bytes, hides, covers, (Except.ok.inj built).symm⟩

section WithSeal

variable {item : Item} {text : AttributeValue} {tag : AttributeValue}

/-- An item with a description and a signature. -/
def withSeal (item : Item) (text tag : AttributeValue) : Item :=
  NameMap.insert (NameMap.insert item descriptionName text) signatureName tag

theorem get?_description_withSeal :
    (item.withSeal text tag).get? descriptionName = some text := by
  rw [withSeal, NameMap.get?_insert_of_ne _ _ (by decide), NameMap.get?_insert_self]

theorem get?_signature_withSeal : (item.withSeal text tag).get? signatureName = some tag :=
  NameMap.get?_insert_self _ _ _

theorem get?_withSeal_of_ne {name : String} (unreserved : isReserved name = false) :
    (item.withSeal text tag).get? name = item.get? name := by
  obtain ⟨notDescription, notSignature⟩ := ne_of_unreserved unreserved
  rw [withSeal, NameMap.get?_insert_of_ne _ _ notSignature,
    NameMap.get?_insert_of_ne _ _ notDescription]

theorem mem_names_withSeal {name : String} :
    name ∈ (item.withSeal text tag).names ↔ name ∈ item.names ∨ isReserved name = true := by
  rw [Ascending.mem_names_iff, Ascending.mem_names_iff]
  cases reserved : isReserved name with
  | false => simp [get?_withSeal_of_ne reserved]
  | true =>
      rcases isReserved_iff.1 reserved with rfl | rfl
      · simp [get?_description_withSeal]
      · simp [get?_signature_withSeal]

/-- A seal is taken off again. -/
theorem withoutSeal_withSeal (noDescription : item.get? descriptionName = none)
    (noSignature : item.get? signatureName = none) :
    (item.withSeal text tag).withoutSeal = item := by
  have distinct : signatureName ≠ descriptionName := by decide
  rw [withoutSeal, withSeal, NameMap.erase_insert_of_ne _ _ (Ne.symm distinct),
    NameMap.erase_insert _ noDescription, NameMap.erase_insert _ noSignature]

end WithSeal

/-- Without its seal an item has all values but those of the reserved names. -/
theorem get?_withoutSeal {name : String} (unreserved : isReserved name = false) (item : Item) :
    item.withoutSeal.get? name = item.get? name := by
  obtain ⟨notDescription, notSignature⟩ := ne_of_unreserved unreserved
  rw [withoutSeal, Ascending.get?_erase_of_ne _ notSignature,
    Ascending.get?_erase_of_ne _ notDescription]

theorem get?_withoutSeal_of_reserved {name : String} (reserved : isReserved name = true)
    (item : Item) :
    item.withoutSeal.get? name = none := by
  rcases isReserved_iff.1 reserved with rfl | rfl
  · rw [withoutSeal, Ascending.get?_erase_of_ne _ (by decide), Ascending.get?_erase_self]
  · rw [withoutSeal, Ascending.get?_erase_self]

theorem get?_withoutSeal_eq_ite (item : Item) (name : String) :
    item.withoutSeal.get? name = if isReserved name then none else item.get? name := by
  cases reserved : isReserved name with
  | true => exact get?_withoutSeal_of_reserved reserved item
  | false => exact get?_withoutSeal reserved item

theorem mem_names_withoutSeal {name : String} {item : Item} :
    name ∈ item.withoutSeal.names ↔ name ∈ item.names ∧ isReserved name = false := by
  rw [Ascending.mem_names_iff, Ascending.mem_names_iff, get?_withoutSeal_eq_ite]
  cases isReserved name <;> simp

/-- An item that has neither part of a seal is already without one. -/
theorem withoutSeal_of_unsealed {item : Item} (noDescription : item.get? descriptionName = none)
    (noSignature : item.get? signatureName = none) : item.withoutSeal = item := by
  apply Ascending.ext_get?
  intro name
  rw [get?_withoutSeal_eq_ite]
  split
  · next reserved =>
      rcases isReserved_iff.1 reserved with rfl | rfl
      · exact noDescription.symm
      · exact noSignature.symm
  · rfl

/-- A signature is a nonce and a tag. -/
theorem length_signature (key : Key) (nonce : Nonce) (bytes : Bytes) :
    (signature key nonce bytes).length = 28 := by
  rw [signature, List.length_append, nonce.length_eq, Gcm.length_encrypt]
  rfl

/-- A signature of what an item covers is that item's. -/
theorem checkSignature_signature {policy : ActionPolicy} {context : EncryptionContext} {key : Key}
    {nonce : Nonce} {item : Item} {bytes : Bytes}
    (covers : covered policy context item = .ok bytes) :
    checkSignature policy context key (signature key nonce bytes) item = .ok () := by
  have tagged : Gcm.encrypt key nonce [] bytes ≠ [] := by
    intro empty
    have length := Gcm.length_encrypt key nonce [] bytes
    rw [empty] at length
    cases length
  have verified : verifies key nonce (Gcm.encrypt key nonce [] bytes) bytes = true := by
    rw [verifies, Gcm.decrypt?_encrypt]
    rfl
  rw [checkSignature, signature, Nonce.split?_append]
  cases shape : Gcm.encrypt key nonce [] bytes with
  | nil => exact absurd shape tagged
  | cons first rest =>
      rw [shape] at verified
      simp only [covers]
      change (if verifies key nonce (first :: rest) bytes = true then Except.ok () else _) = _
      rw [if_pos verified]

/-- A signature that verifies for other bytes is theirs too. -/
theorem encrypt_eq_of_verifies {key : Key} {nonce : Nonce} {bytes other : Bytes}
    (verified : verifies key nonce (Gcm.encrypt key nonce [] bytes) other = true) :
    Gcm.encrypt key nonce [] other = Gcm.encrypt key nonce [] bytes := by
  have length : (Gcm.encrypt key nonce [] bytes).length = Gcm.tagLength := by
    rw [Gcm.length_encrypt, List.length_nil, Nat.zero_add]
  unfold verifies Gcm.decrypt? at verified
  simp only [length, Nat.lt_irrefl, if_false, Nat.sub_self, List.take_zero,
    List.drop_zero] at verified
  split at verified
  · next same => rw [Gcm.encrypt_nil, same]
  · cases verified

/-- A signature that is the item's starts with a nonce, and verifies for what the item covers. -/
theorem checkSignature_eq_ok {policy : ActionPolicy} {context : EncryptionContext} {key : Key}
    {signature : Bytes} {item : Item}
    (checks : checkSignature policy context key signature item = .ok ()) :
    ∃ nonce tag bytes, Nonce.split? signature = some (nonce, tag) ∧
      covered policy context item = .ok bytes ∧ verifies key nonce tag bytes = true := by
  unfold checkSignature at checks
  split at checks
  · cases checks
  · cases checks
  · next nonce tag _ split =>
      obtain ⟨bytes, covers, verdict⟩ := Except.bind_eq_ok_iff.1 checks
      split at verdict
      · next verified => exact ⟨nonce, tag, bytes, split, covers, verified⟩
      · cases verdict

/-- Under the right keys an item that covers the signed bytes is unsealed. -/
theorem unsealUnder_of_signature {policy : ActionPolicy} {context : EncryptionContext}
    {materials : KeyMaterials} {nonce : Nonce} {bytes : Bytes} {hidden revealed : Item}
    (covers : covered policy context hidden = .ok bytes)
    (reveals : changeEncrypted policy (reveal materials.encryption) hidden = .ok revealed) :
    unsealUnder policy context materials (signature materials.signing nonce bytes) hidden =
      .ok revealed := by
  rw [unsealUnder, checkSignature_signature covers]
  exact reveals

/-! ## Whole runs -/

section Runs

variable {σ : Type} {config : SealConfig σ} {item stored : Item} {world after : σ}

/-- A sealing succeeds in two ways: nothing is protected and the item stays as it is, or the item
is sealed under the keys that the provider hands out for it. -/
theorem sealWith_eq_ok_iff {nonces : ItemNonces} :
    (sealWith config nonces item).runFrom world = (.ok stored, after) ↔
      sealFault? config.context item = none ∧
        (config.policy.protectsNothing = true ∧ stored = item ∧ after = world ∨
          config.policy.protectsNothing = false ∧ ∃ materials,
            (config.provider.encryptionMaterials (config.context.bind item)).runFrom world =
              (.ok materials, after) ∧
            sealUnder config.policy (config.context.bind item) materials nonces item =
              .ok stored) := by
  unfold sealWith
  cases fault : sealFault? config.context item with
  | some error => simp
  | none =>
      cases config.policy.protectsNothing with
      | true => simp [eq_comm]
      | false =>
          simp only [Bool.false_eq_true, if_false, true_and, false_and, false_or,
            Act.runFrom_bind_eq_ok_iff]
          constructor
          · rintro ⟨materials, between, found, seals⟩
            rw [Act.runFrom_liftM, Prod.mk.injEq] at seals
            exact ⟨materials, seals.2 ▸ found, seals.1⟩
          · rintro ⟨materials, found, seals⟩
            exact ⟨materials, after, found, by rw [Act.runFrom_liftM, seals]⟩

/-- Where nothing is protected, items are stored as they are. -/
theorem eq_of_protectsNothing {nonces : ItemNonces}
    (nothing : config.policy.protectsNothing = true)
    (sealed : (sealWith config nonces item).runFrom world = (.ok stored, after)) :
    stored = item := by
  obtain ⟨-, ⟨-, same, -⟩ | ⟨protects, -⟩⟩ := sealWith_eq_ok_iff.1 sealed
  · exact same
  · rw [nothing] at protects
    cases protects

/-- What a sealing that protects something has done: it hid what is to be encrypted, and the item
without its seal is what it signed. -/
theorem exists_hidden_of_sealWith {nonces : ItemNonces}
    (protects : config.policy.protectsNothing = false)
    (sealed : (sealWith config nonces item).runFrom world = (.ok stored, after)) :
    ∃ materials hidden bytes,
      (config.provider.encryptionMaterials (config.context.bind item)).runFrom world =
          (.ok materials, after) ∧
        changeEncrypted config.policy
          (fun name => hide materials.encryption (nonces.content name) name) item = .ok hidden ∧
        covered config.policy
          { config.context.bind item with description := materials.description } hidden =
            .ok bytes ∧
        stored = hidden.withSeal (.string materials.description.text)
          (.binary (signature materials.signing nonces.signature bytes)) ∧
        stored.withoutSeal = hidden := by
  obtain ⟨fault, ⟨nothing, -⟩ | ⟨-, materials, handedOut, seals⟩⟩ := sealWith_eq_ok_iff.1 sealed
  · rw [protects] at nothing
    cases nothing
  obtain ⟨noDescription, noSignature, -⟩ := sealFault?_eq_none_iff.1 fault
  obtain ⟨hidden, bytes, hides, covers, rfl⟩ := sealUnder_eq_ok seals
  -- Hiding keeps the names, so the hidden item is as free of reserved names as the item.
  have absent : ∀ {name : String}, item.get? name = none → hidden.get? name = none := by
    intro name none
    cases found : hidden.get? name with
    | none => rfl
    | some value =>
        have inHidden : name ∈ hidden.names := Ascending.mem_names_iff.2 ⟨value, found⟩
        rw [names_changeEncrypted hides] at inHidden
        obtain ⟨value', found'⟩ := Ascending.mem_names_iff.1 inHidden
        cases none.symm.trans found'
  exact ⟨materials, hidden, bytes, handedOut, hides, covers, rfl,
    withoutSeal_withSeal (absent noDescription) (absent noSignature)⟩

/-- An item that was sealed has no reserved names. -/
theorem isReserved_of_sealed {nonces : ItemNonces}
    (sealed : (sealWith config nonces item).runFrom world = (.ok stored, after))
    {name : String} {value : AttributeValue} (found : item.get? name = some value) :
    isReserved name = false := by
  obtain ⟨noDescription, noSignature, -⟩ :=
    sealFault?_eq_none_iff.1 (sealWith_eq_ok_iff.1 sealed).1
  cases reserved : isReserved name with
  | false => rfl
  | true =>
      rcases isReserved_iff.1 reserved with rfl | rfl
      · rw [noDescription] at found
        cases found
      · rw [noSignature] at found
        cases found

/-- What is not to be encrypted is stored as it is. -/
theorem get?_sealed_of_ne {nonces : ItemNonces}
    (sealed : (sealWith config nonces item).runFrom world = (.ok stored, after))
    {name : String} {value : AttributeValue} (found : item.get? name = some value)
    (isOpen : config.policy.action name ≠ .encryptAndSign) : stored.get? name = some value := by
  have unreserved := isReserved_of_sealed sealed found
  cases protects : config.policy.protectsNothing with
  | true =>
      rw [eq_of_protectsNothing protects sealed]
      exact found
  | false =>
      obtain ⟨materials, hidden, bytes, -, hides, -, rfl, -⟩ :=
        exists_hidden_of_sealWith protects sealed
      rw [get?_withSeal_of_ne unreserved, get?_changeEncrypted_of_ne hides isOpen, found]

/-- What is to be encrypted is stored hidden. -/
theorem exists_hide_of_sealed {nonces : ItemNonces}
    (sealed : (sealWith config nonces item).runFrom world = (.ok stored, after))
    {name : String} {value : AttributeValue} (found : item.get? name = some value)
    (encrypted : config.policy.action name = .encryptAndSign) :
    ∃ key hidden, hide key (nonces.content name) name value = .ok hidden ∧
      stored.get? name = some hidden := by
  have unreserved := isReserved_of_sealed sealed found
  have protects : config.policy.protectsNothing = false := by
    cases nothing : config.policy.protectsNothing with
    | false => rfl
    | true =>
        rw [ActionPolicy.action_of_protectsNothing nothing] at encrypted
        cases encrypted
  obtain ⟨materials, hidden, bytes, -, hides, -, rfl, -⟩ :=
    exists_hidden_of_sealWith protects sealed
  rw [get?_withSeal_of_ne unreserved]
  have change := Ascending.get?_mapEntriesM hides name
  rw [found] at change
  simp only [encrypted, if_true] at change
  cases inHidden : hidden.get? name with
  | none =>
      rw [inHidden] at change
      cases change
  | some newValue =>
      rw [inHidden] at change
      cases change with
      | some hides => exact ⟨materials.encryption, newValue, hides, rfl⟩

/-- What is to be encrypted is stored as bytes. -/
theorem get?_sealed_of_encrypted {nonces : ItemNonces}
    (sealed : (sealWith config nonces item).runFrom world = (.ok stored, after))
    {name : String} {value : AttributeValue} (found : item.get? name = some value)
    (encrypted : config.policy.action name = .encryptAndSign) :
    ∃ bytes, stored.get? name = some (.binary bytes) := by
  obtain ⟨key, hidden, hides, here⟩ := exists_hide_of_sealed sealed found encrypted
  obtain ⟨plain, bytes, -, rfl, -⟩ := length_of_hide hides
  exact ⟨bytes, here⟩

/-- An item without a seal is taken for what it is, if nothing is protected. -/
theorem unsealWith_of_unsealed (noDescription : item.get? descriptionName = none)
    (noSignature : item.get? signatureName = none) :
    unsealWith config item =
      if config.policy.protectsNothing then return item else throw .unsigned := by
  rw [unsealWith, noDescription, noSignature]

/-- An item with a readable seal is unsealed with the keys that the provider finds for it. -/
theorem unsealWith_of_seal {text : String} {signature : Bytes} {description : MaterialDescription}
    (described : stored.get? descriptionName = some (.string text))
    (signed : stored.get? signatureName = some (.binary signature))
    (reads : MaterialDescription.ofText? text = some description) :
    unsealWith config stored = (do
      let materials ← config.provider.decryptionMaterials (config.context.bind stored.withoutSeal)
        description
      unsealUnder config.policy { config.context.bind stored.withoutSeal with description }
        materials signature stored.withoutSeal) := by
  unfold unsealWith
  rw [described, signed]
  simp only [reads]

/-- Where something is protected, sealing is one look for keys and then a matter of those keys. -/
theorem runFrom_sealWith (fault : sealFault? config.context item = none)
    (protects : config.policy.protectsNothing = false) (nonces : ItemNonces) (world : σ) :
    (sealWith config nonces item).runFrom world =
      (((config.provider.encryptionMaterials (config.context.bind item)).runFrom world).1 >>=
          fun materials =>
            sealUnder config.policy (config.context.bind item) materials nonces item,
        ((config.provider.encryptionMaterials (config.context.bind item)).runFrom world).2) := by
  unfold sealWith
  simp only [fault, protects]
  exact Act.runFrom_bind_liftM _ _ world

/-- So is unsealing an item with a readable seal. -/
theorem runFrom_unsealWith {text : String} {signature : Bytes} {description : MaterialDescription}
    (described : stored.get? descriptionName = some (.string text))
    (signed : stored.get? signatureName = some (.binary signature))
    (reads : MaterialDescription.ofText? text = some description) (world : σ) :
    (unsealWith config stored).runFrom world =
      (((config.provider.decryptionMaterials (config.context.bind stored.withoutSeal)
          description).runFrom world).1 >>= fun materials =>
            unsealUnder config.policy { config.context.bind stored.withoutSeal with description }
              materials signature stored.withoutSeal,
        ((config.provider.decryptionMaterials (config.context.bind stored.withoutSeal)
          description).runFrom world).2) := by
  rw [unsealWith_of_seal described signed reads]
  exact Act.runFrom_bind_liftM _ _ world

/-- What is unsealed has no seal, nothing being protected, and stays as it is, or the provider
finds keys under which its signature is that of the item. -/
theorem unsealWith_eq_ok {result : Item}
    (unseals : (unsealWith config stored).runFrom world = (.ok result, after)) :
    config.policy.protectsNothing = true ∧ stored.get? descriptionName = none ∧
        stored.get? signatureName = none ∧ result = stored ∨
      ∃ text signature description materials,
        stored.get? descriptionName = some (.string text) ∧
        stored.get? signatureName = some (.binary signature) ∧
        MaterialDescription.ofText? text = some description ∧
        (config.provider.decryptionMaterials (config.context.bind stored.withoutSeal)
          description).runFrom world = (.ok materials, after) ∧
        checkSignature config.policy { config.context.bind stored.withoutSeal with description }
          materials.signing signature stored.withoutSeal = .ok () ∧
        changeEncrypted config.policy (reveal materials.encryption) stored.withoutSeal =
          .ok result := by
  have known := unseals
  unfold unsealWith at known
  split at known
  · next noDescription noSignature =>
      split at known
      · next nothing =>
          cases known
          exact .inl ⟨nothing, noDescription, noSignature, rfl⟩
      · cases known
  · next text signature described signed =>
      cases reads : MaterialDescription.ofText? text with
      | none =>
          rw [reads] at known
          cases known
      | some description =>
          rw [unsealWith_of_seal described signed reads] at unseals
          obtain ⟨materials, between, found, opens⟩ := Act.runFrom_bind_eq_ok_iff.1 unseals
          rw [Act.runFrom_liftM, Prod.mk.injEq] at opens
          obtain ⟨⟨⟩, checks, reveals⟩ := Except.bind_eq_ok_iff.1 opens.1
          exact .inr ⟨text, signature, description, materials, described, signed, reads,
            opens.2 ▸ found, checks, reveals⟩
  · cases known

/-- What unsealing gives has the names that are not reserved, and what is not
encrypted is as it was stored. -/
theorem kept_of_unsealed {result : Item}
    (unseals : (unsealWith config stored).runFrom world = (.ok result, after)) :
    (∀ name, name ∈ result.names ↔ name ∈ stored.names ∧ isReserved name = false) ∧
      ∀ name, isReserved name = false → config.policy.action name ≠ .encryptAndSign →
        result.get? name = stored.get? name := by
  obtain ⟨-, noDescription, noSignature, rfl⟩ | ⟨-, -, -, materials, -, -, -, -, -, reveals⟩ :=
    unsealWith_eq_ok unseals
  · refine ⟨fun name => ?_, fun _ _ _ => rfl⟩
    rw [← mem_names_withoutSeal, withoutSeal_of_unsealed noDescription noSignature]
  · refine ⟨fun name => ?_, fun name unreserved isOpen => ?_⟩
    · rw [names_changeEncrypted reveals, mem_names_withoutSeal]
    · rw [get?_changeEncrypted_of_ne reveals isOpen, get?_withoutSeal unreserved]

end Runs

end Item

end ItemSeal
