import ItemSeal.Proofs.Sealing.Runs

/-!
Unsealing takes back what sealing gives. The keys of an item are found again under the context
that the item was bound to, which is the same on both sides as long as no key is encrypted
(`SealConfig.KeysReadable`); the signature is over the same bytes then, and every encrypted
attribute comes back settled: `Item.unseal_seal`.
-/

namespace ItemSeal

/-- No key that the context names is encrypted. -/
def SealConfig.KeysReadable {σ : Type} (config : SealConfig σ) : Prop :=
  ∀ key ∈ config.context.keyNames, config.policy.action key ≠ .encryptAndSign

/-- The keys that the provider hands out for that context in one world it finds again in the
other, from the same context and the description that it gave. -/
def MaterialsProvider.FindsAgain {σ : Type} (provider : MaterialsProvider σ)
    (context : EncryptionContext) (world later : σ) : Prop :=
  ∀ materials after, (provider.encryptionMaterials context).runFrom world =
    (.ok materials, after) →
    ∃ found last,
      (provider.decryptionMaterials context materials.description).runFrom later =
        (.ok found, last) ∧
        found.encryption = materials.encryption ∧ found.signing = materials.signing

/-- A fixed pair of keys is always found again. -/
theorem MaterialsProvider.findsAgain_ofKeys {σ : Type} (keys : RawKeys)
    (context : EncryptionContext) (world later : σ) :
    (MaterialsProvider.ofKeys keys).FindsAgain context world later := by
  intro materials after handedOut
  cases handedOut
  refine ⟨keys.materials, later, ?_, rfl, rfl⟩
  have own : MaterialDescription.raw.get? MaterialDescription.providerEntry =
      some MaterialDescription.rawProvider := rfl
  simp only [ofKeys, RawKeys.materials, own, if_true, Act.runFrom_pure]

/-- The keys of a table are readable under its configuration. -/
theorem SealConfig.keysReadable_forTable {σ : Type} {provider : MaterialsProvider σ}
    {policy : ActionPolicy} {schema : TableSchema} {config : SealConfig σ}
    (built : forTable provider policy schema = .ok config) : config.KeysReadable := by
  intro key member encrypted
  rw [SealConfig.action_of_mem_keyNames built member] at encrypted
  cases encrypted

namespace Item

section RoundTrip

variable {σ : Type} {config : SealConfig σ} {nonces : ItemNonces} {item stored : Item}
  {world after : σ}

/-- The hidden item is bound to the same context as the item, if the keys are readable. -/
theorem bind_hidden {key : Key} {hidden : Item} (readable : config.KeysReadable)
    (hides : changeEncrypted config.policy
      (fun name => hide key (nonces.content name) name) item = .ok hidden) :
    config.context.bind hidden = config.context.bind item :=
  EncryptionContext.bind_congr fun name member =>
    get?_changeEncrypted_of_ne hides (readable name member)

/-- Items that are sealed while the keys are readable come back settled, from any world in which
the provider finds the keys again. -/
theorem unsealWith_of_sealWith {later : σ} (readable : config.KeysReadable)
    (findsAgain : config.provider.FindsAgain (config.context.bind item) world later)
    (sealed : (sealWith config nonces item).runFrom world = (.ok stored, after)) :
    ∃ last, (unsealWith config stored).runFrom later =
      (.ok (item.settledUnder config.policy), last) := by
  cases protects : config.policy.protectsNothing with
  | true =>
      obtain ⟨noDescription, noSignature, -⟩ :=
        sealFault?_eq_none_iff.1 (sealWith_eq_ok_iff.1 sealed).1
      have unchanged : item.settledUnder config.policy = item := by
        apply Ascending.ext_get?
        intro name
        rw [settledUnder, Ascending.get?_mapEntries]
        simp [ActionPolicy.action_of_protectsNothing protects]
      rw [eq_of_protectsNothing protects sealed, unsealWith_of_unsealed noDescription noSignature,
        protects, unchanged]
      exact ⟨later, rfl⟩
  | false =>
      obtain ⟨materials, hidden, bytes, handedOut, hides, covers, rfl, taken⟩ :=
        exists_hidden_of_sealWith protects sealed
      obtain ⟨found, last, finds, sameEncryption, sameSigning⟩ :=
        findsAgain materials after handedOut
      rw [unsealWith_of_seal get?_description_withSeal get?_signature_withSeal
        (MaterialDescription.ofText?_text materials.description), taken,
        bind_hidden readable hides]
      have unseals : unsealUnder config.policy
          { config.context.bind item with description := materials.description } found
          (signature materials.signing nonces.signature bytes) hidden =
            .ok (item.settledUnder config.policy) := by
        rw [← sameSigning]
        apply unsealUnder_of_signature covers
        rw [sameEncryption]
        exact changeEncrypted_reveal_of_hide hides
      refine ⟨last, Act.runFrom_bind_eq_ok_iff.2 ⟨found, last, finds, ?_⟩⟩
      rw [Act.runFrom_liftM, unseals]

theorem names_settledUnder (policy : ActionPolicy) (item : Item) :
    (item.settledUnder policy).names = item.names := by
  rw [settledUnder, Ascending.names, Ascending.toList_mapEntries, List.map_map]
  rfl

theorem get?_settledUnder (policy : ActionPolicy) (item : Item) (name : String) :
    (item.settledUnder policy).get? name = (item.get? name).map fun value =>
      if policy.action name = .encryptAndSign then value.settled else value :=
  Ascending.get?_mapEntries _ item name

/-- What is sealed is unsealed with the same names and values, but for the flags of the nulls that
were encrypted: under every configuration with readable keys, in every world in which the provider
finds the keys again. The configurations of tables and the providers of fixed keys are such. -/
theorem unseal_seal :
    (∀ {config : SealConfig σ} {nonces : ItemNonces} {item stored : Item} {world after later : σ},
      config.KeysReadable →
      config.provider.FindsAgain (config.context.bind item) world later →
      (sealWith config nonces item).runFrom world = (.ok stored, after) →
        ∃ result last, (unsealWith config stored).runFrom later = (.ok result, last) ∧
          result.names = item.names ∧
          ∀ name value, item.get? name = some value → result.get? name = some
            (if config.policy.action name = .encryptAndSign then value.settled else value)) ∧
      (∀ {provider : MaterialsProvider σ} {policy : ActionPolicy} {schema : TableSchema}
        {config : SealConfig σ}, SealConfig.forTable provider policy schema = .ok config →
          config.KeysReadable) ∧
      ∀ (keys : RawKeys) (context : EncryptionContext) (world later : σ),
        (MaterialsProvider.ofKeys keys).FindsAgain context world later := by
  refine ⟨?_, SealConfig.keysReadable_forTable, MaterialsProvider.findsAgain_ofKeys⟩
  intro config nonces item stored world after later readable findsAgain sealed
  obtain ⟨last, unseals⟩ := unsealWith_of_sealWith readable findsAgain sealed
  refine ⟨_, last, unseals, names_settledUnder _ _, ?_⟩
  intro name value found
  rw [get?_settledUnder, found, Option.map_some]

end RoundTrip

namespace SampleOrder

-- An order whose lines are encrypted while its status is signed only.
def keys : RawKeys := ⟨⟨List.replicate 32 1, rfl⟩, ⟨List.replicate 32 2, rfl⟩⟩

def schema : TableSchema := { name := "Orders", primary := some ⟨"OrderId", none⟩ }

def policy : ActionPolicy := { explicit := NameMap.singleton "Status" .signOnly }

def config : SealConfig Unit := ⟨.ofKeys keys, .ofSchema schema, policy.withIndexKeys ["OrderId"]⟩

def nonces : ItemNonces := ⟨fun _ => ⟨List.replicate 12 0, rfl⟩, ⟨List.replicate 12 1, rfl⟩⟩

def order : Item :=
  NameMap.ofList [("OrderId", .string "1"), ("Lines", .list [.null false]),
    ("Status", .string "shipped")]

end SampleOrder

open SampleOrder in
theorem unseal_seal_sampleOrder :
    ∃ stored result, (sealWith config nonces order).runFrom () = (.ok stored, ()) ∧
      (unsealWith config stored).runFrom () = (.ok result, ()) ∧ result.names = order.names ∧
      result.get? "Status" = some (.string "shipped") ∧
      result.get? "Lines" = some (.list [.null true]) := by
  obtain ⟨roundTrip, readable, foundAgain⟩ := unseal_seal (σ := Unit)
  have built : SealConfig.forTable (.ofKeys keys) policy schema = .ok config := rfl
  have sealed : ∃ stored, (sealWith config nonces order).runFrom () = (.ok stored, ()) := ⟨_, rfl⟩
  obtain ⟨stored, sealed⟩ := sealed
  obtain ⟨result, last, unsealed, names, values⟩ :=
    roundTrip (readable built) (foundAgain keys _ _ ()) sealed
  exact ⟨stored, result, sealed, unsealed, names, values "Status" _ rfl, values "Lines" _ rfl⟩

end Item

end ItemSeal
