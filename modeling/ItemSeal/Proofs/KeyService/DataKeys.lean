import ItemSeal.MaterialsProvider
import ItemSeal.Proofs.Base64Reading
import ItemSeal.Proofs.Outcomes
import ItemSeal.Proofs.Sealing.ActLoops

/-!
Runs of the provider that has its data keys from a key service. Handing out keys is one call of
the service (`MaterialsProvider.runFrom_newKeys`), and so is finding them again, once the wrapped
key is read from the description (`MaterialsProvider.runFrom_oldKeys`); that wrapped key is the
one that the service gave (`MaterialsProvider.wrappedKey_wrapped`).
-/

namespace ItemSeal

/-- The answer to a call and the world that it leaves. -/
def Remote.runFrom {σ α : Type} (call : Remote σ α) (world : σ) : Except ServiceFailure α × σ :=
  call.run.run world

/-- The request for the data key of a new item. -/
def KeyId.newKeyRequest (keyId : KeyId) (context : EncryptionContext) : DataKeyRequest :=
  ⟨keyId.text, dataKeyLength, context.strings⟩

/-- The request to unwrap the data key of an item. -/
def KeyId.unwrapRequest (keyId : KeyId) (wrapped : Bytes) (context : EncryptionContext) :
    UnwrapRequest :=
  ⟨keyId.text, wrapped, context.strings⟩

namespace MaterialsProvider

variable {σ : Type} {service : KeyService σ} {keyId : KeyId} {context : EncryptionContext}
  {description : MaterialDescription} {world after : σ}

/-! ## New keys -/

theorem runFrom_newKeys (service : KeyService σ) (keyId : KeyId) (context : EncryptionContext)
    (world : σ) :
    ((ofKeyService service keyId).encryptionMaterials context).runFrom world =
      (((service.generateDataKey (keyId.newKeyRequest context)).runFrom world).1.mapError
          (ServiceFailure.keyError .encrypting) >>= newMaterials keyId,
        ((service.generateDataKey (keyId.newKeyRequest context)).runFrom world).2) :=
  Act.runFrom_bind_liftM _ (newMaterials keyId) world

theorem runFrom_oldKeys_of_unread {error : Error} (unread : wrappedKey description = .error error)
    (service : KeyService σ) (keyId : KeyId) (context : EncryptionContext) (world : σ) :
    ((ofKeyService service keyId).decryptionMaterials context description).runFrom world =
      (.error error, world) := by
  apply Act.runFrom_bind_of_error
  rw [Act.runFrom_liftM, unread]

theorem runFrom_oldKeys {wrapped : Bytes} (reads : wrappedKey description = .ok wrapped)
    (service : KeyService σ) (keyId : KeyId) (context : EncryptionContext) (world : σ) :
    ((ofKeyService service keyId).decryptionMaterials context description).runFrom world =
      (((service.decrypt (keyId.unwrapRequest wrapped context)).runFrom world).1.mapError
          (ServiceFailure.keyError .decrypting) >>= oldMaterials description,
        ((service.decrypt (keyId.unwrapRequest wrapped context)).runFrom world).2) := by
  have readsHere :
      (liftM (wrappedKey description) : Act σ Bytes).runFrom world = (.ok wrapped, world) := by
    rw [Act.runFrom_liftM, reads]
  exact (Act.runFrom_bind_of_ok readsHere).trans
    (Act.runFrom_bind_liftM _ (oldMaterials description) world)

end MaterialsProvider

end ItemSeal
