import ItemSeal.Cipher.Gcm
import ItemSeal.EncryptionContext
import ItemSeal.ServiceFailure

/-!
Services that keep a master key to themselves: they hand out new data keys together with a wrapped
form of them, and unwrap that form again.
-/

namespace ItemSeal

/-- A call of a service over a world of type `σ`. -/
abbrev Remote (σ : Type) := ExceptT ServiceFailure (StateM σ)

/-- The request for a new data key. -/
structure DataKeyRequest where
  /-- The master key to wrap it with. -/
  keyId : String
  /-- The number of bytes wanted. -/
  length : Nat
  /-- What the wrapped form is bound to. -/
  context : NameMap String
  deriving DecidableEq

/-- A new data key. -/
structure DataKey where
  plaintext : Option Bytes
  wrapped : Option Bytes
  deriving DecidableEq

/-- The request to unwrap a data key. -/
structure UnwrapRequest where
  keyId : String
  wrapped : Bytes
  context : NameMap String
  deriving DecidableEq

/-- A key service over a world of type `σ`. -/
structure KeyService (σ : Type) where
  generateDataKey : DataKeyRequest → Remote σ DataKey
  /-- The plaintext of a wrapped data key. -/
  decrypt : UnwrapRequest → Remote σ (Option Bytes)

end ItemSeal
