import ItemSeal.Act
import ItemSeal.KeyService
import ItemSeal.Text.Blank

/-!
Where the keys of an item come from. A provider hands out two keys for a new item, with a
description by which it finds them again when the item is read. One kind always hands out the
same two keys; the other has a key service make a data key for each item, and keeps its
wrapped form in the description.
-/

namespace ItemSeal

/-- The keys of one item. -/
structure KeyMaterials where
  /-- The key that attributes are encrypted with. -/
  encryption : Key
  /-- The key of the signature. -/
  signing : Key
  description : MaterialDescription
  deriving DecidableEq

/-- The materials as they may be shown: the description alone, never the keys. -/
def KeyMaterials.shown (materials : KeyMaterials) : String :=
  let entry := fun (name, value) => Text.quoted name ++ ": " ++ Text.quoted value
  "CryptographicMaterials \x7b material_description: \x7b" ++
    Text.commaSeparated (materials.description.toList.map entry) ++ "\x7d, .. \x7d"

/-- A source of keys over a world of type `σ`. -/
structure MaterialsProvider (σ : Type) where
  /-- The keys of a new item. -/
  encryptionMaterials : EncryptionContext → Act σ KeyMaterials
  /-- The keys of an item with that description. -/
  decryptionMaterials : EncryptionContext → MaterialDescription → Act σ KeyMaterials

namespace MaterialDescription

/-- The entry that tells which kind of provider wrote an item. -/
def providerEntry : String := "amzn-ddb-provider"

/-- The entry of the wrapped data key. -/
def wrappedKeyEntry : String := "amzn-ddb-wrapped-key"

/-- The entry of the master key. -/
def keyIdEntry : String := "amzn-ddb-kms-key-id"

/-- The kind of provider that has its keys itself. -/
def rawProvider : String := "raw"

/-- The kind of provider that uses a key service. -/
def kmsProvider : String := "aws-kms"

/-- The description that a provider with its own keys writes. -/
def raw : MaterialDescription :=
  NameMap.singleton providerEntry rawProvider

/-- The description of a wrapped data key. -/
def wrapped (keyId : String) (key : Bytes) : MaterialDescription :=
  NameMap.ofList [(providerEntry, kmsProvider), (keyIdEntry, keyId),
    (wrappedKeyEntry, Base64.encode key)]

end MaterialDescription

/-! ## A fixed pair of keys -/

/-- A fixed pair of keys. -/
structure RawKeys where
  encryption : Key
  signing : Key
  deriving DecidableEq

namespace RawKeys

/-- What is shown in place of a pair of keys. -/
def shown : String :=
  "RawMaterialsProvider \x7b .. \x7d"

/-- The key that these bytes are, or the report of their length. -/
def key (role : String) (bytes : Bytes) : Except Error Key :=
  match Key.ofBytes? bytes with
  | some key => .ok key
  | none => .error (.keyLength role bytes.length)

/-- The pair of keys with these bytes. -/
def ofBytes (encryption signing : Bytes) : Except Error RawKeys := do
  let encryption ← key "encryption key" encryption
  let signing ← key "signing key" signing
  return { encryption, signing }

/-- The materials of every item. -/
def materials (keys : RawKeys) : KeyMaterials where
  encryption := keys.encryption
  signing := keys.signing
  description := .raw

end RawKeys

/-- The provider of a fixed pair of keys. It reads only items that such a provider wrote. -/
def MaterialsProvider.ofKeys {σ : Type} (keys : RawKeys) : MaterialsProvider σ where
  encryptionMaterials _ := return keys.materials
  decryptionMaterials _ description :=
    let provider := description.get? MaterialDescription.providerEntry
    if provider = some MaterialDescription.rawProvider then return keys.materials
    else throw (.foreignProvider provider)

/-! ## Data keys of a key service -/

/-- The name of a master key: any text that is not blank. -/
structure KeyId where
  text : String
  notBlank : Text.isBlank text = false
  deriving DecidableEq

/-- The master key of that name. -/
def KeyId.ofText (text : String) : Except Error KeyId :=
  if h : Text.isBlank text = false then .ok ⟨text, h⟩ else .error .blankKeyId

/-- The length of a data key: two keys one after the other. -/
def dataKeyLength : Nat := 64

/-- The two keys in a data key: the one to encrypt with, then the one to sign with. -/
def splitDataKey? (plaintext : Bytes) : Option RawKeys :=
  if h : plaintext.length = dataKeyLength then
    some ⟨⟨plaintext.take 32, by simp [h, dataKeyLength]⟩,
      ⟨plaintext.drop 32, by simp [h, dataKeyLength]⟩⟩
  else none

namespace MaterialsProvider

/-- A call of the key service, its failures being errors of that use. -/
def remote {σ α : Type} (use : KeyUse) (call : Remote σ α) : Act σ α :=
  ExceptT.mk do return (← call.run).mapError (ServiceFailure.keyError use)

/-- The materials of a new data key. -/
def newMaterials (keyId : KeyId) (dataKey : DataKey) : Except Error KeyMaterials :=
  match dataKey.plaintext, dataKey.wrapped with
  | none, _ => .error .noNewDataKey
  | some _, none => .error .noNewWrappedKey
  | some plaintext, some wrapped =>
      match splitDataKey? plaintext with
      | some keys => .ok ⟨keys.encryption, keys.signing, .wrapped keyId.text wrapped⟩
      | none => .error (.newDataKeyLength plaintext.length)

/-- The wrapped data key in a description. -/
def wrappedKey (description : MaterialDescription) : Except Error Bytes :=
  match description.get? MaterialDescription.wrappedKeyEntry with
  | none => .error .noWrappedKey
  | some text => (Base64.decode text).mapError .wrappedKeyNotBase64

/-- The materials of an unwrapped data key. -/
def oldMaterials (description : MaterialDescription) (plaintext : Option Bytes) :
    Except Error KeyMaterials :=
  match plaintext with
  | none => .error .noDataKey
  | some plaintext =>
      match splitDataKey? plaintext with
      | some keys => .ok ⟨keys.encryption, keys.signing, description⟩
      | none => .error (.dataKeyLength plaintext.length)

/-- The provider of data keys that a key service wraps with a master key, bound to the context. -/
def ofKeyService {σ : Type} (service : KeyService σ) (keyId : KeyId) : MaterialsProvider σ where
  encryptionMaterials context := do
    let dataKey ← remote .encrypting
      (service.generateDataKey ⟨keyId.text, dataKeyLength, context.strings⟩)
    newMaterials keyId dataKey
  decryptionMaterials context description := do
    let wrapped ← wrappedKey description
    let plaintext ← remote .decrypting (service.decrypt ⟨keyId.text, wrapped, context.strings⟩)
    oldMaterials description plaintext

end MaterialsProvider

end ItemSeal
