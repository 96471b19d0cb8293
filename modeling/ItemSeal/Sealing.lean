import ItemSeal.Coverage
import ItemSeal.Json.Parser
import ItemSeal.Json.Printer
import ItemSeal.SealConfig

/-!
Sealing an item encrypts what is to be encrypted, each attribute under its own name, and signs
the outcome. The seal, a description of the keys and the signature, is kept in two attributes of
reserved names. Unsealing checks the signature and decrypts. Items of a table in which nothing
is protected have no seal.

The cipher takes no more than `2 ^ 36` bytes at once, and that is a side condition here: for an
attribute whose serialized value is longer, or an item with more bytes to be signed, the cipher
would refuse, and sealing fail as an error of encryption, where these definitions go on.
-/

namespace ItemSeal

/-- The nonces for one item. -/
structure ItemNonces where
  /-- The nonce of each attribute that is encrypted. -/
  content : String → Nonce
  signature : Nonce

/-! ## The description as text -/

namespace MaterialDescription

/-- The description as a JSON object of texts, in the order of the names. -/
def text (description : MaterialDescription) : String :=
  (Json.object (description.toList.map fun (name, value) => (name, .string value))).print

/-- The description that a JSON document is: an object of texts. -/
def ofJson? (json : Json) : Option MaterialDescription := do
  let entries ← (← json.object?).mapM fun (name, value) => do return (name, ← value.string?)
  return NameMap.ofList entries

/-- The description that a text holds. -/
def ofText? (text : String) : Option MaterialDescription :=
  Json.parse? text >>= ofJson?

end MaterialDescription

namespace Item

/-- The attribute that holds the description of the keys. -/
def descriptionName : String := "*amzn-ddb-map-desc*"

/-- The attribute that holds the signature. -/
def signatureName : String := "*amzn-ddb-map-sig*"

/-- The name is kept for the seal. -/
def isReserved (name : String) : Bool :=
  name == descriptionName || name == signatureName

/-! ## Single attributes -/

/-- An attribute encrypted: the nonce, then the serialized value under the name. The cipher is
taken not to fail, as it does not below `2 ^ 36` bytes. -/
def hide (key : Key) (nonce : Nonce) (name : String) (value : AttributeValue) :
    Except Error AttributeValue := do
  let plain ← value.serialize.mapError .unencodable
  return .binary (nonce.bytes ++ Gcm.encrypt key nonce plain (Bytes.ofString name))

/-- An encrypted attribute decrypted. -/
def reveal (key : Key) (name : String) : AttributeValue → Except Error AttributeValue
  | .binary stored =>
      match Nonce.split? stored with
      | none => .error (.attributeTruncated name)
      | some (nonce, hidden) =>
          match Gcm.decrypt? key nonce hidden (Bytes.ofString name) with
          | none => .error (.attributeUndecryptable name)
          | some plain => (AttributeValue.deserialize plain).mapError .undecodable
  | _ => .error (.attributeNotBinary name)

/-- Changes the attributes that are to be encrypted and keeps the others. -/
def changeEncrypted (policy : ActionPolicy)
    (change : String → AttributeValue → Except Error AttributeValue) (item : Item) :
    Except Error Item :=
  item.mapEntriesM fun name value =>
    if policy.action name = .encryptAndSign then change name value else .ok value

/-! ## Signatures -/

/-- The bytes that an item's signature covers. -/
def covered (policy : ActionPolicy) (context : EncryptionContext) (item : Item) :
    Except Error Bytes :=
  (Coverage.ofItem policy context item).bytes.mapError .unencodable

/-- The signature of bytes: the nonce, then a tag over them. The cipher is taken not to fail, as
it does not below `2 ^ 36` bytes. -/
def signature (key : Key) (nonce : Nonce) (bytes : Bytes) : Bytes :=
  nonce.bytes ++ Gcm.encrypt key nonce [] bytes

/-- The signature is one of these bytes. -/
def verifies (key : Key) (nonce : Nonce) (tag bytes : Bytes) : Bool :=
  (Gcm.decrypt? key nonce tag bytes).isSome

/-- The item has that signature, or the reason why it does not. -/
def checkSignature (policy : ActionPolicy) (context : EncryptionContext) (key : Key)
    (signature : Bytes) (item : Item) : Except Error Unit :=
  match Nonce.split? signature with
  | none | some (_, []) => .error .signatureTruncated
  | some (nonce, tag) => do
      let bytes ← covered policy context item
      if verifies key nonce tag bytes then return () else throw .signatureMismatch

/-! ## Whole items -/

/-- The item sealed with these keys, the context being bound to it. -/
def sealUnder (policy : ActionPolicy) (context : EncryptionContext) (materials : KeyMaterials)
    (nonces : ItemNonces) (item : Item) : Except Error Item := do
  let hidden ← changeEncrypted policy
    (fun name => hide materials.encryption (nonces.content name) name) item
  let bytes ← covered policy { context with description := materials.description } hidden
  let described := NameMap.insert hidden descriptionName (.string materials.description.text)
  return NameMap.insert described signatureName
    (.binary (signature materials.signing nonces.signature bytes))

/-- The item without its seal, unsealed with these keys. -/
def unsealUnder (policy : ActionPolicy) (context : EncryptionContext) (materials : KeyMaterials)
    (signature : Bytes) (item : Item) : Except Error Item := do
  checkSignature policy context materials.signing signature item
  changeEncrypted policy (reveal materials.encryption) item

/-- Why an item cannot be sealed at all: it has a reserved name, or lacks a key. -/
def sealFault? (context : EncryptionContext) (item : Item) : Option Error :=
  match item.names.find? isReserved with
  | some name => some (.reservedName name)
  | none => (context.keyNames.find? fun key => !item.contains key).map .missingKeyAttribute

/-- The item sealed. -/
def sealWith {σ : Type} (config : SealConfig σ) (nonces : ItemNonces) (item : Item) :
    Act σ Item :=
  match sealFault? config.context item with
  | some error => throw error
  | none =>
      if config.policy.protectsNothing then return item
      else do
        let context := config.context.bind item
        let materials ← config.provider.encryptionMaterials context
        sealUnder config.policy context materials nonces item

/-- The item without the two reserved attributes. -/
def withoutSeal (item : Item) : Item :=
  (item.erase descriptionName).erase signatureName

/-- The item unsealed. -/
def unsealWith {σ : Type} (config : SealConfig σ) (item : Item) : Act σ Item :=
  match item.get? descriptionName, item.get? signatureName with
  | none, none => if config.policy.protectsNothing then return item else throw .unsigned
  | some (.string text), some (.binary signature) =>
      match MaterialDescription.ofText? text with
      | none => throw (.descriptionUnreadable text)
      | some description => do
          let body := item.withoutSeal
          let context := config.context.bind body
          let materials ← config.provider.decryptionMaterials context description
          unsealUnder config.policy { context with description } materials signature body
  | _, _ => throw .malformedSeal

end Item

end ItemSeal
