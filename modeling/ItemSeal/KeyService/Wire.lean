import ItemSeal.AttributeValue.JsonForm
import ItemSeal.Service.Transport

/-!
A key service at the other end of a transport.
-/

namespace ItemSeal.KeyService

/-- An error of that code whose body has nothing but words. -/
def plainError (code : String) (title : String := code) : KnownError where
  code
  shape := .record [("message", .text)]
  title

/-- The errors that both operations are known to give. -/
def knownErrors : List KnownError :=
  [plainError "KMSInternalException" "KmsInternalException [KMSInternalException]",
    plainError "KMSInvalidStateException"
      "KmsInvalidStateException [KMSInvalidStateException]"] ++
  ["DependencyTimeoutException", "DisabledException", "DryRunOperationException",
    "InvalidGrantTokenException", "InvalidKeyUsageException", "KeyUnavailableException",
    "NotFoundException"].map plainError

/-- The context as a member; an empty one is left out. -/
def contextMember (context : NameMap String) : List (String × Json) :=
  if context.size = 0 then [] else [("EncryptionContext", .ofMap .string context)]

/-- The body of a request for a data key. -/
def dataKeyBody (request : DataKeyRequest) : Json :=
  .object ([("KeyId", .string request.keyId), ("NumberOfBytes", .ofNat request.length)] ++
    contextMember request.context)

/-- The data key in a body. -/
def dataKey? (body : Json) : Option DataKey := do
  let plaintext ← body.within? "Plaintext" (Json.bytes? .base64)
  let wrapped ← body.within? "CiphertextBlob" (Json.bytes? .base64)
  return { plaintext, wrapped }

/-- The body of a request to unwrap a data key. -/
def unwrapBody (request : UnwrapRequest) : Json :=
  .object ([("KeyId", .string request.keyId),
    ("CiphertextBlob", .string (Base64.encode request.wrapped))] ++ contextMember request.context)

/-- The operation that gives new data keys. -/
def generateOperation : Operation DataKey where
  target := "TrentService.GenerateDataKey"
  shape := .record (Shape.texts ["KeyId", "KeyMaterialId"] ++
    ["CiphertextBlob", "Plaintext", "CiphertextForRecipient"].map (·, .bytes))
  decode := dataKey?
  known := knownErrors

/-- The operation that unwraps data keys. -/
def decryptOperation : Operation (Option Bytes) where
  target := "TrentService.Decrypt"
  shape := .record (Shape.texts ["KeyId", "EncryptionAlgorithm", "KeyMaterialId"] ++
    ["Plaintext", "CiphertextForRecipient"].map (·, .bytes))
  decode body := body.within? "Plaintext" (Json.bytes? .base64)
  known := ["IncorrectKeyException", "InvalidCiphertextException"].map plainError ++ knownErrors

/-- The key service at the other end. -/
def ofTransport {σ : Type} (transport : Transport σ) : KeyService σ where
  generateDataKey request := transport.call generateOperation (dataKeyBody request)
  decrypt request := transport.call decryptOperation (unwrapBody request)

end ItemSeal.KeyService
