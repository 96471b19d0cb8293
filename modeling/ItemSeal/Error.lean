import ItemSeal.AttributeValue.Codec
import ItemSeal.Bytes.Base64
import ItemSeal.Text.Quoted

/-!
What can go wrong, by cause. `Error.kind` sorts the causes into the kinds that callers act on, and
`Error.message` words them. What is wrong with a text that is no description is worded by the
reader of JSON, of which `Error.message` takes the words.
-/

namespace ItemSeal

/-- The kinds of error that a caller tells apart. -/
inductive ErrorKind where
  /-- The provider, the keys or the settings are unusable. -/
  | configuration
  /-- The key schema of a table is not to be had. -/
  | schemaUnavailable
  /-- The request is malformed. -/
  | validation
  | encryption
  | decryption
  /-- The signature is missing or does not match. -/
  | integrity
  | missingAttribute
  | notFound
  | inUse
  | conditionFailed
  | throughput
  | accessDenied
  | credentials
  | connection
  | service
  deriving DecidableEq, Repr

/-- The two services that are called. -/
inductive Service where
  | dynamoDB
  | kms
  deriving DecidableEq, Repr

/-- The name of a service in messages. -/
def Service.name : Service → String
  | .dynamoDB => "DynamoDB"
  | .kms => "KMS"

/-- What a data key is asked for. -/
inductive KeyUse where
  | encrypting
  | decrypting
  deriving DecidableEq, Repr

/-- Why the key service does not do its part. -/
inductive KeyRefusal where
  | notFound
  | disabled
  | wrongUsage
  | unavailable
  /-- Anything else, as the service words it. -/
  | failed (text : String)
  deriving DecidableEq, Repr

/-- An error, by its cause. -/
inductive Error where
  /-- A key of this role has the wrong length. -/
  | keyLength (role : String) (length : Nat)
  | blankKeyId
  /-- Only one of the two static credentials is set. -/
  | halfCredentials
  /-- A timeout is zero or negative; its seconds as text. -/
  | timeoutNotPositive (setting seconds : String)
  /-- A timeout is too long or not a number; its seconds as text. -/
  | timeoutTooLong (setting seconds : String)
  /-- A table could not be described. -/
  | describeFailed (table : String) (cause : Error)
  /-- A table's description names no partition key. -/
  | noPartitionKey (table : String)
  /-- A table's schema does not say what its primary index is. -/
  | primaryUnknown (table : String)
  /-- A table's schema is not cached and may not be looked up. -/
  | notCached (table : String)
  | attributesToGet
  | projection
  /-- A selection that drops attributes, by its name. -/
  | selection (name : String)
  /-- A request is for another table than the facade's. -/
  | otherTable (requested own : String)
  | putWithoutItem
  /-- The service refuses a request, in its own words. -/
  | invalidRequest (text : String)
  /-- An item to be sealed has an attribute of a name that sealing uses. -/
  | reservedName (name : String)
  | unencodable (cause : EncodeError)
  | keyRefused (use : KeyUse) (refusal : KeyRefusal)
  /-- A new data key came without its plaintext. -/
  | noNewDataKey
  /-- A new data key came without its wrapped form. -/
  | noNewWrappedKey
  /-- A new data key has the wrong length. -/
  | newDataKeyLength (length : Nat)
  | undecodable (cause : DecodeError)
  | attributeNotBinary (name : String)
  | attributeTruncated (name : String)
  | attributeUndecryptable (name : String)
  /-- The material description names another provider, or none. -/
  | foreignProvider (provider : Option String)
  | noWrappedKey
  | wrappedKeyNotBase64 (fault : Base64.Fault)
  | wrappedKeyInvalid
  | wrongKey
  /-- An unwrapped data key came without its plaintext. -/
  | noDataKey
  /-- An unwrapped data key has the wrong length. -/
  | dataKeyLength (length : Nat)
  | unsigned
  /-- One of the two reserved attributes is missing or of the wrong type. -/
  | malformedSeal
  /-- The material description is this text, which cannot be read as one. -/
  | descriptionUnreadable (text : String)
  | signatureTruncated
  | signatureMismatch
  | missingKeyAttribute (name : String)
  | tableNotFound (table : String)
  | resourceNotFound
  | noDescription (table : String)
  | tableInUse (table : String)
  | resourceInUse
  | conditionFailed
  | rateTooHigh (service : Service)
  /-- Access is denied, in the service's words if it has any. -/
  | accessDenied (service : Service) (text : Option String)
  | noCredentials
  | invalidCredentials
  | expiredCredentials
  | timedOut (service : Service)
  | inputOutputFailed (service : Service)
  | connectionFailed (service : Service)
  /-- The request could not be built, for this reason. -/
  | requestUnbuildable (source : String)
  /-- The response makes no sense, for this reason. -/
  | responseInvalid (service : Service) (source : String)
  /-- The service fails, in its own words. -/
  | serviceFailed (text : String)
  /-- An error of some kind as a store reports it. -/
  | reported (kind : ErrorKind) (text : String)
  deriving DecidableEq, Repr

namespace Error

/-- The kind of an error. -/
def kind : Error → ErrorKind
  | .keyLength .. | .blankKeyId | .halfCredentials | .timeoutNotPositive ..
  | .timeoutTooLong .. => .configuration
  | .describeFailed .. | .noPartitionKey _ | .primaryUnknown _
  | .notCached _ => .schemaUnavailable
  | .attributesToGet | .projection | .selection _ | .otherTable .. | .putWithoutItem
  | .invalidRequest _ => .validation
  | .reservedName _ | .unencodable _ | .keyRefused .encrypting _ | .noNewDataKey
  | .noNewWrappedKey | .newDataKeyLength _ => .encryption
  | .keyRefused .decrypting _ | .undecodable _ | .attributeNotBinary _ | .attributeTruncated _
  | .attributeUndecryptable _ | .foreignProvider _ | .noWrappedKey | .wrappedKeyNotBase64 _
  | .wrappedKeyInvalid | .wrongKey | .noDataKey | .dataKeyLength _ => .decryption
  | .unsigned | .malformedSeal | .descriptionUnreadable _ | .signatureTruncated
  | .signatureMismatch => .integrity
  | .missingKeyAttribute _ => .missingAttribute
  | .tableNotFound _ | .resourceNotFound | .noDescription _ => .notFound
  | .tableInUse _ | .resourceInUse => .inUse
  | .conditionFailed => .conditionFailed
  | .rateTooHigh _ => .throughput
  | .accessDenied .. => .accessDenied
  | .noCredentials | .invalidCredentials | .expiredCredentials => .credentials
  | .timedOut _ | .inputOutputFailed _ | .connectionFailed _ => .connection
  | .requestUnbuildable _ | .responseInvalid .. | .serviceFailed _ => .service
  | .reported kind _ => kind

/-- What the key service did not do. -/
def refusalText : KeyRefusal → String
  | .notFound => "KMS key not found."
  | .disabled => "KMS key is disabled."
  | .wrongUsage => "KMS key cannot be used for this operation."
  | .unavailable => "KMS key is not available."
  | .failed text => s!"KMS operation failed: {text}"

/-- The name of a provider in quotes, marked as present or absent. -/
def providerText : Option String → String
  | some provider => s!"Some({Text.quoted provider})"
  | none => "None"

/-- The particulars of a kind of error, after the words that name the kind. -/
def withKind (kind : ErrorKind) (text : String) : String :=
  match kind with
  | .configuration => s!"configuration error: {text}"
  | .validation => s!"validation error: {text}"
  | .encryption => s!"encryption failed: {text}"
  | .decryption => s!"decryption failed: {text}"
  | .integrity => s!"item integrity check failed: {text}"
  | .missingAttribute => s!"no such attribute: {text}"
  | .conditionFailed => "the condition expression evaluated to false"
  | .schemaUnavailable | .notFound | .inUse | .throughput | .accessDenied | .credentials
  | .connection | .service => text

/-- The particulars of an unavailable schema. -/
def schemaText (table reason : String) : String :=
  s!"table info unavailable for '{table}': {reason}"

/-- The wording of an error; `complaint` is what the reader of JSON says of a text
that is no description. -/
def message (error : Error) (complaint : String → String) : String :=
  withKind error.kind <|
    match error with
    | .keyLength role length => s!"{role} must be 32 bytes, got {length}"
    | .blankKeyId => "KMS key id must not be empty"
    | .halfCredentials => "access_key and secret_key must be set together"
    | .timeoutNotPositive setting seconds =>
        s!"{setting} must be a positive number of seconds, got {seconds}"
    | .timeoutTooLong setting seconds =>
        s!"invalid {setting} of {seconds} seconds: " ++
          "cannot convert float seconds to Duration: value is either too big or NaN"
    | .describeFailed table cause => schemaText table (cause.message complaint)
    | .noPartitionKey table => schemaText table "table description has no HASH key"
    | .primaryUnknown table => schemaText table "primary index is unknown"
    | .notCached table => schemaText table "table is not cached and auto refresh is disabled"
    | .attributesToGet => "AttributesToGet cannot be used on encrypted tables"
    | .projection => "ProjectionExpression cannot be used on encrypted tables"
    | .selection name => s!"Select Some({name}) cannot be used on encrypted tables"
    | .otherTable requested own =>
        s!"request targets table '{requested}' but this facade wraps '{own}'"
    | .putWithoutItem => "put_item requires an item"
    | .invalidRequest text => text
    | .reservedName name => s!"reserved attribute name '{name}' found in item"
    | .unencodable cause => cause.message
    | .keyRefused _ refusal => refusalText refusal
    | .noNewDataKey => "No plaintext data key returned from KMS"
    | .noNewWrappedKey => "No wrapped data key returned from KMS"
    | .newDataKeyLength length =>
        s!"decryption failed: KMS data key has unexpected length {length}"
    | .undecodable cause => cause.message
    | .attributeNotBinary name => s!"encrypted attribute '{name}' is not binary"
    | .attributeTruncated name => s!"encrypted attribute '{name}' is truncated"
    | .attributeUndecryptable name => s!"failed to decrypt attribute '{name}'"
    | .foreignProvider provider =>
        s!"item was not written by a raw provider (provider: {providerText provider})"
    | .noWrappedKey => "material description has no wrapped key"
    | .wrappedKeyNotBase64 fault => s!"Invalid base64 in wrapped key: {fault.message}"
    | .wrappedKeyInvalid => "Invalid wrapped data key. Data may be corrupted."
    | .wrongKey => "Wrong KMS key used for decryption."
    | .noDataKey => "No plaintext returned from KMS"
    | .dataKeyLength length => s!"KMS data key has unexpected length {length}"
    | .unsigned => "item is missing its signature and material description"
    | .malformedSeal => "material description or signature is missing or malformed"
    | .descriptionUnreadable text => s!"invalid material description: {complaint text}"
    | .signatureTruncated => "signature is truncated"
    | .signatureMismatch => "signature does not match item"
    | .missingKeyAttribute name => s!"item is missing key attribute '{name}'"
    | .tableNotFound table => s!"Table '{table}' not found"
    | .resourceNotFound => "Resource not found"
    | .noDescription table => s!"Table '{table}' has no description"
    | .tableInUse table => s!"Table '{table}' is in use"
    | .resourceInUse => "Resource already in use"
    | .conditionFailed => ""
    | .rateTooHigh service => s!"{service.name} request rate too high."
    | .accessDenied service text =>
        let reason := text.getD "Check your IAM permissions."
        s!"Access denied to {service.name}: {reason}"
    | .noCredentials =>
        "No AWS credentials found. Configure credentials via environment variables, " ++
          "an AWS profile, or an IAM role."
    | .invalidCredentials => "Invalid AWS credentials. Check your access key and secret."
    | .expiredCredentials => "AWS credentials have expired. Refresh your session token."
    | .timedOut service => s!"Connection timed out to {service.name}."
    | .inputOutputFailed service => s!"Connection failed to {service.name} (I/O error)."
    | .connectionFailed service => s!"Connection failed to {service.name}."
    | .requestUnbuildable source => s!"Failed to build request: {source}"
    | .responseInvalid service source => s!"Invalid response from {service.name}: {source}"
    | .serviceFailed text => text
    | .reported _ text => text

end Error

end ItemSeal
