import ItemSeal.Error

/-!
How a call of a service goes wrong, and which error it is then. What a caller gets depends on the
class of the failure and, where the service itself refuses, on the code that it gives.
-/

namespace ItemSeal

/-- Why a request did not get through. -/
inductive DeliveryFault where
  | timedOut
  | inputOutput
  | other
  deriving DecidableEq, Repr

/-- What a service says when it refuses. -/
structure Refusal where
  code : Option String := none
  /-- The service's own words. -/
  message : Option String := none
  /-- The name of the error, if the operation is known to give errors of this code. -/
  known : Option String := none
  deriving DecidableEq, Repr

/-- The words for a refusal: the service's own, else the name of a known
error, else the bare code. -/
def Refusal.text (refusal : Refusal) : String :=
  match refusal.message, refusal.known, refusal.code with
  | some message, _, _ => message
  | none, some name, _ => name
  | none, none, some code => s!"unhandled error ({code})"
  | none, none, none => "unhandled error"

/-- How a call went wrong. Reasons are in constructor notation. -/
inductive ServiceFailure where
  /-- The request could not be built. -/
  | unbuilt (reason : String)
  /-- The call as a whole took too long. -/
  | timedOut
  /-- The request did not get through. -/
  | undelivered (fault : DeliveryFault)
  /-- The response could not be made sense of. -/
  | unreadable (reason : String)
  /-- The service refused. -/
  | refused (refusal : Refusal)
  deriving DecidableEq, Repr

/-- The characters occur in the others, next to each other. -/
def Text.occursWithin (part : List Char) : List Char → Bool
  | [] => part.isEmpty
  | c :: rest => part.isPrefixOf (c :: rest) || Text.occursWithin part rest

/-- The text occurs in the other. -/
def Text.occursIn (part text : String) : Bool :=
  Text.occursWithin part.toList text.toList

namespace ServiceFailure

/-- The report of a request that could not be built. -/
def unbuiltText (reason : String) : String :=
  "ConstructionFailure \x7b source: " ++ reason ++ " \x7d"

/-- The report of a response without sense. -/
def unreadableText (reason : String) : String :=
  "ResponseError \x7b source: " ++ reason ++ ", raw: () \x7d"

/-- The error of a request that could not be built: missing credentials
show in the report alone. -/
def unbuiltError (reason : String) : Error :=
  if Text.occursIn "credentials" (unbuiltText reason) ||
      Text.occursIn "Credentials" (unbuiltText reason) then .noCredentials
  else .requestUnbuildable (unbuiltText reason)

/-- The error of a request that did not get through. -/
def deliveryError (service : Service) : DeliveryFault → Error
  | .timedOut => .timedOut service
  | .inputOutput => .inputOutputFailed service
  | .other => .connectionFailed service

/-- The error of a code that all services give. -/
def commonError? (service : Service) (refusal : Refusal) : Option Error :=
  match refusal.code with
  | some "UnrecognizedClientException" => some .invalidCredentials
  | some "ExpiredTokenException" | some "ExpiredToken" => some .expiredCredentials
  | some "AccessDeniedException" | some "AccessDenied" =>
      some (.accessDenied service refusal.message)
  | some "ProvisionedThroughputExceededException" | some "LimitExceededException"
  | some "RequestLimitExceeded" | some "ThrottlingException" => some (.rateTooHigh service)
  | _ => none

/-- The error of a code that the store gives for a request about that table. -/
def storeRefusal (table : Option String) (refusal : Refusal) : Error :=
  match refusal.code with
  | some "ResourceNotFoundException" => (table.map Error.tableNotFound).getD .resourceNotFound
  | some "ResourceInUseException" => (table.map Error.tableInUse).getD .resourceInUse
  | some "ValidationException" => .invalidRequest refusal.text
  | some "ConditionalCheckFailedException" => .conditionFailed
  | _ => .serviceFailed refusal.text

/-- The error of a code that the key service gives. -/
def keyRefusal (use : KeyUse) (refusal : Refusal) : Error :=
  match refusal.code with
  | some "NotFoundException" => .keyRefused use .notFound
  | some "DisabledException" => .keyRefused use .disabled
  | some "InvalidKeyUsageException" => .keyRefused use .wrongUsage
  | some "KeyUnavailableException" => .keyRefused use .unavailable
  | some "InvalidCiphertextException" => .wrappedKeyInvalid
  | some "IncorrectKeyException" => .wrongKey
  | _ => .keyRefused use (.failed refusal.text)

/-- The error of a failed call, given the errors of the service's own codes. -/
def errorBy (service : Service) (ofRefusal : Refusal → Error) : ServiceFailure → Error
  | .unbuilt reason => unbuiltError reason
  | .timedOut => .timedOut service
  | .undelivered fault => deliveryError service fault
  | .unreadable reason => .responseInvalid service (unreadableText reason)
  | .refused refusal => (commonError? service refusal).getD (ofRefusal refusal)

/-- The error of a failed call of the store, about that table. -/
def storeError (table : Option String) (failure : ServiceFailure) : Error :=
  failure.errorBy .dynamoDB (storeRefusal table)

/-- The error of a failed call of the key service. -/
def keyError (use : KeyUse) (failure : ServiceFailure) : Error :=
  failure.errorBy .kms (keyRefusal use)

end ServiceFailure

end ItemSeal
