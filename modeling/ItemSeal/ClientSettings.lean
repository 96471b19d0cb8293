import ItemSeal.Binary64.Text
import ItemSeal.Endpoint
import ItemSeal.Error
import ItemSeal.Region

/-!
Settings of the clients of both services: where they come from, what makes them unusable, and what
a client built from them uses.
-/

namespace ItemSeal

/-- The part of the environment that settings are taken from. -/
structure Environment where
  region : Option String := none
  defaultRegion : Option String := none
  profile : Option String := none
  endpoint : Option String := none
  deriving DecidableEq, Repr

/-- The region that the environment names. -/
def Environment.anyRegion (environment : Environment) : Option String :=
  environment.region <|> environment.defaultRegion

/-- The settings of a client. -/
structure ClientSettings where
  region : Option String := none
  accessKey : Option String := none
  secretKey : Option String := none
  sessionToken : Option String := none
  profile : Option String := none
  endpoint : Option String := none
  /-- In seconds. -/
  connectTimeout : Option Binary64 := none
  /-- In seconds. -/
  readTimeout : Option Binary64 := none
  maxRetries : Option UInt32 := none
  deriving DecidableEq, Repr

namespace ClientSettings

/-! ## Where settings come from -/

/-- The settings in the environment. -/
def ofEnvironment (environment : Environment) : ClientSettings where
  region := environment.anyRegion
  profile := environment.profile
  endpoint := environment.endpoint

/-- The names of the settings, in the order in which a list gives them. -/
def names : List String :=
  ["region", "access_key", "secret_key", "session_token", "profile", "endpoint_url",
    "connect_timeout", "read_timeout", "max_retries"]

/-- A number of seconds: any number. -/
def seconds? : Json → Option Binary64
  | .number n => some (.ofJsonNumber n)
  | _ => none

/-- A number of retries: an integer of 32 bits; a zero with a minus sign is none. -/
def retries? : Json → Option UInt32
  | .number (.integer false n) => if n < UInt32.size then some (UInt32.ofNat n) else none
  | _ => none

/-- The settings in a JSON object; members of other names are passed over. -/
def ofObject? (json : Json) : Option ClientSettings := do
  return {
    region := ← json.within? "region" Json.string?
    accessKey := ← json.within? "access_key" Json.string?
    secretKey := ← json.within? "secret_key" Json.string?
    sessionToken := ← json.within? "session_token" Json.string?
    profile := ← json.within? "profile" Json.string?
    endpoint := ← json.within? "endpoint_url" Json.string?
    connectTimeout := ← json.within? "connect_timeout" seconds?
    readTimeout := ← json.within? "read_timeout" seconds?
    maxRetries := ← json.within? "max_retries" retries? }

/-- The settings in a JSON document: an object, or an array of the first of them in order. -/
def ofJson? : Json → Option ClientSettings
  | .array values =>
      if values.length ≤ names.length then ofObject? (.object (names.zip values)) else none
  | .object members => ofObject? (.object members)
  | _ => none

/-! ## What makes settings unusable -/

/-- The number of seconds that a time may not reach. -/
def timeLimit : Nat := Nat.pow 2 64

/-- The nanoseconds of a time in seconds, to the nearest. -/
def nanoseconds (setting : String) (seconds : Binary64) : Except Error Nat :=
  if seconds.isNotPositive then .error (.timeoutNotPositive setting seconds.text)
  else
    match seconds with
    | .finite _ significand exponent =>
        let time := Binary64.magnitude significand exponent
        if time.lt ⟨timeLimit, 1⟩ then .ok (time.mul (.power 10 9)).round
        else .error (.timeoutTooLong setting seconds.text)
    | _ => .error (.timeoutTooLong setting seconds.text)

/-- The time to connect in nanoseconds, if one is set. -/
def connectNanos (settings : ClientSettings) : Except Error (Option Nat) :=
  settings.connectTimeout.mapM (nanoseconds "connect_timeout")

/-- The time to read in nanoseconds, if one is set. -/
def readNanos (settings : ClientSettings) : Except Error (Option Nat) :=
  settings.readTimeout.mapM (nanoseconds "read_timeout")

/-- The settings are usable: both static credentials are set or none, and the times are
positive and not too long. -/
def validate (settings : ClientSettings) : Except Error Unit := do
  if settings.accessKey.isSome != settings.secretKey.isSome then throw .halfCredentials
  let _ ← settings.connectNanos
  let _ ← settings.readNanos

end ClientSettings

/-! ## Clients -/

/-- Static credentials. -/
structure Credentials where
  accessKey : String
  secretKey : String
  sessionToken : Option String
  deriving DecidableEq, Repr

/-- What a client uses. -/
structure Client where
  service : Service
  region : String
  endpoint : Option String
  /-- Static credentials, if they are set. -/
  credentials : Option Credentials
  /-- How often a request is tried at most, if it is set. -/
  maxAttempts : Option UInt32
  connectNanos : Option Nat
  readNanos : Option Nat
  deriving DecidableEq, Repr

/-- The name of a service in addresses. -/
def Service.label : Service → String
  | .dynamoDB => "dynamodb"
  | .kms => "kms"

namespace Client

/-- The region that is used if none is set. -/
def lastRegion : String := "us-east-1"

/-- One more than the number of retries, or the largest number that there is. -/
def attempts (retries : UInt32) : UInt32 :=
  if retries = UInt32.ofNat (UInt32.size - 1) then retries else retries + 1

/-- The client of a service that settings give, for another region if one is given. -/
def ofSettings (service : Service) (settings : ClientSettings) (environment : Environment)
    (otherRegion : Option String) : Except Error Client := do
  settings.validate
  let connectNanos ← settings.connectNanos
  let readNanos ← settings.readNanos
  let region := otherRegion <|> settings.region <|> environment.anyRegion
  let credentials :=
    match settings.accessKey, settings.secretKey with
    | some accessKey, some secretKey => some ⟨accessKey, secretKey, settings.sessionToken⟩
    | _, _ => none
  return {
    service, region := region.getD lastRegion
    endpoint := settings.endpoint <|> environment.endpoint
    credentials, maxAttempts := settings.maxRetries.map attempts, connectNanos, readNanos }

/-! ### What goes with every request -/

/-- The region that a store on the same machine is asked for by, and the one that
requests to it are signed for. -/
def localRegion : String × String := ("local", "us-east-1")

/-- A store on the same machine. -/
def localEndpoint : Endpoint := ⟨"http", "localhost:8000", ""⟩

/-- A service's own address in a region. -/
def regionEndpoint (service : Service) (region : String) : Endpoint :=
  ⟨"https", s!"{service.label}.{region}.{Region.domain region}", ""⟩

/-- The address that requests go to and the region that they are signed for. An endpoint of
choice has to be an address. -/
def destination? (client : Client) : Option (Endpoint × String) :=
  match client.endpoint with
  | some text => (Endpoint.ofText? text).map (·, client.region)
  | none =>
      if client.service = .dynamoDB ∧ client.region = localRegion.1 then
        some (localEndpoint, localRegion.2)
      else some (regionEndpoint client.service client.region, client.region)

/-- The text can stand in a header: it has no control characters but tabs. -/
def isHeaderText (text : String) : Bool :=
  text.toList.all fun c => c == '\t' || decide (0x20 ≤ c.toNat) && c.toNat != 0x7F

/-- What goes with every request. -/
structure Envelope where
  uri : String
  /-- The access key, and the region and the service that the request is signed for. -/
  credential : String
  token : Option String
  deriving DecidableEq, Repr

/-- What goes with the requests of a client that has static credentials. No request can be
made for a region that is no host name, to an endpoint that is no address, or with
credentials that no header takes. -/
def envelope? (client : Client) : Option Envelope := do
  let credentials ← client.credentials
  let (endpoint, region) ← client.destination?
  if Region.isHostName client.region && isHeaderText credentials.accessKey &&
      credentials.sessionToken.all isHeaderText then
    return {
      uri := endpoint.text
      credential := s!"{credentials.accessKey}/{region}/{client.service.label}"
      token := credentials.sessionToken }
  else none

end Client

end ItemSeal
