import TokenTable.Number.Binary64.Reader
import TokenTable.Value.Access
import TokenTable.Value.Numeric
import TokenTable.Value.Ordered

/-! # Settings of a client

A client's settings come from environment variables or from defaults, and are passed on to the
connection as they were given. An empty variable counts as unset, and a variable whose number cannot
be read is a fault that tells the variable. Main statement: `ofEnvironment_empty`, without variables
the defaults hold. -/

namespace TokenTable

structure Settings where
  region : Value
  endpoint : Value
  connectTimeout : Value
  readTimeout : Value
  maxAttempts : Value
deriving Repr

namespace Settings

/-- The settings that hold where nothing else is said. -/
def default : Settings :=
  { region := .null, endpoint := .null, connectTimeout := .float .one
    readTimeout := .float (.ofDecimal false 3 0), maxAttempts := .int 3 }

/-- The first of some variables that is set and not empty, or the empty text. -/
def held (environment : Value) : List String → Except Fault Value
  | [] => .ok (.text "")
  | name :: rest => do
    let raw ← environment.get name
    if raw.isGiven then return raw else held environment rest

/-- What a variable holds, without blanks around it. -/
def trimmed : Value → Except Fault Value
  | .text s => .ok (.text (Text.trim s))
  | .bytes .view _ => .error .noSuchMember
  | .bytes form content =>
    .ok (.bytes form (Text.trimOf (fun b => Text.isPlainBlank (Char.ofNat b.toNat)) content))
  | _ => .error .noSuchMember

/-- The text in the first of some variables that is set, null if nothing but blanks is in it. -/
def text (environment : Value) (names : List String) : Except Fault Value := do
  let raw ← trimmed (← held environment names)
  return if raw.isGiven then raw else .null

/-- The double that a text or a byte string spells. -/
def readNumber? : Value → Option Binary64
  | .text s => Binary64.read? s.toList
  | .bytes _ content => Binary64.read? (Text.charsOfBytes content)
  | _ => none

/-- The number in a variable, or a default if there is nothing in it. -/
def number (environment : Value) (name : String) (default : Value) : Except Fault Value := do
  let raw ← trimmed (← held environment [name])
  if !raw.isGiven then return default
  match readNumber? raw with
  | some x => return .float x
  | none => throw (.notANumber name raw)

/-- The settings that environment variables describe. -/
def ofEnvironment (environment : Value) : Except Fault Settings := do
  let region ← text environment ["AWS_REGION", "AWS_DEFAULT_REGION"]
  let endpoint ← text environment ["DYNAMODB_ENDPOINT"]
  let connectTimeout ← number environment "DYNAWRAP_CONNECT_TIMEOUT" default.connectTimeout
  let readTimeout ← number environment "DYNAWRAP_READ_TIMEOUT" default.readTimeout
  let attempts ← number environment "DYNAWRAP_MAX_ATTEMPTS" default.maxAttempts
  return { region, endpoint, connectTimeout, readTimeout
           maxAttempts := .int (← attempts.wholeNumber) }

/-- Checks that a value may stand in the environment of a process: a text without a zero
character. -/
def checkVariable : Value → Except Fault Unit
  | .text s => if s.contains '\x00' then .error .badValue else .ok ()
  | _ => .error .wrongShape

/-- The settings that the environment of a process describes. -/
def ofProcess (environment : Value) : Except Fault Settings := do
  (← environment.entries).forM fun entry => do
    checkVariable entry.1
    checkVariable entry.2
  ofEnvironment environment

def toValue (settings : Settings) : Value :=
  .record
    [("region", settings.region), ("endpoint_url", settings.endpoint),
      ("connect_timeout", settings.connectTimeout), ("read_timeout", settings.readTimeout),
      ("max_attempts", settings.maxAttempts)]

/-- The settings that named arguments give; the others are the defaults. -/
def ofArguments (v : Value) : Except Fault Settings := do
  let arguments ← v.arguments
    ⟨[], ["region", "endpoint_url", "connect_timeout", "read_timeout", "max_attempts"]⟩
  let setting := Value.optional arguments
  return {
    region := setting "region" default.region
    endpoint := setting "endpoint_url" default.endpoint
    connectTimeout := setting "connect_timeout" default.connectTimeout
    readTimeout := setting "read_timeout" default.readTimeout
    maxAttempts := setting "max_attempts" default.maxAttempts }

/-- The transport configuration: timeouts and how calls are retried. The number of attempts may not
be negative. -/
def transport (settings : Settings) : Except Fault Value := do
  if ← settings.maxAttempts.isBelow 0 then throw .attemptsNegative
  return .record
    [("connect_timeout", settings.connectTimeout), ("read_timeout", settings.readTimeout),
      ("max_attempts", settings.maxAttempts), ("mode", .text "adaptive")]

/-- The name of the service that clients connect to. -/
def service : String := "dynamodb"

/-- What a connection is opened with. -/
def connection (settings : Settings) : Except Fault Value := do
  let config ← settings.transport
  let endpoint := if settings.endpoint.isGiven then [("endpoint_url", settings.endpoint)] else []
  return .record <|
    [("service", .text service), ("region_name", settings.region), ("config", config)] ++ endpoint

theorem ofEnvironment_empty : ofEnvironment (.map []) = .ok default := rfl

end Settings

end TokenTable
