import Quarry.Value.Fields
import Quarry.Number.Read
import Quarry.Text.Cut

/-!
# Settings

Everything that can be set about a database: where it is, how its connections are pooled and
retried, and how values are read and written. Settings come from a record of named values or from
environment variables. They are kept as they were given; whether a value does for its purpose shows
where it is used. Switches count by whether they are true. `describe` shows the settings with all
passwords masked.
-/

set_option autoImplicit false

namespace Quarry

open Number (Binary64)

/-- A number of seconds, given in tenths. -/
def tenths (n : Nat) : Value := .real (Binary64.ofScientific false n (-1))

/-- The settings of a database. -/
structure Settings where
  /-- The address of the database. What it says goes before host, port, user, password and
  database. -/
  url : Value := .null
  host : Value := .text "localhost"
  port : Value := .int 3306
  user : Value := .text "root"
  password : Value := .text ""
  database : Value := .null
  /-- The most connections that are open at a time. -/
  connectionLimit : Value := .int 10
  /-- The most callers that wait for a connection; 0 means any number. -/
  queueLimit : Value := .int 0
  /-- Whether callers wait at all when no connection is free. -/
  waitForConnections : Value := .bool true
  /-- How many seconds callers wait; NULL means any time. -/
  acquireTimeout : Value := tenths 100
  /-- How often a failed acquisition is tried again. -/
  retryCount : Value := .int 3
  /-- The seconds before the first new try; they double with each further one. -/
  retryDelay : Value := tenths 1
  /-- The seconds after which an idle connection is closed. -/
  idleTimeout : Value := tenths 600
  /-- The seconds between two sweeps for idle connections; 0 means no sweeps. -/
  sweepInterval : Value := tenths 300
  /-- Whether one-digit integer columns are truth values. -/
  castBoolean : Value := .bool false
  /-- Whether decimal columns become floating-point numbers. -/
  decimalNumbers : Value := .bool false
  /-- Whether texts that look like JSON are read as JSON. -/
  parseJson : Value := .bool true
  /-- Whether moments are written and read as UTC. -/
  utcDates : Value := .bool true
  /-- Whether statements are logged for information and not only for debugging. -/
  printQuery : Value := .bool false

namespace Settings

/-- The settings by name. -/
def fields (s : Settings) : Record :=
  [("url", s.url), ("host", s.host), ("port", s.port), ("user", s.user), ("password", s.password),
    ("database", s.database), ("connection_limit", s.connectionLimit),
    ("queue_limit", s.queueLimit), ("wait_for_connections", s.waitForConnections),
    ("acquire_timeout", s.acquireTimeout), ("retry_count", s.retryCount),
    ("retry_delay", s.retryDelay), ("idle_timeout", s.idleTimeout),
    ("sweep_interval", s.sweepInterval), ("cast_boolean", s.castBoolean),
    ("decimal_numbers", s.decimalNumbers), ("parse_json", s.parseJson),
    ("utc_dates", s.utcDates), ("print_query", s.printQuery)]

/-- Change the setting of a name. -/
def setField (s : Settings) (name : String) (v : Value) : Except Error Settings :=
  match name with
  | "url" => .ok { s with url := v }
  | "host" => .ok { s with host := v }
  | "port" => .ok { s with port := v }
  | "user" => .ok { s with user := v }
  | "password" => .ok { s with password := v }
  | "database" => .ok { s with database := v }
  | "connection_limit" => .ok { s with connectionLimit := v }
  | "queue_limit" => .ok { s with queueLimit := v }
  | "wait_for_connections" => .ok { s with waitForConnections := v }
  | "acquire_timeout" => .ok { s with acquireTimeout := v }
  | "retry_count" => .ok { s with retryCount := v }
  | "retry_delay" => .ok { s with retryDelay := v }
  | "idle_timeout" => .ok { s with idleTimeout := v }
  | "sweep_interval" => .ok { s with sweepInterval := v }
  | "cast_boolean" => .ok { s with castBoolean := v }
  | "decimal_numbers" => .ok { s with decimalNumbers := v }
  | "parse_json" => .ok { s with parseJson := v }
  | "utc_dates" => .ok { s with utcDates := v }
  | "print_query" => .ok { s with printQuery := v }
  | _ => misfit .kind

/-- Change several settings. -/
def setFields (s : Settings) : List (String × Value) → Except Error Settings
  | [] => .ok s
  | (name, v) :: rest => do setFields (← s.setField name v) rest

/-- The settings that a record gives; what it leaves out keeps its default. -/
def ofFields (fields : Record) : Except Error Settings := setFields {} fields

/-- Environment variables by name. -/
abbrev Environment := List (String × String)

/-- A switch: only the words `true` and `false` are understood, anything else is the default. -/
def envSwitch (env : Environment) (name : String) (default : Value) : Value :=
  match env.lookup name with
  | some "true" => .bool true
  | some "false" => .bool false
  | _ => default

/-- A whole number. -/
def envInt (env : Environment) (name : String) (default : Value) : Except Error Value :=
  match env.lookup name with
  | none => .ok default
  | some t =>
    match Number.readInt? t with
    | some n => .ok (.int n)
    | none => refuse (.number name t)

/-- A number of seconds. -/
def envSeconds (env : Environment) (name : String) (default : Value) : Except Error Value :=
  match env.lookup name with
  | none => .ok default
  | some t =>
    match Number.readReal? t with
    | some x => .ok (.real x)
    | none => refuse (.number name t)

/-- A text, or the default. -/
def envText (env : Environment) (name : String) (default : Value) : Value :=
  match env.lookup name with
  | some t => .text t
  | none => default

/-- A text that is not empty. -/
def envNonempty (env : Environment) (name : String) : Option String :=
  match env.lookup name with
  | some t => if t.isEmpty then none else some t
  | none => none

/-- The settings that environment variables give. -/
def ofEnvironment (env : Environment) : Except Error Settings := do
  let base : Settings := {}
  let port ← envInt env "DB_PORT" base.port
  let connectionLimit ← envInt env "DB_CONNECTION_LIMIT" base.connectionLimit
  let queueLimit ← envInt env "DB_QUEUE_LIMIT" base.queueLimit
  let acquireTimeout ← envSeconds env "DB_ACQUIRE_TIMEOUT" base.acquireTimeout
  let retryCount ← envInt env "DB_RETRY_COUNT" base.retryCount
  let retryDelay ← envSeconds env "DB_RETRY_DELAY" base.retryDelay
  let idleTimeout ← envSeconds env "DB_IDLE_TIMEOUT" base.idleTimeout
  let sweepInterval ← envSeconds env "DB_SWEEP_INTERVAL" base.sweepInterval
  return {
    url := envText env "DB_URL" base.url
    host := envText env "DB_HOST" base.host
    port := port
    user := envText env "DB_USER" base.user
    password := envText env "DB_PASSWORD" base.password
    database := Value.ofOption .text (envNonempty env "DB_NAME")
    connectionLimit := connectionLimit
    queueLimit := queueLimit
    waitForConnections := envSwitch env "DB_WAIT_FOR_CONNECTIONS" base.waitForConnections
    acquireTimeout := acquireTimeout
    retryCount := retryCount
    retryDelay := retryDelay
    idleTimeout := idleTimeout
    sweepInterval := sweepInterval
    castBoolean := envSwitch env "CASTED_BOOLEAN" base.castBoolean
    decimalNumbers := envSwitch env "DB_DECIMAL_NUMBERS" base.decimalNumbers
    parseJson := envSwitch env "DB_PARSE_JSON" base.parseJson
    utcDates := envSwitch env "DB_UTC_DATES" base.utcDates
    printQuery := envSwitch env "DB_PRINT_QUERY" base.printQuery
  }

/-- What stands for a password. -/
def mask : String := "***"

/-- The parts of a text before and after the first `://`; without one all of it is before. -/
def cutScheme : List Char → List Char × List Char
  | [] => ([], [])
  | ':' :: '/' :: '/' :: rest => ([], rest)
  | c :: rest =>
    let (before, after) := cutScheme rest
    (c :: before, after)

/-- An address with its password masked; an address without an `@` has none. -/
def maskAddress (address : String) : String :=
  let cs := address.toList
  if cs.contains '@' then
    let (scheme, rest) := cutScheme cs
    let (credentials, host) := (Text.cutLast '@' rest).getD ([], rest)
    let user := Text.beforeFirst ':' credentials
    String.ofList (scheme ++ "://".toList ++ user ++ ':' :: mask.toList ++ '@' :: host)
  else address

/-- A password masked; one that counts as false is shown. -/
def maskPassword (password : Value) : Value := if password.isTrue then .text mask else password

/-- An address given as a value, with its password masked. A container may hold an `@`, but has no
parts; what neither counts as false nor is a text or a container is of the wrong kind. -/
def maskUrl (url : Value) : Except Error Value :=
  if url.isTrue then
    match url with
    | .text s => .ok (.text (maskAddress s))
    | _ =>
      match url.holdsText? "@" with
      | some true => misfit .operation
      | some false => .ok url
      | none => misfit .kind
  else .ok url

/-- The settings by name with all passwords masked. -/
def describe (s : Settings) : Except Error Record :=
  (maskUrl s.url).map fun url => fields { s with url := url, password := maskPassword s.password }

end Settings

end Quarry
