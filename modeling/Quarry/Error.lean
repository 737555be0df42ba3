import Quarry.Fault
import Quarry.Invalid
import Quarry.Misfit

/-!
# What can go wrong

Errors are told apart by their cause. Input may be refused with an explanation (`Invalid`), a value
may not fit (`Misfit`), and a driver or the program around the library may report a `Fault`. The
rest are the library's own failures: no connection, a failed statement, a missing row.

`Error.message` is the one place where texts are made, and `Error.label` the one place for the names
under which errors appear in log lines. The details of an error that are worth a log line are read
by name (`Error.detail?`), whether they belong to its kind or were set on it later.
-/

set_option autoImplicit false

namespace Quarry

/-- Why there is no connection. -/
inductive PoolFailure where
  /-- It could not be obtained. -/
  | unavailable
  /-- None was free in time; this may pass. -/
  | exhausted
  /-- It died; another one may live. -/
  | lost
  deriving DecidableEq, Inhabited

/-- A failed statement with what is known about the failure. -/
structure QueryFailure where
  /-- The text under which the failure was raised. -/
  text : Value
  /-- The driver's text, which is the same unless it was set anew. -/
  message : Value := text
  sql : Value := .null
  params : Value := .null
  code : Value := .null
  state : Value := .null
  lockContention : Bool := false
  details : Record := []
  deriving Inhabited

namespace QueryFailure

/-- The diagnostic fields by name. -/
def diagnostics (q : QueryFailure) : Record :=
  [("sql", q.sql), ("message", q.message), ("state", q.state), ("code", q.code)]

/-- The failure with a detail set anew. -/
def setDetail (q : QueryFailure) (name : String) (v : Value) : QueryFailure :=
  match name with
  | "message" => { q with message := v }
  | "sql" => { q with sql := v }
  | "params" => { q with params := v }
  | "code" => { q with code := v }
  | "state" => { q with state := v }
  | "lock_contention" => { q with lockContention := v.isTrue }
  | _ => { q with details := q.details.set name v }

/-- A detail of the failure. -/
def detail? (q : QueryFailure) (name : String) : Option Value :=
  match name with
  | "message" => some q.message
  | "sql" => some q.sql
  | "params" => some q.params
  | "code" => some q.code
  | "state" => some q.state
  | "lock_contention" => some (.bool q.lockContention)
  | _ => q.details.get? name

end QueryFailure

/-- Everything that can go wrong. -/
inductive Error where
  | misfit (m : Misfit)
  /-- A value of the named kind has no place in JSON text. -/
  | unencodable (kind : String)
  /-- A repository was declared in two ways at once. -/
  | twoDeclarations
  | invalid (i : Invalid)
  | fault (f : Fault)
  /-- The work was cancelled from outside. -/
  | cancelled (args : List Value)
  /-- A failure of the library of no particular kind. -/
  | general (args : List Value) (details : Record)
  | pool (failure : PoolFailure) (message : Value) (details : Record) (cause : Option Error)
  | query (failure : QueryFailure) (cause : Option Error)
  /-- There is no row; `details` may say anew for which table and condition. -/
  | notFound (table condition : Value) (details : Record)
  /-- A command of the command line failed; `details` may say anew why. -/
  | command (message : Value) (details : Record) (cause : Option Error)

/-- Some error: the one about a value of the wrong kind. -/
instance : Inhabited Error := ⟨.misfit .kind⟩

namespace Error

/-- The text of a pool failure that was given none. -/
def poolDefault : Value := .text "Failed to get database connection"

/-- The text of an error. -/
def message : Error → String
  | .misfit m => m.message
  | .unencodable kind => "Object of type " ++ kind ++ " is not JSON serializable"
  | .twoDeclarations => "Pass either a RepositoryConfig or keyword fields, not both"
  | .invalid i => i.message
  | .fault f => f.message
  | .cancelled args => Fault.argumentText args
  | .general args _ => Fault.argumentText args
  | .pool _ m _ _ => m.display
  | .query q _ => q.text.display
  | .notFound table condition _ =>
    "Record not found in '" ++ table.display ++ "'" ++
      (if condition.isTrue then " with where=" ++ condition.literal else "")
  | .command m details _ => ((details.get? "message").getD m).display

/-- The name under which an error appears in log lines. -/
def label : Error → String
  | .misfit m => m.label
  | .unencodable _ => "TypeError"
  | .twoDeclarations => "TypeError"
  | .invalid _ => "ValueError"
  | .fault f => f.name
  | .cancelled _ => "CancelledError"
  | .general .. => "WizardError"
  | .pool .unavailable .. => "PoolError"
  | .pool .exhausted .. => "PoolExhaustionError"
  | .pool .lost .. => "ConnectionLostError"
  | .query .. => "QueryError"
  | .notFound .. => "NotFoundError"
  | .command .. => "ClickException"

/-- The error that led to this one. -/
def cause? : Error → Option Error
  | .pool _ _ _ c => c
  | .query _ c => c
  | .command _ _ c => c
  | _ => none

/-- Whether the error is handled where it arises; a cancellation never is. -/
def isOrdinary : Error → Bool
  | .cancelled _ => false
  | _ => true

/-- Whether the error is the loss of the connection it happened on. -/
def isLost : Error → Bool
  | .pool .lost .. => true
  | _ => false

/-- Whether the error says that there is no connection. -/
def isPool : Error → Bool
  | .pool .. => true
  | _ => false

/-- Whether trying again may help. -/
def isTransient : Error → Bool
  | .pool .exhausted .. => true
  | .pool .lost .. => true
  | _ => false

/-- Whether the error is one of the library's own. -/
def isOwn : Error → Bool
  | .general .. => true
  | .pool .. => true
  | .query .. => true
  | .notFound .. => true
  | _ => false

/-- The error with a detail set on it. -/
def setDetail (name : String) (v : Value) : Error → Error
  | .fault f => .fault { f with details := f.details.set name v }
  | .general args details => .general args (details.set name v)
  | .pool failure m details c => .pool failure m (details.set name v) c
  | .query q c => .query (q.setDetail name v) c
  | .notFound table condition details => .notFound table condition (details.set name v)
  | .command m details c => .command m (details.set name v) c
  | e => e

/-- The details set on an error, if its kind has no such detail of its own. -/
def details : Error → Record
  | .fault f => f.details
  | .general _ details => details
  | .pool _ _ details _ => details
  | .query q _ => q.details
  | .notFound _ _ details => details
  | .command _ details _ => details
  | _ => []

/-- A detail of an error. -/
def detail? (name : String) : Error → Option Value
  | .query q _ => q.detail? name
  | .notFound table condition details =>
    (details.get? name).or
      (if name == "table" then some table else if name == "where" then some condition else none)
  | .command m details _ => (details.get? name).or (if name == "message" then some m else none)
  | e => e.details.get? name

/-- A detail of an error, NULL if it is not there. -/
def detail (name : String) (e : Error) : Value := (e.detail? name).getD .null

/-- What an error was raised with. -/
def args : Error → List Value
  | .fault f => f.args
  | .cancelled args => args
  | .general args _ => args
  | .pool _ m _ _ => [m]
  | .query q _ => [q.text]
  | .command m _ _ => [m]
  | _ => []

/-- The number of an error: the one it carries, or its first argument when that is an integer. -/
def code (e : Error) : Value :=
  match e.detail "code" with
  | .null => leadingInteger e.args
  | c => c

/-- The state that an error carries, under either of the names used for it. -/
def state (e : Error) : Value :=
  let state := e.detail "state"
  if state.isTrue then state else e.detail "sqlstate"

/-- The text under which an error is reported as a driver's: the text it carries if that is not
empty, its own otherwise. -/
def reportedMessage (e : Error) : String :=
  let carried := e.detail "message"
  if carried.isTrue then carried.display else e.message

end Error

/-- Refuse an input. -/
def refuse {α : Type} (i : Invalid) : Except Error α := .error (.invalid i)

/-- Report a value that does not fit. -/
def misfit {α : Type} (m : Misfit) : Except Error α := .error (.misfit m)

end Quarry
