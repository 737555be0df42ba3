import Quarry.Error

/-!
# Log records

What the library reports about its work besides results and errors: records of four levels, of which
those below a threshold are not kept. A threshold is a number or the name of a level.
-/

set_option autoImplicit false

namespace Quarry

/-- The level of a log record. -/
inductive Level where
  | debug
  | info
  | warning
  | error
  deriving DecidableEq, Inhabited

namespace Level

/-- The name of a level. -/
def label : Level → String
  | .debug => "DEBUG"
  | .info => "INFO"
  | .warning => "WARNING"
  | .error => "ERROR"

/-- The number of a level; graver ones are higher. -/
def rank : Level → Int
  | .debug => 10
  | .info => 20
  | .warning => 30
  | .error => 40

end Level

/-- A log record. -/
structure LogRecord where
  level : Level
  text : String
  deriving DecidableEq

namespace LogRecord

/-- A record as one text. -/
def display (r : LogRecord) : String := r.level.label ++ " " ++ r.text

end LogRecord

/-- The records kept so far, the rank from which on records are kept, and what becomes of a record
of which no text can be made. -/
structure Log where
  records : List LogRecord := []
  threshold : Int := 10
  /-- Whether a record of which no text can be made is an error. A log that is kept for a program
  leaves such a record out; one that is kept to check it does not. -/
  strict : Bool := true

namespace Log

/-- Whether records of a level are kept. -/
def keeps (l : Log) (level : Level) : Bool := l.threshold <= level.rank

/-- The threshold that holds where none is set. -/
def usualThreshold : Int := Level.warning.rank

/-- The threshold of a number; 0 sets none. -/
def thresholdOfInt (n : Int) : Int := if n == 0 then usualThreshold else n

/-- The threshold of a name. -/
def thresholdOfName? : String → Option Int
  | "NOTSET" => some usualThreshold
  | "DEBUG" => some Level.debug.rank
  | "INFO" => some Level.info.rank
  | "WARN" => some Level.warning.rank
  | "WARNING" => some Level.warning.rank
  | "ERROR" => some Level.error.rank
  | "CRITICAL" => some 50
  | "FATAL" => some 50
  | _ => none

/-- The threshold that a value names. -/
def thresholdOf (v : Value) : Except Error Int :=
  match v with
  | .int n => .ok (thresholdOfInt n)
  | .bool b => .ok (thresholdOfInt (if b then 1 else 0))
  | .text name =>
    match thresholdOfName? name with
    | some n => .ok n
    | none => refuse (.level v)
  | _ => misfit .kind

/-- The log with one more record, if its level is kept. -/
def add (l : Log) (level : Level) (text : String) : Log :=
  if l.keeps level then { l with records := l.records ++ [⟨level, text⟩] } else l

end Log

end Quarry
