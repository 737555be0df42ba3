import Quarry.Json.Printer
import Quarry.Json.Reader
import Quarry.Value.Arithmetic

/-!
# Values and JSON

`Json.toValue` gives a JSON value its place among all values. The other way there are two readings.
For storage (`Value.toJson`) dates and times take their stored form, decimals become binary64
numbers, tuples and sets become arrays, and anything else that JSON does not know is an error. So
are integers with too many digits, and containers that stand too deep inside of each other. For
comparison (`Value.toComparable`) whatever JSON does not know is shown by its text, so that every
value has a form.
-/

set_option autoImplicit false

namespace Quarry

namespace Json

mutual

/-- The value that a JSON value denotes. -/
def toValue : Json String → Value
  | .null => .null
  | .bool b => .bool b
  | .int n => .int n
  | .real x => .real x
  | .text s => .text s
  | .array items => .list (toValues items)
  | .object fields => .record (toFields fields)

/-- The values of items. -/
def toValues : List (Json String) → List Value
  | [] => []
  | v :: vs => toValue v :: toValues vs

/-- The values of fields. -/
def toFields : List (String × Json String) → List (String × Value)
  | [] => []
  | (k, v) :: rest => (k, toValue v) :: toFields rest

end

end Json

namespace Value

/-- The stored text of a moment. -/
def storedMoment (utc : Bool) (m : Time.Moment) : Except Error String :=
  match m.stored? utc with
  | some s => .ok s
  | none => misfit (.range .date)

/-- The stored text of a value as a moment. A date may stand for its midnight, but has no place that
could be moved to UTC. -/
def storedAsMoment (utc : Bool) : Value → Except Error String
  | .moment m => storedMoment utc m
  | .date d => if utc then misfit .operation else .ok (d.stored ++ " 00:00:00")
  | _ => misfit .operation

/-- Go into a container, if there is room for one more. -/
def inside {α : Type} (room : Nat) (write : Nat → Except Error α) : Except Error α :=
  match room with
  | 0 => misfit .writtenDepth
  | room + 1 => write room

/-- An integer that is written, which may not have too many digits. -/
def writtenInt (n : Int) : Except Error Int :=
  if Number.maxDigits < Number.digitCount n.natAbs then refuse .longInteger else .ok n

mutual

/-- The form in which a value is stored inside JSON text, with room for a number of containers
inside of each other. -/
def toJson (room : Nat) : Value → Except Error (Json String)
  | .null => .ok .null
  | .unset => .error (.unencodable (kindName .unset))
  | .bool b => .ok (.bool b)
  | .int n => (writtenInt n).map .int
  | .real x => .ok (.real x)
  | .decimal d => (realOfDecimal d).map .real
  | .text s => .ok (.text s)
  | .bytes data => .error (.unencodable (kindName (.bytes data)))
  | .buffer data => .error (.unencodable (kindName (.buffer data)))
  | .moment m => (storedMoment true m).map .text
  | .date d => .ok (.text d.stored)
  | .list items => inside room fun room => (itemsToJson room items).map .array
  | .tuple items => inside room fun room => (itemsToJson room items).map .array
  | .set items => inside room fun room => (itemsToJson room items).map .array
  | .record fields => inside room fun room => (fieldsToJson room fields).map .object

/-- The stored forms of items. -/
def itemsToJson (room : Nat) : List Value → Except Error (List (Json String))
  | [] => .ok []
  | v :: vs => do
    let j ← toJson room v
    return j :: (← itemsToJson room vs)

/-- The stored forms of fields. -/
def fieldsToJson (room : Nat) : List (String × Value) → Except Error (List (String × Json String))
  | [] => .ok []
  | (k, v) :: rest => do
    let j ← toJson room v
    return (k, j) :: (← fieldsToJson room rest)

end

mutual

/-- The form in which a value is compared. -/
def toComparable : Value → Json String
  | .null => .null
  | .bool b => .bool b
  | .int n => .int n
  | .real x => .real x
  | .text s => .text s
  | .list items => .array (itemsToComparable items)
  | .tuple items => .array (itemsToComparable items)
  | .record fields => .object (fieldsToComparable fields)
  | v => .text v.display

/-- The compared forms of items. -/
def itemsToComparable : List Value → List (Json String)
  | [] => []
  | v :: vs => toComparable v :: itemsToComparable vs

/-- The compared forms of fields. -/
def fieldsToComparable : List (String × Value) → List (String × Json String)
  | [] => []
  | (k, v) :: rest => (k, toComparable v) :: fieldsToComparable rest

end

mutual

/-- Check that JSON can be written, with room for a number of containers inside of each other. -/
def checkWritten (room : Nat) : Json.Tree → Except Error Unit
  | .int n => (writtenInt n).map fun _ => ()
  | .array items => inside room fun room => checkItems room items
  | .object fields => inside room fun room => checkFields room fields
  | _ => .ok ()

/-- Check that items can be written. -/
def checkItems (room : Nat) : List Json.Tree → Except Error Unit
  | [] => .ok ()
  | v :: vs => do
    checkWritten room v
    checkItems room vs

/-- Check that fields can be written. -/
def checkFields (room : Nat) : List (List Json.Glyph × Json.Tree) → Except Error Unit
  | [] => .ok ()
  | (_, v) :: rest => do
    checkWritten room v
    checkFields room rest

end

/-- The JSON text that stores a value. -/
def jsonText [Limits] (v : Value) : Except Error String := (toJson Limits.depth v).map Json.print

end Value

end Quarry
