import Quarry.Number.Decimal
import Quarry.Time.Moment

/-!
# Values

What objects, rows, conditions and parameters are made of. `null` is the database's NULL; `unset`
stands for a value that was not given at all, which is a different thing: an unset entry is left
out, a null one is written. A `Record` is a list of named values in the order in which the names
were first set.
-/

set_option autoImplicit false

namespace Quarry

open Number (Binary64 Decimal)
open Time (Date Moment)

/-- A value of any kind. `bytes` is a fixed string of bytes and `buffer` a mutable one. -/
inductive Value where
  | null
  | unset
  | bool (b : Bool)
  | int (n : Int)
  | real (x : Binary64)
  | decimal (d : Decimal)
  | text (s : String)
  | bytes (data : List UInt8)
  | buffer (data : List UInt8)
  | moment (m : Moment)
  | date (d : Date)
  | list (items : List Value)
  | tuple (items : List Value)
  | set (items : List Value)
  | record (fields : List (String × Value))

/-- Some value: NULL. -/
instance : Inhabited Value := ⟨.null⟩

/-- Named values in the order in which their names were first set. -/
abbrev Record := List (String × Value)

namespace Record

/-- The value of a name. -/
def get? (name : String) : Record → Option Value
  | [] => none
  | (k, v) :: rest => if k = name then some v else get? name rest

/-- Whether the record has the name. -/
def has (name : String) (r : Record) : Bool := (get? name r).isSome

/-- The value of a name, `unset` if the record does not have it. -/
def getD (name : String) (r : Record) : Value := (get? name r).getD .unset

/-- Give a name a value: in its place if the record has the name, at the end otherwise. -/
def set (name : String) (value : Value) : Record → Record
  | [] => [(name, value)]
  | (k, v) :: rest => if k = name then (k, value) :: rest else (k, v) :: set name value rest

/-- Give a name a value unless it has one. -/
def setDefault (name : String) (value : Value) (r : Record) : Record :=
  if r.has name then r else r ++ [(name, value)]

/-- The record that arises by setting names one after the other. -/
def ofList (fields : List (String × Value)) : Record :=
  fields.foldl (fun r f => set f.1 f.2 r) []

/-- The names in order. -/
def names (r : Record) : List String := r.map (·.1)

/-- The values in order. -/
def values (r : Record) : List Value := r.map (·.2)

end Record

namespace Value

/-- The name of the kind of a value. -/
def kindName : Value → String
  | .null => "NoneType"
  | .unset => "_Unset"
  | .bool _ => "bool"
  | .int _ => "int"
  | .real _ => "float"
  | .decimal _ => "decimal.Decimal"
  | .text _ => "str"
  | .bytes _ => "bytes"
  | .buffer _ => "bytearray"
  | .moment _ => "datetime.datetime"
  | .date _ => "datetime.date"
  | .list _ => "list"
  | .tuple _ => "tuple"
  | .set _ => "set"
  | .record _ => "dict"

/-- Whether nothing was given. -/
def isUnset : Value → Bool
  | .unset => true
  | _ => false

/-- Whether the value is NULL. -/
def isNull : Value → Bool
  | .null => true
  | _ => false

/-- The integer that an integer or a truth value is. -/
def integer? : Value → Option Int
  | .int n => some n
  | .bool b => some (if b then 1 else 0)
  | _ => none

/-- The value as a number, with truth values counting as 1 and 0. -/
def numeric? : Value → Option Number.Exact
  | .bool b => some (.ofInt (if b then 1 else 0))
  | .int n => some (.ofInt n)
  | .real x => some x.exact
  | .decimal d => some d.exact
  | _ => none

/-- Whether the value counts as true: numbers other than zero, texts and containers that are not
empty, all dates and times; neither NULL nor an absent value does. -/
def isTrue : Value → Bool
  | .null => false
  | .unset => false
  | .bool b => b
  | .int n => n != 0
  | .real x => !x.exact.isZero
  | .decimal d => !d.isZero
  | .text s => !s.isEmpty
  | .bytes data => !data.isEmpty
  | .buffer data => !data.isEmpty
  | .moment _ => true
  | .date _ => true
  | .list items => !items.isEmpty
  | .tuple items => !items.isEmpty
  | .set items => !items.isEmpty
  | .record fields => !fields.isEmpty

/-- An optional value, NULL standing for its absence. -/
def ofOption {α : Type} (f : α → Value) : Option α → Value
  | none => .null
  | some a => f a

end Value

end Quarry
