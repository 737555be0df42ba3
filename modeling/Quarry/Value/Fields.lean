import Quarry.Value.Equality
import Quarry.Value.Parameter

/-!
# Declarations given as records

Relations, aggregates and repositories may be declared by records. `Record.checkNames` checks that a
record has all required names and no unknown ones; the other functions read single fields and report
a misfit where a value has the wrong kind.
-/

set_option autoImplicit false

namespace Quarry

namespace Value

/-- The record that a declaration must be. -/
def asFields : Value → Except Error Record
  | .record fields => .ok fields
  | _ => misfit .kind

/-- The text that a value must be. -/
def asText : Value → Except Error String
  | .text s => .ok s
  | _ => misfit .kind

/-- The named value that an item of a list of pairs gives, if its name is a text. -/
def asPair (index : Nat) (item : Value) : Except Error (Option (String × Value)) := do
  match ← item.items with
  | [.text name, v] => return some (name, v)
  | [name, _] => if name.isFixed then return none else misfit .kind
  | parts => refuse (.pairLength index parts.length)

/-- The named values that the items from a place on give. -/
def asPairs : Nat → List Value → Except Error (List (String × Value))
  | _, [] => .ok []
  | index, item :: rest => do
    let pair ← asPair index item
    return pair.toList ++ (← asPairs (index + 1) rest)

/-- The record that a value gives: itself, or one made of a container of pairs. -/
def asRecord : Value → Except Error Record
  | .record fields => .ok fields
  | v => do return Record.ofList (← asPairs 0 (← v.items))

/-- The fields of an optional record: none if the value counts as false. -/
def asOptionalFields (v : Value) : Except Error Record :=
  if v.isTrue then
    match v with
    | .record fields => .ok fields
    | _ => misfit .operation
  else .ok []

end Value

namespace Record

/-- Check the names of a declaration: all required ones must be there, and no others than the
required and the optional ones. -/
def checkNames (required optional : List String) (r : Record) : Except Error Unit :=
  if required.all (fun n => r.has n) && r.names.all (fun n => (required ++ optional).contains n) then
    .ok ()
  else misfit .kind

/-- The text of a required field. -/
def text (name : String) (r : Record) : Except Error String := (r.getD name).asText

/-- The value of an optional field. -/
def valueOr (name : String) (default : Value) (r : Record) : Value := (r.get? name).getD default

end Record

end Quarry
