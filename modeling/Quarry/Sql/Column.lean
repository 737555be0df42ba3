import Quarry.Sql.Fragment
import Quarry.Sql.Name
import Quarry.Text.Cut
import Quarry.Value.Equality

/-!
# Column references

A key names a column. Keys without a dot name a column of the table at hand; a dotted key brings its
own table, and the part behind the last dot is the column. The column's name is the key in snake
case.

Where several tables take part, columns of the table at hand are qualified with its name. That name
is given as a value, and whether it can be one shows when a column is qualified with it.
-/

set_option autoImplicit false

namespace Quarry.Sql

open Text.Name (toSnake)

/-- What a key refers to. -/
inductive ColumnRef where
  | plain (column : String)
  | qualified (table column : String)
  /-- All columns of a table. -/
  | star (table : String)
  deriving DecidableEq

namespace ColumnRef

/-- What a key says by itself. -/
def ofKey (key : String) : ColumnRef :=
  match Text.cutLast '.' key.toList with
  | some (owner, column) =>
    if column = ['*'] then .star (String.ofList owner)
    else .qualified (String.ofList owner) (toSnake (String.ofList column))
  | none => .plain (toSnake key)

/-- The reference when the table at hand is `owner`. Columns without a table are qualified with it,
unless it counts as false. -/
def within (owner : Value) : ColumnRef → Except Error ColumnRef
  | .plain column =>
    if owner.isTrue then (identifier owner).map fun table => .qualified table column
    else .ok (.plain column)
  | r => .ok r

/-- The reference of a key given as a value. A container may look like a dotted key at first, but
has no parts; other values are of the wrong kind from the start. -/
def ofValue (owner key : Value) : Except Error ColumnRef :=
  match key with
  | .text s => (ofKey s).within owner
  | _ => misfit (if key.holdsText? "." == some true then .operation else .kind)

/-- The pieces of a reference. -/
def fragment : ColumnRef → Fragment
  | .plain c => [.name c]
  | .qualified t c => [.name t, .word ".", .name c]
  | .star t => [.name t, .word ".*"]

end ColumnRef

end Quarry.Sql
