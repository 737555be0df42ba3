import Quarry.Error
import Quarry.Text.Name

/-!
# Names given as values

Names of tables and columns may be given as any values, but only texts can be used. What the misfit
of another value is depends on the use: a name is quoted as it is (`identifier`) or first brought
into the form of columns (`columnName`).
-/

set_option autoImplicit false

namespace Quarry.Sql

/-- The text of a name that is quoted as it is. Byte strings, dates and moments are of the wrong
kind; other values cannot be quoted at all. -/
def identifier : Value → Except Error String
  | .text s => .ok s
  | .bytes _ => misfit .kind
  | .buffer _ => misfit .kind
  | .moment _ => misfit .kind
  | .date _ => misfit .kind
  | _ => misfit .operation

/-- The column that a key names. -/
def columnName : Value → Except Error String
  | .text s => .ok (Text.Name.toSnake s)
  | _ => misfit .kind

end Quarry.Sql
