import Quarry.Repository.Basic
import Quarry.Sql.Condition

/-!
# Writes

Statements that change a table. An insert writes a batch of objects at once; columns that the
database assigns are written as `DEFAULT`, or left out in a dialect that has no such word. Updates
and deletes come one per condition, and a condition that says nothing is refused, since it would
change every row.
-/

set_option autoImplicit false

namespace Quarry

open Sql (Dialect Draft Filter Fragment Statement)

namespace Insert

/-- Whether the first row of a batch leaves a column to the database. -/
def isDefaulted (first : Record) (column : String) : Bool := (first.getD column).isUnset

/-- The columns that an insert names. -/
def written (d : Dialect) (columns : List String) (first : Record) : List String :=
  if d.hasDefault then columns else columns.filter fun c => !isDefaulted first c

/-- What an insert writes into one column of one row. -/
def cell (first row : Record) (column : String) : Fragment :=
  if isDefaulted first column then [.word "DEFAULT"]
  else
    match row.getD column with
    | .unset => [.slot .null]
    | v => [.slot v]

/-- What an insert writes into one row. -/
def rowFragment (first : Record) (columns : List String) (row : Record) : Fragment :=
  Fragment.parenthesized (Fragment.joined ", " (columns.map (cell first row)))

/-- The pieces of an insert of encoded rows, the first of which decides which columns are left to
the database. -/
def fragment (table : String) (columns : List String) (first : Record) (rows : List Record) :
    Fragment :=
  [.word "INSERT INTO ", .name table, .word " ("] ++
    Fragment.joined ", " (columns.map fun c => [.name c]) ++ .word ") VALUES " ::
      Fragment.joined ", " (rows.map (rowFragment first columns))

/-- Write one column of a row: a placeholder and the value bound to it, or the word that leaves the
column to the database and binds nothing. -/
def writeCell (d : Dialect) (first row : Record) (cells : Draft) (column : String) : Draft :=
  if isDefaulted first column then cells.add "DEFAULT" []
  else
    match row.getD column with
    | .unset => cells.add d.placeholder [.null]
    | v => cells.add d.placeholder [v]

/-- Write one row behind the others. Its text is put in parentheses, and its values follow those of
the rows before. -/
def writeRow (d : Dialect) (first : Record) (columns : List String) (rows : Draft) (row : Record) :
    Draft :=
  let cells := columns.foldl (writeCell d first row) ⟨[], rows.params⟩
  ⟨rows.texts ++ ["(" ++ ", ".intercalate cells.texts ++ ")"], cells.params⟩

/-- The insert of encoded rows, the first of which decides which columns are left to the
database. -/
def write (d : Dialect) (table : String) (columns : List String) (first : Record) (rows : List Record) :
    Statement :=
  let values := rows.foldl (writeRow d first columns) {}
  ⟨"INSERT INTO " ++ d.quoteName table ++ " (" ++ ", ".intercalate (columns.map d.quoteName) ++
    ") VALUES " ++ ", ".intercalate values.texts, values.params⟩

/-- The statement that inserts objects, none for no objects. With `force` the objects may also say
what the database would assign. -/
def build (d : Dialect) (r : Repository) (objects : Value) (force : Bool) :
    Except Error (Option Statement) := do
  if !objects.isTrue then return none
  else
    let rows ← (← objects.items).mapM fun o => r.codec.toRow o (!force) false
    match rows with
    | [] => return none
    | first :: _ =>
      let columns := written d r.codec.columnNames first
      if columns.isEmpty then refuse (.nothingToInsert r.table)
      else return some (write d (← Sql.identifier r.table) columns first rows)

end Insert

namespace Update

/-- The pieces of an update. -/
def fragment (d : Dialect) (table : String) (row : Record) (filter : Filter) : Fragment :=
  [.word "UPDATE ", .name table, .word " SET "] ++
    Fragment.joined ", " (row.map fun f => [.name f.1, .word " = ", .slot f.2]) ++
    filter.whereFragment d

/-- The update of the columns of a row. The values that are set come before those of the
condition. -/
def write (d : Dialect) (table : String) (row : Record) (filter : Filter) : Statement :=
  let condition := filter.write d
  ⟨"UPDATE " ++ d.quoteName table ++ " SET " ++
    ", ".intercalate (row.names.map fun column => d.quoteName column ++ " = " ++ d.placeholder) ++
    condition.whereText, row.values ++ condition.params⟩

/-- The statement that changes the rows of a condition, none if there is nothing to change. -/
def buildOne (d : Dialect) (r : Repository) (force : Bool) (change : Value × Value) :
    Except Error (Option Statement) := do
  let (condition, object) := change
  let row ← r.codec.toRow object (!force) true
  if row.isEmpty then return none
  else
    let filter ← Filter.compile d .null r.codec.utc condition []
    if filter.isEmpty then refuse (.unfilteredUpdate r.table condition)
    else return some (write d (← Sql.identifier r.table) row filter)

/-- The statements for conditions and the objects that say what to change. -/
def build (d : Dialect) (r : Repository) (changes : List (Value × Value)) (force : Bool) :
    Except Error (List Statement) := do
  return (← changes.mapM (buildOne d r force)).filterMap id

/-- How many changes are passed over because they have nothing to change, up to the first one that
fails. -/
def skipped (d : Dialect) (r : Repository) (force : Bool) : List (Value × Value) → Nat
  | [] => 0
  | change :: rest =>
    match buildOne d r force change with
    | .error _ => 0
    | .ok none => skipped d r force rest + 1
    | .ok (some _) => skipped d r force rest

end Update

namespace Delete

/-- The pieces of a delete. -/
def fragment (d : Dialect) (table : String) (filter : Filter) : Fragment :=
  [.word "DELETE FROM ", .name table] ++ filter.whereFragment d

/-- The delete of the rows of a condition. -/
def write (d : Dialect) (table : String) (filter : Filter) : Statement :=
  let condition := filter.write d
  ⟨"DELETE FROM " ++ d.quoteName table ++ condition.whereText, condition.params⟩

/-- The statement that deletes the rows of a condition. -/
def buildOne (d : Dialect) (r : Repository) (condition : Value) : Except Error Statement := do
  let filter ← Filter.compile d .null r.codec.utc condition []
  if filter.isEmpty then refuse (.unfilteredDelete r.table condition)
  else return write d (← Sql.identifier r.table) filter

/-- The statements for several conditions. -/
def build (d : Dialect) (r : Repository) (conditions : Value) : Except Error (List Statement) := do
  (← conditions.items).mapM (buildOne d r)

end Delete

end Quarry
