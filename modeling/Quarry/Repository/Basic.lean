import Quarry.Row.Codec
import Quarry.Sql.Relation
import Quarry.Settings.Basic
import Quarry.Handler.Options

/-!
# Repositories

A repository is one table with all that is known about it: its keys, the columns that the database
assigns, its relations to other tables, and how work on it is done. It is declared once, and the
declaration is checked before anything is sent to a database.
-/

set_option autoImplicit false

namespace Quarry

open Sql (Relation)

/-- The declaration of a repository. -/
structure Declaration where
  table : Value
  keys : Value
  autoSet : Value := .tuple []
  relations : Value := .record []
  kinds : Value := .null
  /-- Whether statements are logged for information; if it is NULL, the settings decide. -/
  printQuery : Value := .null
  options : GivenOptions := .proper {}

namespace Declaration

/-- The options that a declaration gives; without any the usual ones hold. -/
def givenOptions (fields : Record) : GivenOptions :=
  match fields.get? "handler_options" with
  | none => .proper {}
  | some v => .improper v

/-- The declaration that a record gives. -/
def ofFields (fields : Record) : Except Error Declaration := do
  fields.checkNames ["table", "keys"]
    ["auto_set_columns", "relations", "column_kinds", "print_query", "handler_options"]
  return {
    table := fields.getD "table"
    keys := fields.getD "keys"
    autoSet := fields.valueOr "auto_set_columns" (.tuple [])
    relations := fields.valueOr "relations" .null
    kinds := fields.valueOr "column_kinds" .null
    printQuery := fields.valueOr "print_query" .null
    options := givenOptions fields }

/-- The declared relations by name. -/
def readRelations : List (String × Value) → Except Error (List (String × Relation))
  | [] => .ok []
  | (name, v) :: rest => do
    let r ← Relation.ofValue v
    return (name, r) :: (← readRelations rest)

end Declaration

/-- A declaration of which the outline has been checked. -/
structure Outline where
  keys : List Value
  autoSet : List Value
  relations : List (String × Relation)

namespace Declaration

/-- The outline of a declaration. There must be a table and keys, and all relations must be
well-formed. -/
def outline (d : Declaration) : Except Error Outline := do
  if !d.table.isTrue then refuse .noTable
  else if !d.keys.isTrue then refuse (.noKeys d.table)
  else
    let keys ← d.keys.items
    let autoSet ← d.autoSet.items
    return ⟨keys, autoSet, ← readRelations (← d.relations.asOptionalFields)⟩

end Declaration

/-- A table that is ready for use. -/
structure Repository where
  table : Value
  codec : Codec
  relations : List (String × Relation)
  /-- Whether statements are logged for information, as it was said. -/
  printQuery : Value
  options : GivenOptions

namespace Repository

/-- The repository that a declaration with its outline describes. -/
def ofOutline (s : Settings) (d : Declaration) (o : Outline) : Except Error Repository := do
  let codec ← Codec.make o.keys (.tuple o.autoSet) d.kinds s.utcDates.isTrue s.parseJson.isTrue
  return ⟨d.table, codec, o.relations, if d.printQuery.isNull then s.printQuery else d.printQuery,
    d.options⟩

/-- The repository that a declaration describes. -/
def ofDeclaration (s : Settings) (d : Declaration) : Except Error Repository := do
  ofOutline s d (← d.outline)

/-- The relation of a name, if it is declared. -/
def relation? (r : Repository) (name : String) : Option Relation := Relation.find? r.relations name

end Repository

end Quarry
