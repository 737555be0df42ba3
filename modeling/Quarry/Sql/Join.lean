import Quarry.Sql.Column
import Quarry.Value.Equality
import Quarry.Value.Fields

/-!
# Joins

A join brings in another table under a condition that two columns are equal. The columns are given
by keys, so a dotted key says which table a column belongs to. Table and keys are given as values;
whether they are names shows when the join is written down.
-/

set_option autoImplicit false

namespace Quarry.Sql

/-- Which rows without a partner a join keeps. -/
inductive JoinKind where
  | inner
  | left
  | right
  | full
  deriving DecidableEq

namespace JoinKind

/-- The keyword of the kind. -/
def label : JoinKind → String
  | .inner => "INNER"
  | .left => "LEFT"
  | .right => "RIGHT"
  | .full => "FULL"

/-- The kind of a keyword. -/
def ofName? : String → Option JoinKind
  | "INNER" => some .inner
  | "LEFT" => some .left
  | "RIGHT" => some .right
  | "FULL" => some .full
  | _ => none

/-- The kind that a value names. -/
def ofValue (v : Value) : Except Error JoinKind :=
  match v with
  | .text s =>
    match ofName? s with
    | some k => .ok k
    | none => refuse (.joinKind v)
  | _ => if v.canBeSought then refuse (.joinKind v) else misfit .kind

end JoinKind

/-- A joined table with the keys of the two columns that must be equal. -/
structure Join where
  table : Value
  left : Value
  right : Value
  kind : JoinKind

namespace Join

/-- The pieces of a join, starting with a space. -/
def fragment (j : Join) : Except Error Fragment := do
  let table ← identifier j.table
  let left ← ColumnRef.ofValue .null j.left
  let right ← ColumnRef.ofValue .null j.right
  return [.word " ", .word j.kind.label, .word " JOIN ", .name table, .word " ON "] ++
    left.fragment ++ .word " = " :: right.fragment

/-- The pieces of joins one after the other. -/
def fragments (joins : List Join) : Except Error Fragment := do
  return (← joins.mapM fragment).flatten

end Join

end Quarry.Sql
