import Quarry.Repository.Basic
import Quarry.Sql.Clause
import Quarry.Sql.Aggregate

/-!
# Selects

A select starts from a condition and is refined step by step. Each `Modifier` gives a new select and
leaves the old one as it was: order, limit, offset and chosen columns are replaced, joins and
OR-groups are added, and a relation is added unless it is there already. The statement is compiled
when the select is complete, so a modifier that does not fit is only noticed then.
-/

set_option autoImplicit false

namespace Quarry

open Sql (Aggregate ColumnRef Dialect Draft Filter Fragment Join JoinKind Relation Statement)

/-- How many objects a select is to give. -/
inductive Amount where
  | all
  /-- The first object; `required` says whether there must be one. -/
  | first (required : Bool)
  deriving DecidableEq

/-- A select as far as it has been said. -/
structure Select where
  condition : Value := .null
  amount : Amount := .all
  order : List Value := []
  limit : Value := .null
  offset : Value := .null
  joins : List Join := []
  columns : List Value := []
  /-- The names of the relations asked for. -/
  related : List String := []
  groups : List Value := []

/-- A refinement of a select. -/
inductive Modifier where
  | order (items : Value)
  | limit (count : Value)
  | offset (count : Value)
  | join (table left right kind : Value)
  | columns (keys : Value)
  | relation (name : Value)
  | orGroups (condition : Value)

namespace Modifier

/-- The OR-groups that a condition gives: itself, or the items of a container. -/
def groupsOf (condition : Value) : Except Error (List Value) :=
  match condition with
  | .record fields => .ok [.record fields]
  | v => v.items

/-- The kind of join that a value names, in any case; only texts and byte strings have cases, and
the name of a kind is a text. -/
def joinKind (kind : Value) : Except Error JoinKind :=
  match kind with
  | .text s => JoinKind.ofValue (.text (String.ofList (Text.upper s.toList)))
  | .bytes data => JoinKind.ofValue (.bytes (data.map upperByte))
  | .buffer _ => misfit .kind
  | _ => misfit .operation
where
  /-- A byte with the case of an ASCII letter raised. -/
  upperByte (b : UInt8) : UInt8 := if 0x61 <= b && b <= 0x7A then b - 0x20 else b

/-- Whether a modifier leaves a select as it is. -/
def isIdle (s : Select) : Modifier → Bool
  | .relation (.text name) => s.related.contains name
  | .orGroups condition => condition.isNull || condition.isUnset
  | _ => false

/-- A select refined by a modifier. -/
def apply (r : Repository) (s : Select) (m : Modifier) : Except Error Select :=
  match m with
  | .order items => do
    let criteria ← (← items.items).mapM Value.asRecord
    return { s with order := criteria.map .record }
  | .limit count => .ok { s with limit := count }
  | .offset count => .ok { s with offset := count }
  | .join table left right kind => do
    return { s with joins := s.joins ++ [⟨table, left, right, ← joinKind kind⟩] }
  | .columns keys => do return { s with columns := ← keys.items }
  | .relation name => do
    let (known, _) ← Relation.named r.relations r.table name
    return if s.related.contains known then s else { s with related := s.related ++ [known] }
  | .orGroups condition =>
    if condition.isNull || condition.isUnset then .ok s
    else (groupsOf condition).map fun groups => { s with groups := s.groups ++ groups }

/-- A select refined by several modifiers one after the other. -/
def applyAll (r : Repository) : Select → List Modifier → Except Error Select
  | s, [] => .ok s
  | s, m :: rest => do applyAll r (← apply r s m) rest

end Modifier

namespace Select

/-- The relations asked for, by name. -/
def relations (r : Repository) (s : Select) : List (String × Relation) :=
  s.related.filterMap fun name => (r.relation? name).map fun relation => (name, relation)

/-- Whether other tables take part, so that columns must say which table they belong to. -/
def isJoined (s : Select) : Bool := !s.joins.isEmpty || !s.related.isEmpty

/-- The table with which columns are qualified, or NULL if they are not. -/
def owner (r : Repository) (s : Select) : Value := if s.isJoined then r.table else .null

/-- The limit that holds. A single object needs one row, unless it collects its children from
many. -/
def effectiveLimit (r : Repository) (s : Select) : Value :=
  match s.amount with
  | .all => s.limit
  | .first _ =>
    if (s.relations r).any fun e => e.2.kind = .hasMany then s.limit else .int 1

/-- The tables that the statement reads. -/
def fromClause (r : Repository) (s : Select) : Except Error Fragment := do
  let table ← Sql.identifier r.table
  let fetched ← Join.fragments (← Relation.joins r.relations r.table (s.related.map .text))
  let joined ← Join.fragments s.joins
  return [.word " FROM ", .name table] ++ fetched ++ joined

/-- The compiled condition. -/
def filter (d : Dialect) (r : Repository) (s : Select) : Except Error Filter :=
  Filter.compile d (s.owner r) r.codec.utc s.condition s.groups

/-- The pieces of the statement. -/
def fragment (d : Dialect) (r : Repository) (s : Select) : Except Error Fragment := do
  let owner := s.owner r
  let columns ← Sql.columnList owner (r.codec.columnNames.map .text) s.columns
    ((s.relations r).map (·.2))
  let filter ← s.filter d r
  let tables ← s.fromClause r
  let order ← Sql.orderClause owner s.order
  let limits ← Sql.limitClause d (s.effectiveLimit r) s.offset
  return .word "SELECT " :: (columns ++ tables ++ filter.whereFragment d ++ order ++ limits)

/-- The statement. The values bound in it are those of its condition. -/
def build (d : Dialect) (r : Repository) (s : Select) : Except Error Statement := do
  let owner := s.owner r
  let columns ← Sql.columnList owner (r.codec.columnNames.map .text) s.columns
    ((s.relations r).map (·.2))
  let condition := (← s.filter d r).write d
  let tables ← s.fromClause r
  let order ← Sql.orderClause owner s.order
  let limits ← Sql.limitClause d (s.effectiveLimit r) s.offset
  return ⟨"SELECT " ++ columns.sql d ++ tables.sql d ++ condition.whereText ++ order.sql d ++
    limits.sql d, condition.params⟩

/-- The pieces of the statement that computes aggregates over the selected rows. -/
def aggregateFragment (d : Dialect) (r : Repository) (s : Select) (aggregates : List Aggregate) :
    Except Error Fragment := do
  if aggregates.isEmpty then refuse .noAggregates
  else
    let parts ← aggregates.mapM (Aggregate.fragment d (s.owner r) r.codec.utc)
    let filter ← s.filter d r
    let tables ← s.fromClause r
    return .word "SELECT " :: (Fragment.joined ", " parts ++ tables ++ filter.whereFragment d)

/-- The statement that computes aggregates over the selected rows. The values of the aggregates come
before those of the condition. -/
def buildAggregates (d : Dialect) (r : Repository) (s : Select) (aggregates : List Aggregate) :
    Except Error Statement := do
  if aggregates.isEmpty then refuse .noAggregates
  else
    let parts := Draft.ofList id (← aggregates.mapM (Aggregate.write d (s.owner r) r.codec.utc))
    let condition := (← s.filter d r).write d
    let tables ← s.fromClause r
    return ⟨"SELECT " ++ ", ".intercalate parts.texts ++ tables.sql d ++ condition.whereText,
      parts.params ++ condition.params⟩

end Select

end Quarry
