import Quarry.Sql.Relation

/-!
# Clauses

The parts of a SELECT statement besides its condition and its joins: the list of columns, the order,
and the limits. Each clause starts with a space, or is empty when nothing was asked for.
-/

set_option autoImplicit false

namespace Quarry.Sql

/-- Whether a selected column is a piece of SQL and no name: it holds a star, a parenthesis or an
alias. -/
def isRawColumn (column : String) : Bool :=
  let cs := column.toList
  cs.contains '*' || cs.contains '(' || Text.holds " AS ".toList (Text.upper cs)

/-- Whether a selected column given as a value is a piece of SQL. A container may look like one, but
has no letters; other values are of the wrong kind from the start. -/
def isRawValue (column : Value) : Except Error Bool :=
  match column with
  | .text s => .ok (isRawColumn s)
  | _ =>
    match column.holdsText? "*", column.holdsText? "(" with
    | some true, _ => .ok true
    | _, some true => .ok true
    | some false, _ => misfit .operation
    | none, _ => misfit .kind

/-- A selected column; pieces of SQL stay as they are. What passes for one without being a text
gives nothing. -/
def selectedColumn (owner : Value) (column : Value) : Except Error (Option Fragment) := do
  if ← isRawValue column then
    match column with
    | .text s => return some [.raw s]
    | _ => return none
  else return some (← ColumnRef.ofValue owner column).fragment

/-- The columns chosen, or else the declared ones. -/
def ownColumns (owner : Value) (declared chosen : List Value) :
    Except Error (List (Option Fragment)) :=
  if chosen.isEmpty then declared.mapM fun c => do
    return some (← ColumnRef.ofValue owner c).fragment
  else chosen.mapM (selectedColumn owner)

/-- The list of columns of a SELECT: those chosen, or else the declared ones, and then those of the
relations. -/
def columnList (owner : Value) (declared chosen : List Value) (relations : List Relation) :
    Except Error Fragment := do
  let own ← ownColumns owner declared chosen
  let others ← relations.mapM Relation.columns
  if own.all Option.isSome then
    return Fragment.joined ", " (own.filterMap id ++ others.flatten)
  else misfit .kind

/-- The direction of an order. -/
inductive Direction where
  | ascending
  | descending
  deriving DecidableEq

namespace Direction

/-- The keyword of the direction. -/
def label : Direction → String
  | .ascending => "ASC"
  | .descending => "DESC"

/-- The direction that a value names, in any case. A value that counts as false names none, and then
the order is ascending. -/
def ofValue (v : Value) : Except Error Direction :=
  if v.isTrue then
    match String.ofList (Text.upper v.display.toList) with
    | "ASC" => .ok .ascending
    | "DESC" => .ok .descending
    | _ => refuse (.direction v)
  else .ok .ascending

end Direction

/-- One criterion of an order: a record that names a column and perhaps a direction. -/
def orderItem (owner : Value) (item : Value) : Except Error Fragment :=
  match item with
  | .record fields => do
    let direction ← Direction.ofValue (Record.valueOr "direction" .null fields)
    match Record.get? "column" fields with
    | none => misfit .entry
    | some column =>
      let reference ← ColumnRef.ofValue owner column
      return reference.fragment ++ [.word " ", .word direction.label]
  | _ => misfit .operation

/-- The ORDER BY clause. -/
def orderClause (owner : Value) (items : List Value) : Except Error Fragment := do
  let parts ← items.mapM (orderItem owner)
  return if parts.isEmpty then [] else .word " ORDER BY " :: Fragment.joined ", " parts

/-- A count, which must be an integer that is not negative. -/
def checkCount (what : String) (v : Value) : Except Error Nat :=
  match v with
  | .int n => if n < 0 then refuse (.count what v) else .ok n.toNat
  | _ => refuse (.count what v)

/-- The limit as text. There is no offset without a limit, so an offset alone comes with the limit
that is none. -/
def limitPart (d : Dialect) (limit offset : Value) : Except Error Fragment :=
  if limit.isNull then
    .ok (if offset.isNull then [] else [.word " LIMIT ", .word d.unboundedLimit])
  else (checkCount "limit" limit).map fun n => [.word " LIMIT ", .word (toString n)]

/-- The offset as text. -/
def offsetPart (offset : Value) : Except Error Fragment :=
  if offset.isNull then .ok []
  else (checkCount "offset" offset).map fun n => [.word " OFFSET ", .word (toString n)]

/-- The limits of a SELECT; NULL stands for no limit and for no offset. -/
def limitClause (d : Dialect) (limit offset : Value) : Except Error Fragment := do
  return (← limitPart d limit offset) ++ (← offsetPart offset)

end Quarry.Sql
