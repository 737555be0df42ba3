import Quarry.Sql.Condition
import Quarry.Value.Fields
import Quarry.Number.Read

/-!
# Aggregates

An aggregate computes one number from all rows that satisfy a condition: a sum, an average, an
extreme or a count, of a column or, with a case, of one of two values for each row. The result row
holds the numbers in whatever form the driver chooses; `numberOf` makes proper numbers of them,
integers where the value is one, and 0 of anything that is no number.
-/

set_option autoImplicit false

namespace Quarry.Sql

/-- What is computed. -/
inductive AggregateFunction where
  | sum
  | average
  | minimum
  | maximum
  | count
  deriving DecidableEq

namespace AggregateFunction

/-- The keyword of the function. -/
def label : AggregateFunction → String
  | .sum => "SUM"
  | .average => "AVG"
  | .minimum => "MIN"
  | .maximum => "MAX"
  | .count => "COUNT"

/-- The function of an upper-case keyword. -/
def ofName? : String → Option AggregateFunction
  | "SUM" => some .sum
  | "AVG" => some .average
  | "MIN" => some .minimum
  | "MAX" => some .maximum
  | "COUNT" => some .count
  | _ => none

/-- The function that a value names, in any case. -/
def ofValue (v : Value) : Except Error AggregateFunction :=
  match ofName? (String.ofList (Text.upper v.display.toList)) with
  | some f => .ok f
  | none => refuse (.aggregateFunction v)

end AggregateFunction

/-- One aggregate. -/
structure Aggregate where
  function : AggregateFunction
  /-- The name of the number in the result. -/
  label : Value
  /-- The column's key; a value that counts as false names none, and a count may do without. -/
  column : Value
  /-- A record with a condition `when` and the values `then` and `else`, or NULL. -/
  case : Value
  /-- Whether NULL counts as 0, if that was said. -/
  coalesce : Option Bool

namespace Aggregate

/-- The aggregate that a record declares. Only a count may leave out the column. -/
def ofValue (v : Value) : Except Error Aggregate := do
  let fields ← v.asFields
  fields.checkNames ["fn", "alias"] ["column", "case", "coalesce"]
  let function ← AggregateFunction.ofValue (fields.getD "fn")
  let label := fields.getD "alias"
  let column := fields.valueOr "column" .null
  if function ≠ .count && !column.isTrue then refuse (.aggregateColumn function.label label)
  else
    let coalesce := fields.valueOr "coalesce" .null
    return ⟨function, label, column, fields.valueOr "case" .null,
      if coalesce.isNull then none else some coalesce.isTrue⟩

/-- The pieces of an aggregate over an expression. -/
def call (a : Aggregate) (label : String) (expression : Fragment) : Fragment :=
  [.word a.function.label, .word "("] ++ expression ++ [.word ") AS ", .name label]

/-- The key of the column, which is a star if none is named. -/
def columnKey (a : Aggregate) : Value := if a.column.isTrue then a.column else .text "*"

/-- The expression of an aggregate without a case. -/
def plainExpression (owner : Value) (a : Aggregate) : Except Error Fragment := do
  if a.function = .count && Value.same a.columnKey (.text "*") then return [.word "*"]
  else
    let reference := (← ColumnRef.ofValue owner a.columnKey).fragment
    if a.coalesce.getD (decide (a.function = .sum)) then
      return .word "COALESCE(" :: (reference ++ [.word ", 0)"])
    else return reference

/-- The expression of an aggregate over the rows that satisfy a filter. -/
def caseExpression (d : Dialect) (a : Aggregate) (case : Record) (filter : Filter) : Fragment :=
  .word "CASE WHEN " :: (filter.fragment d ++
    (if a.function = .count then [.word " THEN 1 END"]
     else [.word " THEN ", .slot (case.valueOr "then" (.int 1)), .word " ELSE ",
       .slot (case.valueOr "else" (.int 0)), .word " END"]))

/-- The case of an aggregate with its filter, if it has a condition that says something. -/
def activeCase (d : Dialect) (owner : Value) (utc : Bool) (a : Aggregate) :
    Except Error (Option (Record × Filter)) := do
  let case ← a.case.asOptionalFields
  let condition := case.valueOr "when" .null
  if condition.isTrue then
    let filter ← Filter.compile d owner utc condition []
    return if filter.isEmpty then none else some (case, filter)
  else return none

/-- The pieces of an aggregate. A case whose condition says nothing is passed over. -/
def fragment (d : Dialect) (owner : Value) (utc : Bool) (a : Aggregate) :
    Except Error Fragment := do
  let label ← identifier a.label
  match ← a.activeCase d owner utc with
  | some (case, filter) => return a.call label (a.caseExpression d case filter)
  | none => return a.call label (← a.plainExpression owner)

/-- The text of an aggregate, and the values bound in it. The values of a case are those of its
condition and then its own. -/
def write (d : Dialect) (owner : Value) (utc : Bool) (a : Aggregate) : Except Error Statement := do
  let label ← identifier a.label
  let call := fun expression => a.function.label ++ "(" ++ expression ++ ") AS " ++ d.quoteName label
  match ← a.activeCase d owner utc with
  | some (case, filter) =>
    let condition := filter.write d
    if a.function = .count then
      return ⟨call ("CASE WHEN " ++ condition.sql ++ " THEN 1 END"), condition.params⟩
    else
      return ⟨call ("CASE WHEN " ++ condition.sql ++ " THEN " ++ d.placeholder ++ " ELSE " ++
          d.placeholder ++ " END"),
        condition.params ++ [case.valueOr "then" (.int 1), case.valueOr "else" (.int 0)]⟩
  | none => return ⟨call ((← a.plainExpression owner).sql d), []⟩

/-- A floating-point number as an integer if it is one. -/
def tidy (x : Number.Binary64) : Value :=
  match x.toInt? with
  | some n => .int n
  | none => .real x

/-- A number that was read, 0 if there was none. -/
def tidyRead : Option Number.Binary64 → Value
  | some x => tidy x
  | none => .int 0

/-- The number written by a byte string of ASCII characters. -/
def readBytes? (data : List UInt8) : Option Number.Binary64 :=
  if data.all (fun b => b.toNat < 0x80) then
    Number.readReal? (String.ofList (data.map fun b => Char.ofNat b.toNat))
  else none

/-- The number that a decimal number stands for. -/
def numberOfDecimal [Limits] (d : Number.Decimal) : Except Error Value :=
  if d.isSignaling then misfit .noNumber
  else if d.isInfinite || d.isWhole then (Value.wholeOfDecimal d).map .int
  else .ok (.real d.toBinary64)

/-- The number that a value in a result row stands for. -/
def numberOf [Limits] : Value → Except Error Value
  | .bool b => .ok (.int (if b then 1 else 0))
  | .int n => .ok (.int n)
  | .real x => .ok (tidy x)
  | .decimal d => numberOfDecimal d
  | .text s => .ok (tidyRead (Number.readReal? s))
  | .bytes data => .ok (tidyRead (readBytes? data))
  | .buffer data => .ok (tidyRead (readBytes? data))
  | _ => .ok (.int 0)

/-- What a row holds under a label. Only what can never change can be looked up, and only texts are
names of columns. -/
def cellOf (row : Record) (label : Value) : Except Error Value :=
  match label with
  | .text name => .ok (row.valueOr name .null)
  | _ => if label.isFixed then .ok .null else misfit .kind

/-- Give a label a number: in its place if the label is there, at the end otherwise. -/
def setNumber (label number : Value) : List (Value × Value) → List (Value × Value)
  | [] => [(label, number)]
  | (k, n) :: rest =>
    if Value.same k label then (k, number) :: rest else (k, n) :: setNumber label number rest

/-- Add the numbers of further aggregates to a result. -/
def collect [Limits] (row : Record) :
    List (Value × Value) → List Aggregate → Except Error (List (Value × Value))
  | result, [] => .ok result
  | result, a :: rest => do
    let n ← numberOf (← cellOf row a.label)
    collect row (setNumber a.label n result) rest

/-- The numbers of aggregates by label, from the result row, if there is one. -/
def result [Limits] (row : Value) (aggregates : List Aggregate) : Except Error (List (Value × Value)) :=
  match aggregates with
  | [] => .ok []
  | _ => do collect (← row.asOptionalFields) [] aggregates

end Aggregate

end Quarry.Sql
