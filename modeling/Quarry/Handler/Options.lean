import Quarry.Value.Fields

/-!
# Options of a run

How work on a connection is done: inside a transaction or not, and what happens when it fails.
Options are switches, which count by whether they are true.
-/

set_option autoImplicit false

namespace Quarry

/-- The options of a run; the strict ones are the default. -/
structure RunOptions where
  /-- Whether the work is done inside a transaction. -/
  useTransaction : Bool := true
  /-- Whether a failure is passed on; otherwise the run has no result. -/
  raiseErrors : Bool := true
  /-- Whether a failure is logged. -/
  printSqlError : Bool := true
  /-- Whether a failure takes back the transaction. -/
  rollbackIfError : Bool := true
  deriving DecidableEq, Inhabited

namespace RunOptions

/-- Whether a switch is on, which it is unless something else is said. -/
def switch (name : String) (fields : Record) : Bool := (fields.valueOr name (.bool true)).isTrue

/-- The options that a record gives. -/
def ofFields (fields : Record) : Except Error RunOptions := do
  fields.checkNames [] ["use_transaction", "throw_error", "print_sql_error", "rollback_if_error"]
  return {
    useTransaction := switch "use_transaction" fields
    raiseErrors := switch "throw_error" fields
    printSqlError := switch "print_sql_error" fields
    rollbackIfError := switch "rollback_if_error" fields }

end RunOptions

/-- Options as a declaration gives them: proper ones, or a value in their place that has no
switches. -/
inductive GivenOptions where
  | proper (o : RunOptions)
  | improper (v : Value)
  deriving Inhabited

end Quarry
