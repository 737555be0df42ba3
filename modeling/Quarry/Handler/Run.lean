import Quarry.Handler.Acquire
import Quarry.Handler.Options
import Quarry.Value.Parameter

/-!
# Working on a connection

Work on a connection goes through fixed stages: the connection is acquired, a transaction begins,
the work is done, the transaction is committed, and the connection is given back. When something
fails the transaction is taken back first, and a connection that was lost is thrown away instead of
given back. A cancellation is nobody's failure: it passes through, and the connection is given back.

`Handler.run` follows its options; `Handler.within` is its part between acquiring and giving back.
`Handler.transaction` goes through the stages by itself, always raises and logs no failure of the
work.
-/

set_option autoImplicit false

namespace Quarry

namespace Handler

variable {σ α : Type}

/-- Log a statement before it is executed: for information if that is asked for, and otherwise for
debugging. -/
def reportStatement (a : Adapter σ) (sql : String) (params : Value) (printed : Bool) :
    Act σ Unit := do
  let level : Level := if printed then .info else .debug
  if ← Act.read (a.keeps level) then
    let shown ← Act.ofExcept (if params.isTrue then params.items else .ok [])
    a.report level ("Query: " ++ sql ++ " | params=" ++ (Value.list shown).literal)
  else return ()

/-- Log a failure. Contention for locks is to be expected and only worth a warning. -/
def reportError (a : Adapter σ) (e : Error) : Act σ Unit :=
  match e with
  | .query q _ =>
    a.report (if q.lockContention then .warning else .error)
      ("SQL error: " ++ e.message ++ "\nSQL: " ++ q.sql.display ++ "\nMessage: " ++
        q.message.display ++ "\nState: " ++ q.state.display ++ "\nError number: " ++
        q.code.display)
  | _ => a.report .error ("Database operation failed: " ++ e.label ++ ": " ++ e.message)

/-- Take back a transaction without hiding the error that is the reason for it. On a lost connection
there is nothing to take back. -/
def rollbackQuietly (h : Handler σ) (c : Connection) (reason : Error) : Act σ Unit := do
  if reason.isLost then return ()
  else
    match ← Act.attempt (h.adapter.rollback c) with
    | .ok _ => return ()
    | .error e =>
      if e.isOrdinary then
        h.adapter.report .error ("Rollback failed after " ++ reason.label ++ ": " ++ e.message)
      else throw e

/-- Give a connection back, or throw it away if it was lost. -/
def dispose (h : Handler σ) (c : Connection) (failure : Option Error) : Act σ Unit :=
  match failure with
  | some e => if e.isLost then h.adapter.destroy c else h.adapter.release c
  | none => h.adapter.release c

/-- The work with the transaction around it. -/
def body (h : Handler σ) (o : RunOptions) (c : Connection) (work : Connection → Act σ α) :
    Act σ α := do
  if o.useTransaction then h.adapter.begin c
  let result ← work c
  if o.useTransaction then h.adapter.commit c
  return result

/-- What is done about a failure. -/
def cleanUp (h : Handler σ) (o : RunOptions) (c : Connection) (e : Error) : Act σ Unit := do
  if o.useTransaction && o.rollbackIfError then h.rollbackQuietly c e
  if o.printSqlError then reportError h.adapter e

/-- Do work on a connection and give the connection back. The outcome is a value; only cancellations
and failures to give back the connection are raised. -/
def within (h : Handler σ) (o : RunOptions) (c : Connection) (work : Connection → Act σ α) :
    Act σ (Except Error α) := do
  match ← Act.attempt (h.body o c work) with
  | .ok result =>
    h.dispose c none
    return .ok result
  | .error e =>
    if e.isOrdinary then
      let cleaned ← Act.attempt (h.cleanUp o c e)
      h.dispose c (some e)
      match cleaned with
      | .ok _ => return .error e
      | .error interruption => throw interruption
    else
      h.dispose c none
      throw e

/-- Do work on a fresh connection. A failure is raised, or, if the options say so, leads to no
result. -/
def run (h : Handler σ) (o : RunOptions) (work : Connection → Act σ α) : Act σ (Option α) := do
  match ← Act.attempt h.acquire with
  | .error e => if e.isPool && !o.raiseErrors then return none else throw e
  | .ok c =>
    match ← h.within o c work with
    | .ok result => return some result
    | .error e => if o.raiseErrors then throw e else return none

/-- Do work inside a transaction on a fresh connection: it is committed when the work succeeds,
taken back when something fails, and the connection is given back in any case. All failures are
raised. -/
def transaction (h : Handler σ) (work : Connection → Act σ α) : Act σ α := do
  let c ← h.acquire
  let done ← Act.attempt do
    h.adapter.begin c
    let result ← work c
    h.adapter.commit c
    return result
  match done with
  | .ok result =>
    h.dispose c none
    return result
  | .error e =>
    if e.isOrdinary then
      let takenBack ← Act.attempt (h.rollbackQuietly c e)
      h.dispose c (some e)
      match takenBack with
      | .ok _ => throw e
      | .error interruption => throw interruption
    else
      h.dispose c none
      throw e

end Handler

end Quarry
