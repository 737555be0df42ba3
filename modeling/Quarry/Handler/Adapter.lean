import Quarry.Act
import Quarry.Log
import Quarry.Settings.Basic

/-!
# Adapters

An adapter is what the handler sees of a database: connections can be acquired, given back, thrown
away, asked whether they live, and used for transactions. Besides, the adapter can wait and keeps a
log. Each of its operations is an act on the adapter's own state.
-/

set_option autoImplicit false

namespace Quarry

/-- A connection, known by its name. -/
structure Connection where
  name : String
  deriving DecidableEq, Inhabited

/-- The operations of a database that the handler needs. -/
structure Adapter (σ : Type) where
  /-- The settings for log lines, with passwords masked. -/
  description : Except Error Record
  /-- How much of the pool is in use. -/
  poolStatus : σ → Record
  /-- Whether log records of a level are kept. -/
  keeps : Level → σ → Bool
  /-- Add a log record. -/
  log : Level → String → σ → σ
  /-- Whether a log record of which no text can be made is an error; otherwise it is left out. -/
  strict : σ → Bool
  /-- Let a number of seconds pass. -/
  sleep : Value → Act σ Unit
  acquire : Act σ Connection
  /-- Give a connection back for others to use. -/
  release : Connection → Act σ Unit
  /-- Close a connection so that nobody will use it again. -/
  destroy : Connection → Act σ Unit
  /-- Whether a connection answers. -/
  ping : Connection → Act σ Bool
  begin : Connection → Act σ Unit
  commit : Connection → Act σ Unit
  rollback : Connection → Act σ Unit

namespace Adapter

variable {σ : Type}

/-- Add a log record. -/
def report (a : Adapter σ) (level : Level) (text : String) : Act σ Unit :=
  Act.update (a.log level text)

/-- Add a log record of which there may be no text. -/
def reportWritten (a : Adapter σ) (level : Level) (text : Except Error String) : Act σ Unit :=
  match text with
  | .ok text => a.report level text
  | .error e => do
    if ← Act.read a.strict then throw e
    else return ()

end Adapter

/-- A handler gets connections from an adapter, trying again when that may help. -/
structure Handler (σ : Type) where
  adapter : Adapter σ
  /-- How often a failed acquisition is tried again. -/
  retryCount : Value
  /-- The seconds before the first new try; they double with each further one. -/
  retryDelay : Value

end Quarry
