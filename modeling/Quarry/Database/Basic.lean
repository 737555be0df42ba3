import Quarry.Wire.Basic
import Quarry.Sql.Fragment

/-!
# Databases

A database is an adapter on which statements can be executed. `Fault`s of its driver become errors
of the library that carry the statement, its parameters and the driver's diagnosis.
-/

set_option autoImplicit false

namespace Quarry

/-- What a statement that writes has done. -/
structure ExecResult where
  affected : Int
  /-- The number given to the first inserted row, 0 if there is none. -/
  insertId : Int
  deriving DecidableEq, Inhabited

/-- An adapter on which statements can be executed. -/
structure Database (σ : Type) extends Adapter σ where
  dialect : Sql.Dialect
  settings : Settings
  /-- Execute a statement that writes. -/
  execute : Connection → String → Value → Act σ ExecResult
  /-- Execute a statement that reads, and give its rows. -/
  fetchAll : Connection → String → Value → Act σ (List Record)
  shutdown : Act σ Unit

namespace Database

variable {σ : Type}

/-- The handler with the settings of the database. -/
def handler (d : Database σ) : Handler σ :=
  ⟨d.toAdapter, d.settings.retryCount, d.settings.retryDelay⟩

end Database

/-- Turn the faults of an act that `wrap` knows into errors of the library. -/
def wrapping {σ α : Type} (wrap : Fault → Option Error) (a : Act σ α) : Act σ α := do
  match ← Act.attempt a with
  | .ok result => return result
  | .error (.fault f) => throw ((wrap f).getD (.fault f))
  | .error e => throw e

/-- The values for the placeholders of a statement; what counts as false gives none. -/
def boundValues (params : Value) : Except Error (List Value) :=
  if params.isTrue then params.items else .ok []

end Quarry
