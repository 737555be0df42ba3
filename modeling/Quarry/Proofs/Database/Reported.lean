import Quarry.Proofs.Database.MysqlReporting
import Quarry.Proofs.Database.SqliteReporting
import Quarry.Wire.Script

/-!
# What is done is reported

Whatever is done over a connection of either database, whichever of the requests for it fail: it
ends with the rows of its statement or with a report, unless it leaks.
-/

set_option autoImplicit false

namespace Quarry

variable {δ : Type}

namespace Session

/-- What is done on a connection with parameters that can be bound, while the driver of the database
takes part in every exchange, ends with the rows of its statement or with the report of a failure,
if and only if it does not leak. The driver of SQLite takes no part where the connection is
closed. -/
theorem perform_reports_iff (x : Session δ) (c : Connection) (op : Operation) (s : World δ)
    (hopen : x.target.engine = .mysql ∨ s.isClosed c = false)
    (hparams : ∃ values, boundValues op.params = .ok values)
    (hregular : ∀ e ∈ x.exchanges c op s, x.isRegular e = true) :
    x.Reports op (x.exchanges c op s) ((x.database.perform c op).runOn s).1 ↔
      x.leaks op (x.exchanges c op s) = false := by
  have hsettles : Asks (x.recorded.database.perform c op) (x.database.perform c op) s (x.Settles op) := by
    unfold Session.database Session.recorded
    cases hengine : x.target.engine with
    | mysql => exact Mysql.asks_perform x hengine c op s hparams
    | sqlite path => exact Sqlite.asks_perform x hengine op hparams (hopen.resolve_left (by simp [hengine]))
  obtain ⟨exchanges, hrun, hsettle⟩ := hsettles []
  have hexchanges : x.exchanges c op s = exchanges := by
    rw [Session.exchanges, hrun]
    rfl
  rw [hexchanges] at hregular ⊢
  exact hsettle hregular

/-! ## A statement without a result, and a cursor that cannot be closed -/

/-- An SQLite file in memory that answers as it was told to. -/
def scripted : Session (Script Answer) := ⟨⟨.sqlite ":memory:", {}⟩, Script.wire⟩

/-- A world with one answer in store. -/
def answering (a : Answer) : World (Script Answer) := { outside := { replies := [("execute", .ok a)] } }

/-- The failure of a server that went away. -/
def serverGone : Error :=
  .fault { source := .mysql, name := "OperationalError", args := [.int 2006, .text "server has gone away"] }

/-- A server that goes away before the cursor of a statement is closed. -/
def abrupt : Session Unit where
  target := ⟨.mysql, {}⟩
  wire := ⟨fun r => match r with
    | .closeCursor _ => throw serverGone
    | _ => return {}⟩

/-- Two rows are fetched, and this is reported. -/
theorem perform_reports_two_rows :
    let s := answering { columns := some [⟨"a", 253, 0⟩], rows := [[.int 1], [.int 2]] }
    let op := Operation.fetchAll "SELECT a FROM t" .null
    scripted.Reports op (scripted.exchanges ⟨"c1"⟩ op s)
      ((scripted.database.perform ⟨"c1"⟩ op).runOn s).1 := by
  intro s op
  have hregular : ∀ e ∈ scripted.exchanges ⟨"c1"⟩ op s, scripted.isRegular e = true :=
    List.all_eq_true.mp rfl
  exact (scripted.perform_reports_iff ⟨"c1"⟩ op s (.inr rfl) ⟨[], rfl⟩ hregular).mpr rfl

/-- Where no rows come from there is no empty list of them, and a server that went away is not known
to be lost. -/
theorem perform_not_reports :
    (let s := answering { columns := none }
      let op := Operation.fetchAll "CREATE TABLE t (a)" .null
      (∀ e ∈ scripted.exchanges ⟨"c1"⟩ op s, scripted.isRegular e = true) ∧
        ((scripted.database.perform ⟨"c1"⟩ op).runOn s).1 = .error (.misfit .kind)) ∧
      (let s : World Unit := { outside := () }
        let op := Operation.execute "DELETE FROM t" .null
        (∀ e ∈ abrupt.exchanges ⟨"c1"⟩ op s, abrupt.isRegular e = true) ∧
          ((abrupt.database.perform ⟨"c1"⟩ op).runOn s).1 = .error serverGone) :=
  ⟨⟨List.all_eq_true.mp rfl, rfl⟩, ⟨List.all_eq_true.mp rfl, rfl⟩⟩

end Session

end Quarry
