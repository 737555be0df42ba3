import Quarry.Proofs.Database.Exchanges
import Quarry.Proofs.Row.Reading
import Quarry.Session.Basic

/-!
# Failures of statements are reported

A failure of the driver while a statement runs should reach the caller as an error of the library:
that the statement failed, with its text and its parameters, or that the connection is lost. This
holds of the transaction statements, and of other statements but for two gaps (`Session.leaks`). The
cursor of a statement is opened and closed outside of what is watched for faults, except where
SQLite fetches rows. And where SQLite fetches rows, a statement without a result has no columns to
go through.
-/

set_option autoImplicit false

namespace Quarry

variable {σ δ : Type}

/-- What can be done on a connection. -/
inductive Operation where
  | begin
  | commit
  | rollback
  | execute (sql : String) (params : Value)
  | fetchAll (sql : String) (params : Value)

namespace Operation

/-- The text of the statement. -/
def sql : Operation → String
  | .begin => "BEGIN"
  | .commit => "COMMIT"
  | .rollback => "ROLLBACK"
  | .execute sql _ => sql
  | .fetchAll sql _ => sql

/-- The parameters of the statement. -/
def params : Operation → Value
  | .execute _ params => params
  | .fetchAll _ params => params
  | _ => .null

/-- Whether rows are wanted. -/
def reads : Operation → Bool
  | .fetchAll .. => true
  | _ => false

/-- Whether it begins or ends a transaction. -/
def isCommand : Operation → Bool
  | .execute .. => false
  | .fetchAll .. => false
  | _ => true

/-- A command reads no rows. -/
theorem reads_eq_false {op : Operation} (h : op.isCommand = true) : op.reads = false := by
  cases op with
  | fetchAll => exact absurd h Bool.false_ne_true
  | _ => rfl

/-- A command has no parameters. -/
theorem params_eq_null {op : Operation} (h : op.isCommand = true) : op.params = .null := by
  cases op with
  | execute => exact absurd h Bool.false_ne_true
  | fetchAll => exact absurd h Bool.false_ne_true
  | _ => rfl

end Operation

/-- Do something on a connection. Only what reads gives rows. -/
def Database.perform (d : Database σ) (c : Connection) : Operation → Act σ (List Record)
  | .begin => do d.begin c; return []
  | .commit => do d.commit c; return []
  | .rollback => do d.rollback c; return []
  | .execute sql params => do let _ ← d.execute c sql params; return []
  | .fetchAll sql params => d.fetchAll c sql params

/-! ## What may go over the wire -/

/-- Whether an answer is one that a driver gives: its rows are as wide as there are columns, with
values that can be returned, and without a result there are none. -/
def Answer.isOrderly (a : Answer) : Bool :=
  (a.columns.isSome || a.rows.isEmpty) &&
    a.rows.all fun row => row.length == (a.columns.getD []).length && row.all Value.isReturned

namespace Exchange

/-- Whether a request has failed. -/
def failed (e : Exchange) : Bool := !e.outcome.isOk

/-- Whether a cursor could not be opened or not be closed. -/
def isCursorFailure (e : Exchange) : Bool :=
  e.failed && match e.request with
    | .openCursor _ => true
    | .closeCursor _ => true
    | _ => false

/-- Whether a statement was executed that has no result. -/
def lacksResult (e : Exchange) : Bool :=
  !e.request.isCursor && match e.outcome with
    | .ok a => a.columns.isNone
    | .error _ => false

variable {r : Request} {a : Answer} {error : Error}

/-- A request that is answered has not failed. -/
@[simp] theorem failed_ok : failed ⟨r, .ok a⟩ = false := rfl

/-- A request that ends with an error has failed. -/
@[simp] theorem failed_error : failed ⟨r, .error error⟩ = true := rfl

/-- A request that is answered is no failure of a cursor. -/
@[simp] theorem isCursorFailure_ok : isCursorFailure ⟨r, .ok a⟩ = false := rfl

/-- A cursor that cannot be closed has failed. -/
@[simp] theorem isCursorFailure_closeCursor (c : Connection) :
    isCursorFailure ⟨.closeCursor c, .error error⟩ = true := rfl

/-- Only statements have results. -/
@[simp] theorem lacksResult_ok :
    lacksResult ⟨r, .ok a⟩ = (!r.isCursor && a.columns.isNone) := rfl

/-- What is not about a cursor is no failure of one. -/
theorem isCursorFailure_eq_false {e : Exchange} (h : e.request.isCursor = false) :
    e.isCursorFailure = false := by
  unfold isCursorFailure
  split
  · rename_i hrequest
    simp [hrequest, Request.isCursor] at h
  · rename_i hrequest
    simp [hrequest, Request.isCursor] at h
  · exact Bool.and_false _

end Exchange

/-- Whether an error is a report that a statement has failed or that the connection is lost. -/
def Error.Reports (sql : String) (params : Value) : Error → Prop
  | .query q _ => q.sql = .text sql ∧ q.params = params
  | .pool .lost .. => True
  | _ => False

namespace Session

/-- Whether an error is one that the driver raises for a failure. -/
def isDriverError (x : Session δ) : Error → Bool
  | .fault f =>
    match x.target.engine with
    | .mysql => f.source == .mysql
    | .sqlite _ => f.isSqliteFailure
  | _ => false

/-- Whether an exchange is one that a driver takes part in: it answers, or raises an error of its
own. -/
def isRegular (x : Session δ) (e : Exchange) : Bool :=
  match e.outcome with
  | .ok a => a.isOrderly
  | .error error => x.isDriverError error

/-- A record is a row of a result, as the settings want it. -/
def Shapes (x : Session δ) (columns : List Column) (row record : Record) : Prop :=
  match x.target.engine with
  | .mysql => Mysql.normalizeRow x.settings columns row = .ok record
  | .sqlite _ => record = row

/-- Records are the rows of an answer by column, none if the statement has no result. -/
structure Shows (x : Session δ) (a : Answer) (records : List Record) : Prop where
  each : List.Forall₂ (fun row record => x.Shapes (a.columns.getD [])
    (Record.ofList (((a.columns.getD []).map Column.name).zip row)) record) a.rows records
  empty : a.columns = none → records = []

/-- An operation has ended as it should: with the rows of its statement, or with the report of a
failure. -/
def Reports (x : Session δ) (op : Operation) (exchanges : List Exchange) :
    Except Error (List Record) → Prop
  | .ok records => op.reads = true →
      ∃ e ∈ exchanges, ∃ a, e.request.isCursor = false ∧ e.outcome = .ok a ∧ x.Shows a records
  | .error error => error.Reports op.sql op.params

/-- Whether something has happened that is not reported. -/
def leaks (x : Session δ) (op : Operation) (exchanges : List Exchange) : Bool :=
  match op with
  | .execute .. => exchanges.any Exchange.isCursorFailure
  | .fetchAll .. =>
    match x.target.engine with
    | .mysql => exchanges.any Exchange.isCursorFailure
    | .sqlite _ => !exchanges.any Exchange.failed && exchanges.any Exchange.lacksResult
  | _ => false

/-- The session over a recorded wire. -/
def recorded (x : Session δ) : Session (δ × List Exchange) := ⟨x.target, x.wire.recorded⟩

/-- What an operation asks for over the wire. -/
def exchanges (x : Session δ) (c : Connection) (op : Operation) (s : World δ) : List Exchange :=
  ((x.recorded.database.perform c op).runOn (s.recording [])).2.outside.2

/-! ## Reports -/

variable {x : Session δ} {op : Operation} {e : Error} {sql : String} {params : Value}

/-- What the driver raises is no report by itself. -/
theorem not_reports_of_driver (h : x.isDriverError e = true) : ¬ e.Reports sql params := by
  cases e with
  | fault f => exact id
  | _ => exact absurd h Bool.false_ne_true

/-- Of all that the driver raises a report is made. -/
def Reporting (x : Session δ) (wrap : Fault → Option Error) (sql : String) (params : Value) : Prop :=
  ∀ f, x.isDriverError (.fault f) = true → ∃ report, wrap f = some report ∧ report.Reports sql params

/-- The failure of a request, wrapped, is a report, whatever was to be made of the result. -/
theorem Reporting.reports {wrap : Fault → Option Error} (hwrap : x.Reporting wrap op.sql op.params)
    {exchanges during : List Exchange} {failing : Exchange} (hregular : ∀ e ∈ during, x.isRegular e = true)
    (hmem : failing ∈ during) (hfailed : failing.outcome = .error e) {β : Type}
    (g : β → Except Error (List Record)) :
    x.Reports op exchanges ((Asks.wrapped wrap (.error e)).bind g) := by
  have hdriver : x.isDriverError e = true := by
    have := hregular failing hmem
    rwa [isRegular, hfailed] at this
  cases e with
  | fault f =>
    obtain ⟨report, hreport, hreports⟩ := hwrap f hdriver
    rw [Asks.wrapped, hreport]
    exact hreports
  | _ => exact absurd hdriver Bool.false_ne_true

/-- The exchanges of an operation and its end are as they should be: if the driver takes part in all
of them, it is reported what has happened unless it leaks. -/
def Settles (x : Session δ) (op : Operation) : Report (List Record) := fun r exchanges =>
  (∀ e ∈ exchanges, x.isRegular e = true) → (x.Reports op exchanges r ↔ x.leaks op exchanges = false)

/-- A command leaks nothing. -/
theorem leaks_eq_false (h : op.isCommand = true) (exchanges : List Exchange) :
    x.leaks op exchanges = false := by
  cases op with
  | execute => exact absurd h Bool.false_ne_true
  | fetchAll => exact absurd h Bool.false_ne_true
  | _ => rfl

/-- What does not read and has succeeded is as it should be. -/
theorem reports_ok (h : op.reads = false) (records : List Record) (exchanges : List Exchange) :
    x.Reports op exchanges (.ok records) :=
  fun hreads => absurd hreads (by simp [h])

/-- A statement that begins or ends a transaction settles. -/
theorem asks_command (hcommand : op.isCommand = true) {wrap : Fault → Option Error}
    (hwrap : x.Reporting wrap op.sql .null) {a : Act (World (δ × List Exchange)) Answer}
    {b : Act (World δ) Answer} {s : World δ}
    (h : Asks a b s fun r exchanges => ∃ request, exchanges = [⟨request, r⟩]) :
    Asks (wrapping wrap a >>= (fun _ => pure ()) >>= fun _ => pure [])
      (wrapping wrap b >>= (fun _ => pure ()) >>= fun _ => pure []) s (x.Settles op) := by
  rw [bind_assoc, bind_assoc]
  refine ((h.wrapping wrap).settle fun _ => (.ok [] : Except Error (List Record))).mono ?_
  rintro r exchanges ⟨_, ⟨y, ⟨request, rfl⟩, rfl⟩, rfl⟩ hregular
  refine iff_of_true ?_ (leaks_eq_false hcommand _)
  cases y with
  | ok a => exact reports_ok (Operation.reads_eq_false hcommand) [] _
  | error e =>
    rw [← Operation.params_eq_null hcommand] at hwrap
    exact hwrap.reports hregular List.mem_cons_self rfl _

end Session

end Quarry
