import Quarry.Proofs.Handler.Transcript
import Quarry.Session.Table

/-!
# Writes of many statements

An update and a delete come down to the same: statements are compiled, and they are executed one
after the other on one connection. `BulkWrite` is either of them. Of a session they use nothing but
its database (`Session.bulk_eq`), so they can be done as well on a database that keeps a transcript,
and the transcript tells which statements were executed, where, and between which other calls.
-/

set_option autoImplicit false

namespace Quarry

open Sql (Dialect Statement)

variable {σ τ δ α : Type}

/-- A write of any number of statements. -/
inductive BulkWrite where
  | update (changes : List (Value × Value)) (force : Bool)
  | delete (conditions : Value)

namespace BulkWrite

/-- The statements that are to be executed. -/
def statements (d : Dialect) (r : Repository) : BulkWrite → Except Error (List Statement)
  | .update changes force => Update.build d r changes force
  | .delete conditions => Delete.build d r conditions

/-- How many changes are passed over and logged. -/
def skipped (d : Dialect) (r : Repository) : BulkWrite → Nat
  | .update changes force => Update.skipped d r force changes
  | .delete _ => 0

end BulkWrite

/-- A write on a repository of a session. -/
def Session.bulk (x : Session δ) (r : Repository) (given : Option Connection) :
    BulkWrite → Act (World δ) (Option WriteResult)
  | .update changes force => x.update r changes force given
  | .delete conditions => x.delete r conditions given

/-! ## Writes on a database -/

namespace Database

variable (d : Database σ) (r : Repository) (given : Option Connection)

/-- Do work on a given connection, or else on a fresh one. -/
def join (o : RunOptions) (work : Connection → Act σ α) : Act σ (Option α) :=
  match given with
  | some c => do return some (← work c)
  | none => d.handler.run o work

/-- What becomes of writes if the options have no switches. -/
def runWithout : Act σ α := do
  match ← Act.attempt d.handler.acquire with
  | .error e => throw (if e.isPool then .misfit .operation else e)
  | .ok c =>
    d.release c
    throw (.misfit .operation)

/-- Write on a given connection, or else on a fresh one, with the options of a repository. -/
def joinWrite (work : Connection → Act σ α) : Act σ (Option α) :=
  match r.options, given with
  | .proper o, _ => d.join given o work
  | .improper v, none => if v.isTrue then d.runWithout else d.join given {} work
  | .improper _, some _ => d.join given {} work

/-- Log a statement and execute it. -/
def write (c : Connection) (st : Statement) : Act σ ExecResult := do
  Handler.reportStatement d.toAdapter st.sql (.list st.params) r.printQuery.isTrue
  d.execute c st.sql (.list st.params)

/-- Execute statements in order and add up how many rows they have affected. -/
def writeEach (c : Connection) : List Statement → Act σ Int
  | [] => return 0
  | st :: rest => do
    let result ← d.write r c st
    return result.affected + (← writeEach c rest)

/-- Execute statements on one connection; without any, none is needed. -/
def writeAll (statements : List Statement) : Act σ (Option WriteResult) :=
  match statements with
  | [] => return some {}
  | _ => d.joinWrite r given fun c => do
      return { affected := ← d.writeEach r c statements }

/-- Log a number of changes that were passed over. -/
def reportSkipped (table : Value) : Nat → Act σ Unit
  | 0 => return ()
  | n + 1 => do
    d.report .debug ("Skipping update on '" ++ table.display ++ "' with empty payload")
    reportSkipped table n

/-- Write on a repository. -/
def bulk (b : BulkWrite) : Act σ (Option WriteResult) := do
  d.reportSkipped r.table (b.skipped d.dialect r)
  d.writeAll r given (← Act.ofExcept (b.statements d.dialect r))

end Database

namespace Session

variable (x : Session δ) (r : Repository) (given : Option Connection)

/-- A session writes statement by statement as its database does. -/
theorem writeEach_eq (c : Connection) (statements : List Statement) :
    x.writeEach r c statements = x.database.writeEach r c statements := by
  induction statements with
  | nil => rfl
  | cons st rest ih =>
    unfold Session.writeEach Database.writeEach
    rw [ih]
    rfl

/-- A session joins a connection for a write as its database does. -/
theorem joinWrite_eq (work : Connection → Act (World δ) α) :
    x.joinWrite r given work = x.database.joinWrite r given work := rfl

/-- A session writes all statements as its database does. -/
theorem writeAll_eq (statements : List Statement) :
    x.writeAll r statements given = x.database.writeAll r given statements := by
  cases statements with
  | nil => rfl
  | cons st rest =>
    unfold Session.writeAll Database.writeAll
    simp only [joinWrite_eq, writeEach_eq]

/-- A session reports as its database does. -/
theorem report_eq (level : Level) (text : String) :
    World.report level text = x.database.report level text := by
  unfold Session.database
  cases x.target.engine <;> rfl

/-- A session reports what it skips as its database does. -/
theorem reportSkipped_eq (table : Value) (n : Nat) :
    reportSkipped table n = x.database.reportSkipped table n := by
  induction n with
  | zero => rfl
  | succ n ih =>
    unfold Session.reportSkipped Database.reportSkipped
    rw [ih, x.report_eq]

/-- Of a session, writes use only its database. -/
theorem bulk_eq (b : BulkWrite) : x.bulk r given b = x.database.bulk r given b := by
  cases b with
  | update changes force =>
    unfold Session.bulk Session.update Database.bulk
    simp only [reportSkipped_eq x, writeAll_eq]
    rfl
  | delete conditions =>
    unfold Session.bulk Session.delete Database.bulk
    simp only [writeAll_eq]
    rfl

end Session

/-! ## Databases that mirror each other -/

/-- One database does what the other does, as far as states are related. -/
structure Database.Mirrors (R : σ → τ → Prop) (d : Database σ) (e : Database τ) : Prop where
  adapter : d.toAdapter.Mirrors R e.toAdapter
  dialect : d.dialect = e.dialect
  settings : d.settings = e.settings
  execute : ∀ c sql params, Alike R (d.execute c sql params) (e.execute c sql params)

namespace Database.Mirrors

variable {R : σ → τ → Prop} {d : Database σ} {e : Database τ} {r : Repository}
  {given : Option Connection} {f : Connection → Act σ α} {g : Connection → Act τ α}

/-- Databases that mirror each other have handlers that do. -/
theorem handler (hmirrors : d.Mirrors R e) : d.handler.Mirrors R e.handler where
  adapter := hmirrors.adapter
  retryCount := congrArg Settings.retryCount hmirrors.settings
  retryDelay := congrArg Settings.retryDelay hmirrors.settings

/-- Both databases work on a given connection, or else on a fresh one. -/
theorem join (hmirrors : d.Mirrors R e) (o : RunOptions) (hwork : ∀ c, Alike R (f c) (g c)) :
    Alike R (d.join given o f) (e.join given o g) := by
  cases given with
  | some c => exact (hwork c).bind fun x => .pure (some x)
  | none => exact hmirrors.handler.run hwork

/-- Both databases run without a connection given. -/
theorem runWithout (hmirrors : d.Mirrors R e) :
    Alike (β := α) R d.runWithout e.runWithout := by
  refine hmirrors.handler.acquire.attempt.bind fun acquired => ?_
  cases acquired with
  | error reason => exact .raise _
  | ok c => exact (hmirrors.adapter.release c).bind fun _ => .raise _

/-- Both databases join a connection for a write. -/
theorem joinWrite (hmirrors : d.Mirrors R e) (hwork : ∀ c, Alike R (f c) (g c)) :
    Alike R (d.joinWrite r given f) (e.joinWrite r given g) := by
  unfold Database.joinWrite
  cases r.options with
  | proper o => exact hmirrors.join o hwork
  | improper v =>
    cases given with
    | some c => exact hmirrors.join {} hwork
    | none =>
      cases hv : v.isTrue with
      | true => simpa [hv] using hmirrors.runWithout
      | false => simpa [hv] using hmirrors.join {} hwork

/-- Both databases report a statement. -/
theorem reportStatement (hmirrors : d.Mirrors R e) (sql : String) (params : Value) (printed : Bool) :
    Alike R (Handler.reportStatement d.toAdapter sql params printed)
      (Handler.reportStatement e.toAdapter sql params printed) := by
  unfold Handler.reportStatement
  refine (Alike.read (hmirrors.adapter.keeps _)).bind fun kept => ?_
  cases kept with
  | false => exact .pure ()
  | true => exact (Alike.ofExcept _).bind fun shown => hmirrors.adapter.report _ _

/-- Both databases write a statement. -/
theorem write (hmirrors : d.Mirrors R e) (c : Connection) (st : Statement) :
    Alike R (d.write r c st) (e.write r c st) :=
  (hmirrors.reportStatement _ _ _).bind fun _ => hmirrors.execute c _ _

/-- Both databases write statement by statement. -/
theorem writeEach (hmirrors : d.Mirrors R e) (c : Connection) (statements : List Statement) :
    Alike R (d.writeEach r c statements) (e.writeEach r c statements) := by
  induction statements with
  | nil => exact .pure 0
  | cons st rest ih => exact (hmirrors.write c st).bind fun _ => ih.bind fun _ => .pure _

/-- Both databases write all statements. -/
theorem writeAll (hmirrors : d.Mirrors R e) (statements : List Statement) :
    Alike R (d.writeAll r given statements) (e.writeAll r given statements) := by
  cases statements with
  | nil => exact .pure _
  | cons st rest =>
    exact hmirrors.joinWrite fun c => (hmirrors.writeEach c (st :: rest)).bind fun _ => .pure _

/-- Both databases report what they skip. -/
theorem reportSkipped (hmirrors : d.Mirrors R e) (table : Value) (n : Nat) :
    Alike R (d.reportSkipped table n) (e.reportSkipped table n) := by
  induction n with
  | zero => exact .pure ()
  | succ n ih => exact (hmirrors.adapter.report _ _).bind fun _ => ih

/-- Both databases do a bulk write. -/
theorem bulk (hmirrors : d.Mirrors R e) (b : BulkWrite) :
    Alike R (d.bulk r given b) (e.bulk r given b) := by
  unfold Database.bulk
  rw [hmirrors.dialect]
  exact (hmirrors.reportSkipped _ _).bind fun _ =>
    (Alike.ofExcept _).bind hmirrors.writeAll

end Database.Mirrors

/-! ## Databases that keep a transcript -/

/-- Something done on a connection for the sake of the work: a statement, and how it ended. -/
inductive Deed where
  | execute (sql : String) (params : Value) (outcome : Except Error ExecResult)
  | fetchAll (sql : String) (params : Value) (outcome : Except Error (List Record))

/-- A database that keeps a transcript. -/
def Database.transcribed (d : Database σ) : Database (Transcribed σ Deed) where
  toAdapter := d.toAdapter.transcribed
  dialect := d.dialect
  settings := d.settings
  execute := fun c sql params =>
    Transcribed.noted (fun r => .use c (.execute sql params r)) (d.execute c sql params)
  fetchAll := fun c sql params =>
    Transcribed.noted (fun r => .use c (.fetchAll sql params r)) (d.fetchAll c sql params)
  shutdown := Transcribed.noted .shutdown d.shutdown

namespace Database

variable (d : Database σ)

/-- A database with a transcript mirrors the plain one. -/
theorem transcribed_mirrors : d.transcribed.Mirrors (fun t s => t.state = s) d where
  adapter := d.toAdapter.transcribed_mirrors
  dialect := rfl
  settings := rfl
  execute := fun _ _ _ => alike_noted_plain _

end Database

end Quarry
