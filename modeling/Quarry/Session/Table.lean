import Quarry.Session.Basic
import Quarry.Repository.Select
import Quarry.Repository.Write
import Quarry.Repository.Mapper

/-!
# Objects in tables

Selects, inserts, updates and deletes on the repositories of a session. All statements of a call are
compiled before the first one is executed, and they are executed in order on one connection.
-/

set_option autoImplicit false

namespace Quarry

open Sql (Aggregate Statement)

/-- What a call that writes has done. -/
structure WriteResult where
  affected : Int := 0
  insertId : Int := 0
  /-- The numbers of all inserted rows, if the database has given out numbers in a row. -/
  insertIds : List Int := []
  deriving DecidableEq, Inhabited

namespace WriteResult

/-- The result of an insert. -/
def ofInsert (r : ExecResult) : WriteResult :=
  ⟨r.affected, r.insertId,
    if r.insertId = 0 then []
    else (List.range r.affected.toNat).map fun i : Nat => r.insertId + (i : Int)⟩

end WriteResult

namespace Session

variable {δ α : Type}

/-- Give a connection back that was acquired for nothing, and report that the options have no
switches. Even a failure to acquire is looked up in the options. -/
def runWithout (x : Session δ) : Act (World δ) α := do
  match ← Act.attempt x.handler.acquire with
  | .error e => throw (if e.isPool then .misfit .operation else e)
  | .ok c =>
    x.database.release c
    throw (.misfit .operation)

/-- Write on a given connection, or else on a fresh one, with the options of a repository. Options
that count as false are as good as none. -/
def joinWrite (x : Session δ) (r : Repository) (given : Option Connection)
    (work : Connection → Act (World δ) α) : Act (World δ) (Option α) :=
  match r.options, given with
  | .proper o, _ => x.join given o work
  | .improper v, none => if v.isTrue then x.runWithout else x.join given {} work
  | .improper _, some _ => x.join given {} work

/-- Read on a given connection, or else on a fresh one, with the options of a repository but without
a transaction; options that are none cannot be changed to that. -/
def joinRead (x : Session δ) (r : Repository) (given : Option Connection)
    (work : Connection → Act (World δ) α) : Act (World δ) (Option α) :=
  match r.options, given with
  | .proper o, _ => x.join given { o with useTransaction := false } work
  | .improper _, none => throw (.misfit .kind)
  | .improper _, some _ => x.join given {} work

/-- Fetch the rows of a statement of a repository. -/
def fetch (x : Session δ) (r : Repository) (st : Statement) (c : Connection) :
    Act (World δ) (List Record) :=
  x.logged st.sql (.list st.params) r.printQuery.isTrue x.database.fetchAll c

/-- The objects of a select, none if the select failed and failures are not raised. -/
def objects (x : Session δ) (r : Repository) (s : Select) (given : Option Connection) :
    Act (World δ) (Option (List Record)) := do
  let st ← Act.ofExcept (s.build x.database.dialect r)
  x.joinRead r given fun c => do
    let rows ← x.fetch r st c
    let m ← Act.ofExcept (Mapper.make r.codec s.columns (s.relations r))
    Act.ofExcept (m.objects (rows.map .record))

/-- The result of a select: a list of objects, or a single one. -/
def select (x : Session δ) (r : Repository) (s : Select) (given : Option Connection) :
    Act (World δ) Value := do
  let found ← x.objects r s given
  match s.amount, found with
  | .all, _ => return .list ((found.getD []).map .record)
  | .first _, some (object :: _) => return .record object
  | .first true, some [] => throw (.notFound r.table s.condition [])
  | .first _, _ => return .null

/-- Compute aggregates over the rows of a select; a select of a single object has none. -/
def calculate (x : Session δ) (r : Repository) (s : Select) (specs : List Value)
    (given : Option Connection) : Act (World δ) (List (Value × Value)) := do
  match s.amount with
  | .first _ => throw (.misfit .operation)
  | .all =>
    let aggregates ← Act.ofExcept (specs.mapM Aggregate.ofValue)
    let st ← Act.ofExcept (s.buildAggregates x.database.dialect r aggregates)
    let found ← x.joinRead r given fun c => do
      let rows ← x.fetch r st c
      Act.ofExcept (Aggregate.result (Value.ofOption .record rows.head?) aggregates)
    match found with
    | some result => return result
    | none => Act.ofExcept (Aggregate.result .null aggregates)

/-- Execute a statement of a repository. -/
def write (x : Session δ) (r : Repository) (c : Connection) (st : Statement) :
    Act (World δ) ExecResult :=
  x.logged st.sql (.list st.params) r.printQuery.isTrue x.database.execute c

/-- Insert objects. -/
def insert (x : Session δ) (r : Repository) (rows : Value) (force : Bool)
    (given : Option Connection) : Act (World δ) (Option WriteResult) := do
  let objects ← Act.ofExcept rows.items
  match ← Act.ofExcept (Insert.build x.database.dialect r (.list objects) force) with
  | none => return some {}
  | some st => x.joinWrite r given fun c => do return .ofInsert (← x.write r c st)

/-- Execute statements in order and add up how many rows they have affected. -/
def writeEach (x : Session δ) (r : Repository) (c : Connection) :
    List Statement → Act (World δ) Int
  | [] => return 0
  | st :: rest => do
    let result ← x.write r c st
    return result.affected + (← writeEach x r c rest)

/-- Execute statements on one connection; without any, none is needed. -/
def writeAll (x : Session δ) (r : Repository) (statements : List Statement)
    (given : Option Connection) : Act (World δ) (Option WriteResult) :=
  match statements with
  | [] => return some {}
  | _ => x.joinWrite r given fun c => do
      return { affected := ← x.writeEach r c statements }

/-- Log a number of changes that were passed over. -/
def reportSkipped (table : Value) : Nat → Act (World δ) Unit
  | 0 => return ()
  | n + 1 => do
    World.report .debug ("Skipping update on '" ++ table.display ++ "' with empty payload")
    reportSkipped table n

/-- Change the rows of conditions. -/
def update (x : Session δ) (r : Repository) (changes : List (Value × Value)) (force : Bool)
    (given : Option Connection) : Act (World δ) (Option WriteResult) := do
  let d := x.database.dialect
  reportSkipped r.table (Update.skipped d r force changes)
  x.writeAll r (← Act.ofExcept (Update.build d r changes force)) given

/-- Delete the rows of conditions. -/
def delete (x : Session δ) (r : Repository) (conditions : Value) (given : Option Connection) :
    Act (World δ) (Option WriteResult) := do
  x.writeAll r (← Act.ofExcept (Delete.build x.database.dialect r conditions)) given

end Session

end Quarry
