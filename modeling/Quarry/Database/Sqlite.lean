import Quarry.Database.Basic
import Quarry.Text.Blank
import Quarry.Text.Case

/-!
# SQLite

Every acquisition opens the file anew, and giving a connection back closes it. Transactions are
statements like any others, and they are only ended where one is open. Rows arrive as tuples and
must be as long as there are columns.
-/

set_option autoImplicit false

namespace Quarry.Sqlite

variable {δ : Type}

/-- The error for a fault of the driver during a statement. -/
def wrapFault (sql : String) (params : Value) (f : Fault) : Option Error :=
  if f.isSqliteFailure then
    some (.query {
      text := .text f.message
      sql := .text sql
      params := params
      code := f.details.valueOr "sqlite_errorcode" .null
      state := f.details.valueOr "sqlite_errorname" .null
      lockContention := Text.holds "database is locked".toList f.message.toList }
      (some (.fault f)))
  else none

/-- Open the file. -/
def acquire (w : Wire δ) (path : String) : Act (World δ) Connection := do
  let _ ← World.send w (.connect path)
  World.enter

/-- The request that a statement is. -/
def request (c : Connection) (sql : String) (values : List Value) : Request :=
  match sql with
  | "BEGIN" => .begin c
  | "COMMIT" => .commit c
  | "ROLLBACK" => .rollback c
  | "SELECT 1" => .ping c none
  | _ => .execute c sql (some values)

/-- What a statement that succeeded means for the transaction. -/
def afterwards : Request → Handle → Handle
  | .begin _, h => { h with inTransaction := true }
  | .commit _, h => { h with inTransaction := false }
  | .rollback _, h => { h with inTransaction := false }
  | _, h => h

/-- Send a statement with its values. A closed connection takes none. -/
def send (w : Wire δ) (c : Connection) (sql : String) (values : List Value) :
    Act (World δ) Answer := do
  if ← Act.read fun world => world.isClosed c then throw (.invalid .closedConnection)
  else
    let r := request c sql values
    let a ← World.send w r
    World.note c (afterwards r)
    return a

/-- Send a statement that has no values. -/
def command (w : Wire δ) (c : Connection) (sql : String) : Act (World δ) Unit := do
  let _ ← wrapping (wrapFault sql .null) (send w c sql [])

/-- End a transaction if one is open. -/
def finish (w : Wire δ) (c : Connection) (sql : String) : Act (World δ) Unit := do
  if ← Act.read fun world => world.inTransaction c then command w c sql

/-- Whether an error says that a connection does not live. -/
def isDeath : Error → Bool
  | .fault f => f.isSqliteFailure || f.isValueFault
  | .invalid _ => true
  | _ => false

/-- Whether a connection answers. -/
def ping (w : Wire δ) (c : Connection) : Act (World δ) Bool := do
  match ← Act.attempt (send w c "SELECT 1" []) with
  | .ok _ => return true
  | .error e => if isDeath e then return false else throw e

/-- Whether a statement is an insert. -/
def isInsert (sql : String) : Bool :=
  Text.upper ((Text.trimLeft sql.toList).take 6) == "INSERT".toList

/-- Execute a statement that writes. The driver knows the number of the last inserted row, from
which that of the first one follows. -/
def execute (w : Wire δ) (c : Connection) (sql : String) (params : Value) :
    Act (World δ) ExecResult := do
  let values ← Act.ofExcept (boundValues params)
  let a ← wrapping (wrapFault sql params) (send w c sql values)
  let _ ← World.send w (.closeCursor c)
  let affected := max a.rowCount 0
  let last := a.lastId.getD 0
  let insertId := if affected ≠ 0 ∧ last ≠ 0 ∧ isInsert sql then last - affected + 1 else 0
  return ⟨affected, insertId⟩

/-- A row by column. -/
def zipRow (columns : List Column) (row : List Value) : Except Error Record :=
  if row.length = columns.length then .ok (Record.ofList ((columns.map Column.name).zip row))
  else refuse (.rowWidth (decide (columns.length < row.length)))

/-- The columns of an answer. A statement without a result has none that one could go through. -/
def columnsOf (a : Answer) : Except Error (List Column) :=
  match a.columns with
  | none => misfit .kind
  | some columns => .ok columns

/-- Send a statement and fetch its rows, and give these with their columns. -/
def fetchResult (w : Wire δ) (c : Connection) (sql : String) (values : List Value) :
    Act (World δ) (List Column × List (List Value)) := do
  let a ← send w c sql values
  World.overCursor w c do
    let _ ← World.send w (.fetch c)
    return (← Act.ofExcept (columnsOf a), a.rows)

/-- Execute a statement that reads. -/
def fetchAll (w : Wire δ) (c : Connection) (sql : String) (params : Value) :
    Act (World δ) (List Record) := do
  let values ← Act.ofExcept (boundValues params)
  let (columns, rows) ← wrapping (wrapFault sql params) (fetchResult w c sql values)
  Act.ofExcept (rows.mapM (zipRow columns))

/-- The database that is an SQLite file. -/
def database (w : Wire δ) (path : String) (s : Settings) : Database (World δ) where
  description := .ok [("dialect", .text "sqlite"), ("path", .text path)]
  poolStatus := fun _ => []
  keeps := fun level world => world.log.keeps level
  log := fun level text world => { world with log := world.log.add level text }
  strict := fun world => world.log.strict
  sleep := World.sleep w
  acquire := acquire w path
  release := World.close w
  destroy := World.close w
  ping := ping w
  begin := fun c => command w c "BEGIN"
  commit := fun c => finish w c "COMMIT"
  rollback := fun c => finish w c "ROLLBACK"
  dialect := .sqlite
  settings := s
  execute := execute w
  fetchAll := fetchAll w
  shutdown := return ()

end Quarry.Sqlite
