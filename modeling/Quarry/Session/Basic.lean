import Quarry.Database.Mysql
import Quarry.Database.Sqlite
import Quarry.Handler.Run
import Quarry.Settings.Target

/-!
# Sessions

A session is one database in use: statements and other work run on its connections, and repositories
are registered with it. Work can be given the connection of a transaction that is already open; then
it takes part in that transaction and manages nothing itself.
-/

set_option autoImplicit false

namespace Quarry

/-- A database in use. -/
structure Session (δ : Type) where
  target : Target
  wire : Wire δ

namespace Session

variable {δ α : Type}

/-- The session with the database at an address, or with the one that the settings describe. -/
def atAddress (w : Wire δ) (address : Value) (s : Settings) : Except Error (Session δ) :=
  (Target.resolve address s).map fun t => ⟨t, w⟩

/-- The settings of the database. -/
def settings (x : Session δ) : Settings := x.target.settings

/-- The database. -/
def database (x : Session δ) : Database (World δ) :=
  match x.target.engine with
  | .mysql => Mysql.database x.wire x.settings
  | .sqlite path => Sqlite.database x.wire path x.settings

/-- The handler of the database. -/
def handler (x : Session δ) : Handler (World δ) := x.database.handler

/-- Do work on a fresh connection. -/
def run (x : Session δ) (o : RunOptions) (work : Connection → Act (World δ) α) :
    Act (World δ) (Option α) :=
  x.handler.run o work

/-- Do work on a given connection, or else on a fresh one. -/
def join (x : Session δ) (given : Option Connection) (o : RunOptions)
    (work : Connection → Act (World δ) α) : Act (World δ) (Option α) :=
  match given with
  | some c => do return some (← work c)
  | none => x.run o work

/-- Do work inside a transaction. -/
def transaction (x : Session δ) (work : Connection → Act (World δ) α) : Act (World δ) α :=
  x.handler.transaction work

/-- Close the pool, if there is one. -/
def shutdown (x : Session δ) : Act (World δ) Unit := x.database.shutdown

/-- Do work and close the pool in any case. -/
def closing (x : Session δ) (work : Act (World δ) α) : Act (World δ) α := do
  let outcome ← Act.attempt work
  x.shutdown
  Act.ofExcept outcome

/-- Get a connection, give it back, and say how much of the pool is in use. -/
def ping (x : Session δ) : Act (World δ) Record := do
  let c ← x.handler.acquire
  x.database.release c
  Act.read x.database.poolStatus

/-- Log a statement and do with it what `act` does. -/
def logged (x : Session δ) (sql : String) (params : Value) (printed : Bool)
    (act : Connection → String → Value → Act (World δ) α) (c : Connection) : Act (World δ) α := do
  Handler.reportStatement x.database.toAdapter sql params printed
  act c sql params

/-- Execute a statement that writes. -/
def execute (x : Session δ) (sql : String) (params : Value) (given : Option Connection) :
    Act (World δ) (Option ExecResult) :=
  x.join given {} (x.logged sql params x.settings.printQuery.isTrue x.database.execute)

/-- Execute a statement that reads. -/
def fetchAll (x : Session δ) (sql : String) (params : Value) (given : Option Connection) :
    Act (World δ) (Option (List Record)) :=
  x.join given { useTransaction := false }
    (x.logged sql params x.settings.printQuery.isTrue x.database.fetchAll)

/-- Enter a repository under its table. -/
def enter (r : Repository) : List (Value × Repository) → List (Value × Repository)
  | [] => [(r.table, r)]
  | (table, other) :: rest =>
    if Value.same table r.table then (table, r) :: rest else (table, other) :: enter r rest

/-- Register the repository that a declaration describes. `extra` says whether it was also declared
in another way. A table that could change cannot be registered. -/
def register (x : Session δ) (d : Declaration) (extra : Bool) : Act (World δ) Repository := do
  let outline ← Act.ofExcept d.outline
  if extra then throw .twoDeclarations
  else
    let r ← Act.ofExcept (Repository.ofOutline x.settings d outline)
    if r.table.isFixed then
      Act.update fun s => { s with repositories := enter r s.repositories }
      return r
    else throw (.misfit .kind)

/-- The registered repository of a table. -/
def repository (table : Value) : Act (World δ) Repository := do
  if table.isFixed then
    match (← get).repositories.find? fun r => Value.same r.1 table with
    | some (_, r) => return r
    | none => throw (.invalid (.unknownRepository table))
  else throw (.misfit .kind)

end Session

end Quarry
