import Quarry.Settings.Address
import Quarry.Sql.Fragment

/-!
# Targets

A target is a database that can be connected to: a MySQL server or an SQLite file, with the settings
that hold for it. It is found from an address: a path, the word `:memory:`, or a kind of database
with what that kind needs. Without an address it is the server that the settings describe.
-/

set_option autoImplicit false

namespace Quarry

open Sql (Dialect)

/-- The kind of a database. -/
inductive Engine where
  | mysql
  | sqlite (path : String)
  deriving DecidableEq

/-- A database with its settings. -/
structure Target where
  engine : Engine
  settings : Settings

namespace Target

/-- The dialect of the database. -/
def dialect (t : Target) : Dialect :=
  match t.engine with
  | .mysql => .mysql
  | .sqlite _ => .sqlite

/-- The SQLite database with a path; an empty path is a database in memory. -/
def sqlite (path : String) (s : Settings) : Target :=
  ⟨.sqlite (if path.isEmpty then ":memory:" else path), s⟩

/-- Whether an address is the path of a file. -/
def isPath (address : String) : Bool :=
  match address.toList with
  | '/' :: _ => true
  | '.' :: '/' :: _ => true
  | _ => address == ":memory:"

/-- The database at an address that is not empty. -/
def ofAddress (address : String) (s : Settings) : Except Error Target :=
  if isPath address then .ok (sqlite address s)
  else
    match Text.cutFirst ':' address.toList with
    | none => refuse (.address address)
    | some (kind, rest) =>
      match String.ofList (Text.lower kind) with
      | "sqlite" => .ok (sqlite (String.ofList rest) s)
      | "mysql" => (Address.parse rest).map fun a => ⟨.mysql, a.overlay address s⟩
      | "mariadb" => (Address.parse rest).map fun a => ⟨.mysql, a.overlay address s⟩
      | other => refuse (.databaseKind other)

/-- The database at an address, at the address in the settings, or with the host in the settings.
Byte strings are addresses of the wrong kind, and other values are none at all. -/
def resolve (address : Value) (s : Settings) : Except Error Target :=
  let chosen := if address.isTrue then address else s.url
  if chosen.isTrue then
    match chosen with
    | .text t => ofAddress t s
    | .bytes _ => misfit .kind
    | .buffer _ => misfit .kind
    | _ => misfit .operation
  else .ok ⟨.mysql, s⟩

/-- The target for log lines, with passwords masked. -/
def describe (t : Target) : Except Error Record :=
  match t.engine with
  | .mysql => t.settings.describe.map (("dialect", .text "mysql") :: ·)
  | .sqlite path => .ok [("dialect", .text "sqlite"), ("path", .text path)]

end Target

end Quarry
