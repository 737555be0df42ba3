import Quarry.Command.Arguments
import Quarry.Session.Basic

/-!
# Running commands

What each command does and prints: `config` shows the settings, `ping` checks that a connection can
be had, and `query` executes a statement and shows its rows or what it has done. Failures of the
library end a command with their kind and text.
-/

set_option autoImplicit false

namespace Quarry

/-- What a command prints; texts may hold markup. -/
inductive Printed where
  | line (text : String)
  | table (title : Option String) (columns : List String) (rows : List (List String))
  deriving DecidableEq

namespace Command

/-- The form of log lines. -/
def logFormat : String := "[MySQL Wizard] %(levelname)s %(name)s: %(message)s"

/-- The words with which statements start that have rows to show. -/
def readingWords : List String := ["SELECT", "SHOW", "DESCRIBE", "DESC", "EXPLAIN", "WITH", "PRAGMA"]

/-- Whether a statement has rows to show. -/
def isReading (sql : String) : Bool :=
  let cs := Text.upper (Text.trimLeft sql.toList)
  readingWords.any fun w => w.toList.isPrefixOf cs

/-- A cell of a table of rows. -/
def cell (v : Value) : String := if v.isNull then "[dim]NULL[/dim]" else v.display

/-- Rows as a table. -/
def showRows (title : Option String) (rows : List Record) : Printed :=
  match rows with
  | [] => .line "[dim]No rows.[/dim]"
  | first :: _ => .table title first.names (rows.map fun r => r.values.map cell)

/-- The settings as a table. -/
def showSettings (s : Settings) : Except Error Printed :=
  s.describe.map fun fields => .table (some "Database Configuration") ["Setting", "Value"]
    (fields.map fun f => [f.1, if f.2.isNull then "[dim]-[/dim]" else f.2.display])

/-- The result of a statement that writes. -/
def showResult (r : ExecResult) : List Printed :=
  .line ("[green]" ++ toString r.affected ++ " row(s) affected[/green]") ::
    (if r.insertId = 0 then [] else [.line ("First insert id: " ++ toString r.insertId)])

variable {δ α : Type}

/-- Do work in a session that ends with it. -/
def inSession (w : Wire δ) (s : Settings) (work : Session δ → Act (World δ) α) :
    Act (World δ) α := do
  let x ← Act.ofExcept (Session.atAddress w .null s)
  let outcome ← Act.attempt (x.closing (work x))
  match outcome with
  | .ok result => return result
  | .error e =>
    if e.isOwn then throw (.command (.text (e.label ++ ": " ++ e.message)) [] (some e)) else throw e

/-- Run a command and list what it prints. -/
def run (w : Wire δ) (s : Settings) : Command → Act (World δ) (List Printed)
  | .config => do return [← Act.ofExcept (showSettings s)]
  | .ping => do
    let status ← inSession w s fun x => x.ping
    let ok : Printed := .line "[green]Connection OK[/green]"
    return if status.isEmpty then [ok] else [ok, showRows (some "Pool Status") [status]]
  | .query sql params => do
    let given : Value := .list (params.map .text)
    if isReading sql then
      let rows ← inSession w s fun x => x.fetchAll sql given none
      return [showRows none (rows.getD [])]
    else
      let result ← inSession w s fun x => x.execute sql given none
      return showResult (result.getD default)

end Command

namespace CommandLine

/-- The lowest rank of log records that the command line asks to see. -/
def logRank (c : CommandLine) : Int :=
  if c.verbose then Level.debug.rank
  else if c.printQuery then Level.info.rank
  else Level.warning.rank

/-- The address on the command line, or else the one in the environment. -/
def address (c : CommandLine) (env : Settings.Environment) : Option String :=
  match c.url with
  | some url => if url.isEmpty then none else some url
  | none => Settings.envNonempty env "DB_URL"

/-- The settings for a command. A command is over before idle connections need sweeping. -/
def settings (c : CommandLine) (env : Settings.Environment) : Except Error Settings :=
  match Settings.ofEnvironment env with
  | .error e => .error (.command (.text e.message) [] (some e))
  | .ok s => .ok {
      s with
      url := ((c.address env).map Value.text).getD s.url
      printQuery := if c.printQuery then .bool true else s.printQuery
      sweepInterval := .int 0 }

/-- Run a command line and list what it prints. -/
def run {δ : Type} (w : Wire δ) (env : Settings.Environment) (c : CommandLine) :
    Act (World δ) (List Printed) := do
  c.command.run w (← Act.ofExcept (c.settings env))

end CommandLine

end Quarry
