import Quarry.Error

/-!
# Arguments of the command line

Options that hold for all commands come first, then the name of a command, then what the command
needs. A query's parameters may stand before, between and behind its other arguments; everything
behind `--` is no option.
-/

set_option autoImplicit false

namespace Quarry

/-- The commands. -/
inductive Command where
  | config
  | ping
  | query (sql : String) (params : List String)
  deriving DecidableEq

/-- What a command line says. -/
structure CommandLine where
  url : Option String := none
  printQuery : Bool := false
  verbose : Bool := false
  command : Command

namespace CommandLine

/-- The error that a command line is not understood. -/
def misuse {α : Type} (message : String) : Except Error α := .error (.command (.text message) [] none)

/-- The value of an option that is written in one piece, such as `--name=value`. -/
def inlineValue? (opening argument : String) : Option String :=
  let start := opening.toList
  let cs := argument.toList
  if start.isPrefixOf cs then some (String.ofList (cs.drop start.length)) else none

/-- Whether an argument has the form of an option. -/
def isOption (argument : String) : Bool :=
  match argument.toList with
  | '-' :: _ :: _ => true
  | _ => false

/-- Whether an argument is the letter for more log records, perhaps several times. -/
def isVerbose (argument : String) : Bool :=
  match argument.toList with
  | '-' :: 'v' :: more => more.all (· == 'v')
  | _ => false

/-- The arguments of a query: its statements and its parameters, both in order. -/
def readQuery (statements params : List String) : List String → Except Error (List String × List String)
  | [] => .ok (statements, params)
  | "--" :: rest => .ok (statements ++ rest, params)
  | "-p" :: value :: rest => readQuery statements (params ++ [value]) rest
  | "--param" :: value :: rest => readQuery statements (params ++ [value]) rest
  | argument :: rest =>
    match inlineValue? "--param=" argument with
    | some value => readQuery statements (params ++ [value]) rest
    | none =>
      if !isOption argument then readQuery (statements ++ [argument]) params rest
      else
        match inlineValue? "-p" argument with
        | some value =>
          if value.isEmpty then misuse "Option '-p' requires an argument."
          else readQuery statements (params ++ [value]) rest
        | none => misuse ("No such option: " ++ argument)

/-- The command of a name with its arguments. A command that needs none may be followed by the end
of the options. -/
def readCommand : List String → Except Error Command
  | ["config"] => .ok .config
  | ["config", "--"] => .ok .config
  | ["ping"] => .ok .ping
  | ["ping", "--"] => .ok .ping
  | "query" :: rest => do
    match ← readQuery [] [] rest with
    | ([sql], params) => return .query sql params
    | ([], _) => misuse "Missing argument 'SQL'."
    | _ => misuse "Got unexpected extra arguments"
  | [] => misuse "Missing command."
  | name :: _ => misuse ("No such command '" ++ name ++ "'.")

/-- Read the arguments of a command line. -/
def read (url : Option String) (printQuery verbose : Bool) :
    List String → Except Error CommandLine
  | "--url" :: value :: rest => read (some value) printQuery verbose rest
  | "--print-query" :: rest => read url true verbose rest
  | "--verbose" :: rest => read url printQuery true rest
  | "--" :: rest => (readCommand rest).map fun c => ⟨url, printQuery, verbose, c⟩
  | [] => misuse "Missing command."
  | argument :: rest =>
    match inlineValue? "--url=" argument with
    | some value => read (some value) printQuery verbose rest
    | none =>
      if isVerbose argument then read url printQuery true rest
      else if isOption argument then misuse ("No such option: " ++ argument)
      else (readCommand (argument :: rest)).map fun c => ⟨url, printQuery, verbose, c⟩

end CommandLine

end Quarry
