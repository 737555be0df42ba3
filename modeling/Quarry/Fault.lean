import Quarry.Coding

/-!
# Faults

A fault comes from below or from outside: from a database driver, or from the program that uses the
library. It is known by the name its source gives it, by its arguments, and by details set on it
later. Faults of the operating system have a number and a text, and perhaps the files concerned; one
that was given no name of its own is named for its number.
-/

set_option autoImplicit false

namespace Quarry

/-- Who raised a fault. -/
inductive FaultSource where
  /-- The driver of a MySQL server. -/
  | mysql
  /-- The driver of an SQLite file. -/
  | sqlite
  /-- The program around the library, or its operating system. -/
  | program
  deriving DecidableEq, Inhabited

/-- An error raised outside the library, under the name its source gives it. -/
structure Fault where
  source : FaultSource
  name : String
  args : List Value
  details : Record := []
  /-- The files that a fault of the operating system is about. -/
  files : List Value := []
  deriving Inhabited

/-- The integer in front of other arguments. -/
def leadingInteger : List Value → Value
  | .int n :: _ => .int n
  | .bool b :: _ => .bool b
  | _ => .null

namespace Fault

/-- The names of faults of the operating system. -/
def systemNames : List String :=
  ["OSError", "BlockingIOError", "BrokenPipeError", "ChildProcessError", "ConnectionError",
    "ConnectionAbortedError", "ConnectionRefusedError", "ConnectionResetError", "FileExistsError",
    "FileNotFoundError", "InterruptedError", "IsADirectoryError", "NotADirectoryError",
    "PermissionError", "ProcessLookupError", "TimeoutError"]

/-- The name that the number of a fault of the operating system stands for. -/
def systemName? (number : Int) : Option String :=
  if number == 11 || number == 114 || number == 115 then some "BlockingIOError"
  else if number == 32 || number == 108 then some "BrokenPipeError"
  else if number == 10 then some "ChildProcessError"
  else if number == 103 then some "ConnectionAbortedError"
  else if number == 111 then some "ConnectionRefusedError"
  else if number == 104 then some "ConnectionResetError"
  else if number == 17 then some "FileExistsError"
  else if number == 2 then some "FileNotFoundError"
  else if number == 21 then some "IsADirectoryError"
  else if number == 20 then some "NotADirectoryError"
  else if number == 4 then some "InterruptedError"
  else if number == 1 || number == 13 then some "PermissionError"
  else if number == 3 then some "ProcessLookupError"
  else if number == 110 then some "TimeoutError"
  else none

/-- Whether the arguments give a number and a text. -/
def isNumbered (args : List Value) : Bool := 2 <= args.length && args.length <= 5

/-- The name of a fault of the operating system that was given a name and arguments. -/
def nameFor (name : String) (args : List Value) : String :=
  if name == "OSError" && isNumbered args then
    match leadingInteger args with
    | .int n => (systemName? n).getD name
    | .bool b => (systemName? (if b then 1 else 0)).getD name
    | _ => name
  else name

/-- The files among the arguments of a fault of the operating system: the third, and with it the
fifth. -/
def filesOf (args : List Value) : List Value :=
  if isNumbered args then
    match args.drop 2 with
    | [] => []
    | .null :: _ => []
    | [f, _, .null] => [f]
    | [f, _, g] => [f, g]
    | f :: _ => [f]
  else []

/-- A fault of the operating system. What would block may say how much was done before in place of a
file; that must be an integer. -/
def system? (name : String) (args : List Value) (details : Record) : Option Fault :=
  let plain : Fault := ⟨.program, nameFor name args, args, details, []⟩
  match plain.name == "BlockingIOError", filesOf args with
  | _, [] => some plain
  | true, .int _ :: _ => some plain
  | true, .bool _ :: _ => some plain
  | true, .real _ :: _ => none
  | true, .decimal _ :: _ => none
  | _, files => some { plain with args := args.take 2, files := files }

/-- Whether the fault comes from the operating system. -/
def isSystem (f : Fault) : Bool := f.source == .program && systemNames.contains f.name

/-- Whether the fault says that time ran out. -/
def isTimeout (f : Fault) : Bool := f.source == .program && f.name == "TimeoutError"

/-- The names of faults that are refused values; failed conversions of text are some. -/
def valueNames : List String := ["ValueError", "UnicodeError"] ++ CodingFault.names

/-- Whether the fault is a refused value. -/
def isValueFault (f : Fault) : Bool := f.source == .program && valueNames.contains f.name

/-- Whether the fault is a failure reported by the SQLite driver; its warnings are none. -/
def isSqliteFailure (f : Fault) : Bool := f.source == .sqlite && f.name != "Warning"

/-- The text of arguments: nothing for none, the argument if there is one, a tuple otherwise. -/
def argumentText : List Value → String
  | [] => ""
  | [v] => v.display
  | vs => (Value.tuple vs).literal

/-- The files of a fault in its text. -/
def filesText : List Value → String
  | [] => ""
  | [f] => ": " ++ f.literal
  | f :: g :: _ => ": " ++ f.literal ++ " -> " ++ g.literal

/-- The failed conversion of text that a fault of the program reports. -/
def coding? (f : Fault) : Option CodingFault :=
  if f.source == .program then CodingFault.ofArgs? f.name f.args else none

/-- The text of arguments with regard to their fault. A system fault shows its number in front and
its files behind, and a missing entry is shown by its literal. -/
def plainMessage (f : Fault) : String :=
  match f.args with
  | [v] => if f.source == .program && f.name == "KeyError" then v.literal else v.display
  | n :: v :: _ =>
    if f.isSystem && isNumbered f.args then
      "[Errno " ++ n.display ++ "] " ++ v.display ++ filesText f.files
    else argumentText f.args
  | [] => ""

/-- The text of a fault. -/
def message (f : Fault) : String :=
  match f.coding? with
  | some c => c.message
  | none => f.plainMessage

/-- The number of a driver's error: its first argument when that is an integer. -/
def code (f : Fault) : Value := leadingInteger f.args

/-- The text of a driver's error: its second argument when it has one. -/
def driverMessage (f : Fault) : String :=
  match f.args with
  | _ :: v :: _ => v.display
  | _ => f.message

end Fault

end Quarry
