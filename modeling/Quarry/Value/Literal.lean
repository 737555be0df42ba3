import Quarry.Value.Basic
import Quarry.Text.Hex
import Quarry.Text.Printable
import Quarry.Time.Text

/-!
# Texts of values

A value has two texts. `display` is the value as a reader wants to see it, and is what a LIKE
operand is made of. `literal` is the value as one would write it down, with quotes around texts and
the names of kinds that have no notation of their own; it is what error messages and log lines show.
Inside a container every value is shown by its literal.
-/

set_option autoImplicit false

namespace Quarry.Value

open Time (Date Moment)
open Number (Binary64 Decimal)

/-- The quote put around a text: a single quote, unless the text holds single quotes and no double
ones. -/
def quoteFor (cs : List Char) : Char :=
  if cs.contains '\'' && !cs.contains '"' then '"' else '\''

/-- A character by its code point. -/
def escapeCode (c : Char) : List Char :=
  let n := c.toNat
  if n < 0x100 then '\\' :: 'x' :: Text.hexDigits 2 n
  else if n < 0x10000 then '\\' :: 'u' :: Text.hexDigits 4 n
  else '\\' :: 'U' :: Text.hexDigits 8 n

/-- A character inside quotes. -/
def escapeChar (quote c : Char) : List Char :=
  if c == quote || c == '\\' then ['\\', c]
  else if c == '\t' then ['\\', 't']
  else if c == '\n' then ['\\', 'n']
  else if c == '\r' then ['\\', 'r']
  else if Text.isPrintable c then [c]
  else escapeCode c

/-- A text in quotes. -/
def quoted (s : String) : String :=
  let cs := s.toList
  let q := quoteFor cs
  String.ofList (q :: (cs.flatMap (escapeChar q) ++ [q]))

/-- A byte string in quotes; bytes that are no printable ASCII characters are shown by number. -/
def quotedBytes (data : List UInt8) : String :=
  let cs := data.map fun b => Char.ofNat b.toNat
  let q := quoteFor cs
  let shown := cs.flatMap fun c => if c.toNat < 0x80 then escapeChar q c else escapeCode c
  String.ofList ('b' :: q :: (shown ++ [q]))

/-- A byte string in quotes, as inside of a buffer, where a single quote is escaped whatever the
quotes around it. -/
def quotedBuffer (data : List UInt8) : String :=
  let cs := data.map fun b => Char.ofNat b.toNat
  let q := quoteFor cs
  let escape := fun c => if c == '\'' then ['\\', c] else escapeChar q c
  let shown := cs.flatMap fun c => if c.toNat < 0x80 then escape c else escapeCode c
  String.ofList ('b' :: q :: (shown ++ [q]))

/-- Texts with a comma between them. -/
def commaSeparated (parts : List String) : String := ", ".intercalate parts

/-- The time zone of a moment as the last argument of its literal. -/
def zoneLiteral (offset : Int) : String :=
  if offset == 0 then "datetime.timezone.utc"
  else
    let days := if offset < 0 then "days=-1, " else ""
    let seconds := if offset < 0 then offset + 86400 else offset
    "datetime.timezone(datetime.timedelta(" ++ days ++ "seconds=" ++ toString seconds ++ "))"

/-- A moment by its parts; trailing seconds and microseconds are left out when they are zero. -/
def momentLiteral (m : Moment) : String :=
  let clock :=
    if m.micro != 0 then [m.second, m.micro] else if m.second != 0 then [m.second] else []
  let parts := [m.date.year, m.date.month, m.date.day, m.hour, m.minute] ++ clock
  let zone :=
    match m.offset with
    | none => []
    | some o => ["tzinfo=" ++ zoneLiteral o]
  "datetime.datetime(" ++ commaSeparated (parts.map toString ++ zone) ++ ")"

/-- A date by its parts. -/
def dateLiteral (d : Date) : String :=
  "datetime.date(" ++ commaSeparated [toString d.year, toString d.month, toString d.day] ++ ")"

/-- A truth value. -/
def boolLiteral (b : Bool) : String := if b then "True" else "False"

mutual

/-- The value as one would write it down. -/
def literal : Value → String
  | .null => "None"
  | .unset => "UNSET"
  | .bool b => boolLiteral b
  | .int n => toString n
  | .real x => x.text .plain
  | .decimal d => "Decimal('" ++ d.text ++ "')"
  | .text s => quoted s
  | .bytes data => quotedBytes data
  | .buffer data => "bytearray(" ++ quotedBuffer data ++ ")"
  | .moment m => momentLiteral m
  | .date d => dateLiteral d
  | .list items => "[" ++ commaSeparated (literals items) ++ "]"
  | .tuple [item] => "(" ++ literal item ++ ",)"
  | .tuple items => "(" ++ commaSeparated (literals items) ++ ")"
  | .set [] => "set()"
  | .set items => "\x7b" ++ commaSeparated (literals items) ++ "\x7d"
  | .record fields => "\x7b" ++ commaSeparated (fieldLiterals fields) ++ "\x7d"

/-- The literals of values. -/
def literals : List Value → List String
  | [] => []
  | v :: vs => literal v :: literals vs

/-- Names and values of fields. -/
def fieldLiterals : List (String × Value) → List String
  | [] => []
  | (k, v) :: rest => (quoted k ++ ": " ++ literal v) :: fieldLiterals rest

end

/-- The value as a reader wants to see it. -/
def display : Value → String
  | .text s => s
  | .decimal d => d.text
  | .moment m => m.standard ' '
  | .date d => String.ofList d.standardChars
  | v => literal v

end Quarry.Value
