import Quarry.Sql.Name
import Quarry.Text.Cut
import Quarry.Value.Fields
import Quarry.Value.Reading

/-!
# Objects and rows

An object has the keys that its program declares, a row has the columns of its table. A `Codec`
knows the keys of one table and turns objects into rows and back, value by value: each column has a
kind, declared or inferred from its name, and the kind decides the stored form. Columns assigned by
the database are left unset in rows.

What a column holds need not be a value, as JSON text may have halves of pairs of code units in its
texts. `write` and `read` have all contents of columns, `encode` and `decode` the values among them.
-/

set_option autoImplicit false

namespace Quarry

open Text.Name (toSnake)

/-- What a column holds. Nothing is converted in a column of text. -/
inductive Kind where
  | json
  | boolean
  | date
  | text
  deriving DecidableEq

namespace Kind

/-- The name of a kind. -/
def label : Kind → String
  | .json => "json"
  | .boolean => "boolean"
  | .date => "date"
  | .text => "text"

/-- The kind of a name. -/
def ofName? : String → Option Kind
  | "json" => some .json
  | "boolean" => some .boolean
  | "date" => some .date
  | "text" => some .text
  | _ => none

/-- The kind that a value names, for the column or key `name`. -/
def ofValue (name : String) (v : Value) : Except Error Kind :=
  match v with
  | .text s =>
    match ofName? s with
    | some k => .ok k
    | none => refuse (.columnKind v name)
  | _ => if v.canBeSought then refuse (.columnKind v name) else misfit .kind

/-- The last parts of the names of columns that hold dates. -/
def dateWords : List String := ["at", "date", "datetime", "time", "timestamp"]

/-- A name without the line end behind it. -/
def dropLineEnd (cs : List Char) : List Char :=
  if cs.getLast? = some '\n' then cs.dropLast else cs

/-- The part of a name behind its last underscore. -/
def lastPart (cs : List Char) : List Char :=
  match Text.cutLast '_' cs with
  | some (_, part) => part
  | none => cs

/-- The kind that the name of a column suggests. -/
def ofColumn? (column : String) : Option Kind :=
  let cs := column.toList
  if "is_".toList.isPrefixOf cs then some .boolean
  else if dateWords.contains (String.ofList (lastPart (dropLineEnd cs))) then some .date
  else none

end Kind

/-- How the objects of one table become rows and back. -/
structure Codec where
  /-- The keys of the objects, in the order of the columns. -/
  keys : List String
  /-- The columns that the database assigns. -/
  autoSet : List String
  /-- The declared kinds of columns; of several for one column the last holds. -/
  kinds : List (String × Kind)
  /-- Whether moments are written and read as UTC. -/
  utc : Bool
  /-- Whether texts that look like JSON are read as JSON. -/
  parseJson : Bool

namespace Codec

/-- The declared kinds of columns. -/
def readKinds : List (String × Value) → Except Error (List (String × Kind))
  | [] => .ok []
  | (name, v) :: rest => do
    let k ← Kind.ofValue name v
    return (toSnake name, k) :: (← readKinds rest)

/-- The fields of a declaration of kinds; nothing is declared by an empty value. -/
def kindFields (kinds : Value) : Except Error Record :=
  if kinds.isTrue then
    match kinds with
    | .record fields => .ok fields
    | _ => misfit .operation
  else .ok []

/-- The keys that values give, which must be distinct texts. -/
def readKeys (keys : List Value) : Except Error (List String) :=
  match Value.dedupe? keys with
  | none => misfit .kind
  | some distinct =>
    if distinct.length = keys.length then keys.mapM Value.asText else refuse (.duplicateKeys keys)

/-- A codec for a list of keys. -/
def make (keys : List Value) (autoSet kinds : Value) (utc parseJson : Bool) : Except Error Codec := do
  let names ← readKeys keys
  let assigned ← (← autoSet.items).mapM Sql.columnName
  let declared ← readKinds (← kindFields kinds)
  return ⟨names, assigned, declared, utc, parseJson⟩

/-- The keys with their columns. -/
def columns (c : Codec) : List (String × String) := c.keys.map fun k => (k, toSnake k)

/-- The columns in order. -/
def columnNames (c : Codec) : List String := c.keys.map toSnake

/-- Whether the database assigns the column. -/
def isAutoSet (c : Codec) (column : String) : Bool := c.autoSet.contains column

/-- The declared kind of a column. -/
def declaredKind? (c : Codec) (column : String) : Option Kind :=
  (c.kinds.reverse.find? fun k => k.1 == column).map (·.2)

/-- The kind of a column: the declared one, or what the name suggests. -/
def kindOf? (c : Codec) (column : String) : Option Kind :=
  match c.declaredKind? column with
  | some k => some k
  | none => Kind.ofColumn? column

/-! ## Values and contents -/

/-- The stored form of a value of a kind. -/
def encodeAs [Limits] (utc : Bool) (kind : Option Kind) (v : Value) : Except Error Value :=
  match kind with
  | some .text => .ok v
  | some .boolean => (Value.readFlag v).map fun b => .int (if b == some true then 1 else 0)
  | some .json =>
    match v with
    | .null => .ok .null
    | .text s => .ok (.text s)
    | _ => (Value.jsonText v).map .text
  | _ => Value.parameter utc v

/-- The stored form of a value in a column. -/
def encode [Limits] (c : Codec) (column : String) (v : Value) : Except Error Value :=
  encodeAs c.utc (c.kindOf? column) v

/-- The stored form of JSON with halves in its texts, which counts as true and is no moment. -/
def writeTorn [Limits] (kind : Option Kind) (t : Json.Tree) : Except Error Content :=
  match kind with
  | some .text => .ok (.torn t)
  | some .boolean => .ok (.value (.int 1))
  | _ =>
    if t.isContainer then (Value.checkWritten Limits.depth t).map fun _ => .ofGlyphs t.write
    else .ok (.torn t)

/-- The stored form of a content in a column. -/
def write [Limits] (c : Codec) (column : String) : Content → Except Error Content
  | .value v => (c.encode column v).map .value
  | .torn t => writeTorn (c.kindOf? column) t

/-- What a stored value of a kind holds. -/
def readAs [Limits] (utc parseJson : Bool) (kind : Option Kind) (v : Value) : Except Error Content :=
  match kind, v with
  | _, .null => .ok (.value .null)
  | some .text, v => .ok (.value v)
  | some .boolean, v => (Value.readFlag v).map fun b => .value (Value.ofOption .bool b)
  | some .date, v => (Value.readMoment utc v).map .value
  | some .json, .text s => Content.readJsonText (Json.glyphs s.toList)
  | some .json, .bytes data => do
    Content.readJsonText (Json.glyphs (← Value.textOfBytes data).toList)
  | some .json, .buffer data => do
    Content.readJsonText (Json.glyphs (← Value.textOfBytes data).toList)
  | some .json, v => .ok (.value v)
  | none, .text s => if parseJson then Content.readJson (Json.glyphs s.toList) else .ok (.value (.text s))
  | none, v => .ok (.value v)

/-- What is held by stored JSON with halves in its texts, which counts as true and is no moment. -/
def readTorn [Limits] (parseJson : Bool) (kind : Option Kind) (t : Json.Tree) : Except Error Content :=
  match kind, t with
  | some .boolean, _ => .ok (.value (.bool true))
  | some .json, .text gs => Content.readJsonText gs
  | none, .text gs => if parseJson then Content.readJson gs else .ok (.torn (.text gs))
  | _, t => .ok (.torn t)

/-- What a stored content in a column holds. -/
def read [Limits] (c : Codec) (column : String) : Content → Except Error Content
  | .value v => readAs c.utc c.parseJson (c.kindOf? column) v
  | .torn t => readTorn c.parseJson (c.kindOf? column) t

/-- The value that a stored value of a kind denotes. -/
def decodeAs [Limits] (utc parseJson : Bool) (kind : Option Kind) (v : Value) : Except Error Value := do
  (← readAs utc parseJson kind v).toValue

/-- The value that a stored value in a column denotes. -/
def decode [Limits] (c : Codec) (column : String) (v : Value) : Except Error Value :=
  decodeAs c.utc c.parseJson (c.kindOf? column) v

/-! ## Objects and rows -/

/-- The value that an object has under a key or, failing that, under the key's column. -/
def valueOf (object : Value) (key column : String) : Except Error Value :=
  match object with
  | .record fields =>
    match Record.getD key fields with
    | .unset => .ok (if key = column then .unset else Record.getD column fields)
    | v => .ok v
  | _ => misfit .operation

/-- The stored form of what an object has for one key, or nothing if the row is to have no such
column. With `skipAuto` the columns assigned by the database are left to it whatever the object
says; with `part` the row only has what the object supplies. -/
def encodeKey [Limits] (c : Codec) (skipAuto part : Bool) (object : Value) (key column : String) :
    Except Error (Option Value) := do
  if skipAuto && c.isAutoSet column then return if part then none else some .unset
  else
    match ← valueOf object key column with
    | .unset =>
      if part then return none
      else if c.isAutoSet column then return some .unset
      else return some (← c.encode column .null)
    | v => return some (← c.encode column v)

/-- Add the columns of further keys to a row. -/
def encodeKeys [Limits] (c : Codec) (skipAuto part : Bool) (object : Value) :
    Record → List String → Except Error Record
  | row, [] => .ok row
  | row, key :: rest => do
    let column := toSnake key
    match ← c.encodeKey skipAuto part object key column with
    | none => encodeKeys c skipAuto part object row rest
    | some v => encodeKeys c skipAuto part object (row.set column v) rest

/-- The row that stores an object. -/
def toRow [Limits] (c : Codec) (object : Value) (skipAuto part : Bool) : Except Error Record :=
  c.encodeKeys skipAuto part object [] c.keys

/-- What a row holds under a name. Only records can be asked for a value; other containers can
merely tell that they do not hold the name. -/
def cell (row : Value) (name : String) : Except Error (Option Value) :=
  match row with
  | .record fields => .ok (Record.get? name fields)
  | .text s => if Text.holds name.toList s.toList then misfit .kind else .ok none
  | _ => if row.holdsText? name == some false then .ok none else misfit .kind

/-- What there is for keys in a row, each cell as it is read. -/
def readCells {α : Type} (read : String → Value → Except Error α) (row : Value) (aliasStart : String) :
    List String → Except Error (List (String × α))
  | [] => .ok []
  | key :: rest => do
    let column := toSnake key
    match ← cell row (aliasStart ++ column) with
    | none => readCells read row aliasStart rest
    | some v =>
      let value ← read column v
      return (key, value) :: (← readCells read row aliasStart rest)

/-- The contents that a row has for keys. -/
def contents [Limits] (c : Codec) (row : Value) (aliasStart : String) :
    Except Error (List (String × Content)) :=
  readCells (fun column v => c.read column (.value v)) row aliasStart c.keys

/-- The values that a row has for keys. -/
def decodeKeys [Limits] (c : Codec) (row : Value) (aliasStart : String) (keys : List String) :
    Except Error Record := readCells c.decode row aliasStart keys

/-- The object that a row stores. The row's names are the columns behind `aliasStart`; keys whose
column the row lacks are left out. -/
def toObject [Limits] (c : Codec) (row : Value) (aliasStart : String) : Except Error Record :=
  c.decodeKeys row aliasStart c.keys

/-- A row without the columns that were left unset. -/
def withoutUnset (row : Record) : Record := row.filter fun f => !f.2.isUnset

end Codec

end Quarry
