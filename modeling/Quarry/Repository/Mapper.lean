import Quarry.Repository.Basic

/-!
# Result rows as objects

The rows of a select are flat: each holds the columns of the main table and those of the relations
asked for. A `Mapper` makes objects of them and puts the related objects under the names of their
relations. When a relation may have many objects, the rows of one parent are brought together: rows
whose main objects have the same JSON text belong to one parent, and each of its children is kept
once.
-/

set_option autoImplicit false

namespace Quarry

open Sql (Relation)
open Text.Name (toCamel toSnake)

/-- A relation asked for, with the codec of its objects. -/
structure Related where
  name : String
  relation : Relation
  codec : Codec

/-- How rows become objects. -/
structure Mapper where
  codec : Codec
  /-- Whether columns that are not declared are passed on, as chosen columns are. -/
  passOn : Bool
  related : List Related

namespace Mapper

/-- The relations with their codecs. -/
def readRelated (c : Codec) : List (String × Relation) → Except Error (List Related)
  | [] => .ok []
  | (name, relation) :: rest => do
    let codec ← Codec.make relation.declaredKeys (.tuple []) .null c.utc c.parseJson
    return ⟨name, relation, codec⟩ :: (← readRelated c rest)

/-- The mapper for the objects of a codec with some relations. To ask for one twice is to ask for it
once. -/
def make (c : Codec) (chosen : List Value) (relations : List (String × Relation)) :
    Except Error Mapper := do
  return ⟨c, !chosen.isEmpty, ← readRelated c (relations.eraseDupsBy fun a b => a.1 == b.1)⟩

/-- Whether a name is the alias of a relation's column. -/
def isAlias (m : Mapper) (name : String) : Bool :=
  m.related.any fun r => r.relation.aliasStart.toList.isPrefixOf name.toList

/-- Whether a name is a column of the main table. -/
def isOwn (m : Mapper) (name : String) : Bool := m.codec.columnNames.contains name

/-- Whether a name belongs to another table or is a column of the main one. -/
def isClaimed (m : Mapper) (name : String) : Bool :=
  m.isOwn name || m.isAlias name || name.toList.contains '.'

/-- The fields that a row must have. -/
def rowFields (row : Value) : Except Error Record :=
  match row with
  | .record fields => .ok fields
  | _ => misfit .operation

/-- The object of the main table. -/
def mainObject (m : Mapper) (row : Value) : Except Error Record := do
  let object ← m.codec.toObject row ""
  if m.passOn then
    let extra := (← rowFields row).filter fun f => !m.isClaimed f.1
    return extra.foldl (fun o f => Record.setDefault f.1 f.2 o) object
  else return object

/-- The name that a column of a relation without declared keys has in its own table, if the column
belongs to the relation. -/
def ownName? (m : Mapper) (r : Related) (column : String) : Option String :=
  let owner := (r.relation.table.display ++ ".").toList
  let cs := column.toList
  if owner.isPrefixOf cs then some (String.ofList (cs.drop owner.length))
  else if m.isClaimed column then none
  else some column

/-- The object that collects all columns of a relation without declared keys. -/
def collect (m : Mapper) (r : Related) : Record → List (String × Value) → Except Error Record
  | object, [] => .ok object
  | object, (column, v) :: rest =>
    match m.ownName? r column with
    | none => collect m r object rest
    | some name => do
      let value ← r.codec.decode (toSnake name) v
      collect m r (object.set (toCamel name) value) rest

/-- All that a row holds of a relation. -/
def relatedFields (m : Mapper) (r : Related) (row : Value) : Except Error Record :=
  if r.relation.declaredKeys.isEmpty then do m.collect r [] (← rowFields row)
  else r.codec.toObject row r.relation.aliasStart

/-- The related object that a row holds, if any of its values is not NULL. -/
def relatedObject? (m : Mapper) (row : Value) (r : Related) : Except Error (Option Record) :=
  (m.relatedFields r row).map fun object =>
    if object.all fun f => f.2.isNull then none else some object

/-- The object of a row, each relation having one object at most. -/
def nest (m : Mapper) (row : Value) : Record → List Related → Except Error Record
  | object, [] => .ok object
  | object, r :: rest => do
    let child ← m.relatedObject? row r
    nest m row (object.set r.name (Value.ofOption .record child)) rest

/-- An object with nothing under the names of its relations yet. -/
def withPlaces (m : Mapper) (object : Record) : Record :=
  m.related.foldl
    (fun o r => o.set r.name (if r.relation.kind = .hasMany then .list [] else .null)) object

/-- Whether a child is among children. They are compared in order up to the first that is equal. -/
def isAmong (child : Record) : List Value → Except Error Bool
  | [] => .ok false
  | c :: rest =>
    match Value.same? c (.record child) with
    | some true => .ok true
    | some false => isAmong child rest
    | none => misfit .noNumber

/-- The children with one more, unless it is there. -/
def addChild (child : Record) (children : List Value) : Except Error (List Value) := do
  return if ← isAmong child children then children else children ++ [.record child]

/-- Put the child of a row under the name of its relation. -/
def placeChild (parent : Record) (r : Related) (child : Record) : Except Error Record :=
  match r.relation.kind, parent.getD r.name with
  | .hasMany, .list children => do
    return parent.set r.name (.list (← addChild child children))
  | .hasMany, _ => .ok parent
  | _, .null => .ok (parent.set r.name (.record child))
  | _, _ => .ok parent

/-- Put all that a row holds of the relations into a parent. -/
def placeChildren (m : Mapper) (row : Value) : Record → List Related → Except Error Record
  | parent, [] => .ok parent
  | parent, r :: rest => do
    match ← m.relatedObject? row r with
    | none => placeChildren m row parent rest
    | some child => do placeChildren m row (← placeChild parent r child) rest

/-- The text by which the rows of one parent are recognized. -/
def groupKey (object : Record) : String := ((Value.record object).toComparable.sorted).print

/-- Change the entry of a key, or add one at the end. -/
def alter (key : String) (fresh : Record) (change : Record → Except Error Record) :
    List (String × Record) → Except Error (List (String × Record))
  | [] => do return [(key, ← change fresh)]
  | (k, parent) :: rest =>
    if k = key then do return (k, ← change parent) :: rest
    else do return (k, parent) :: (← alter key fresh change rest)

/-- Bring the rows of each parent together, in the order of the first rows. -/
def group (m : Mapper) : List (String × Record) → List Value → Except Error (List (String × Record))
  | parents, [] => .ok parents
  | parents, row :: rest => do
    let object ← m.mainObject row
    let grown ← alter (groupKey object) (m.withPlaces object)
      (fun parent => m.placeChildren row parent m.related) parents
    group m grown rest

/-- Whether some relation may have many objects. -/
def hasChildren (m : Mapper) : Bool := m.related.any fun r => r.relation.kind = .hasMany

/-- The objects of rows. -/
def objects (m : Mapper) (rows : List Value) : Except Error (List Record) :=
  if m.hasChildren then do return (← m.group [] rows).map (·.2)
  else rows.mapM fun row => do m.nest row (← m.mainObject row) m.related

end Mapper

end Quarry
