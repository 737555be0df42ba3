import Quarry.Sql.Join

/-!
# Relations

A relation is a join that is declared once and then asked for by name. Its columns arrive in result
rows under aliases made of the related table and the column, and objects nest what they hold. A
relation without declared keys brings all columns of its table.
-/

set_option autoImplicit false

namespace Quarry.Sql

/-- How many related objects there are, and on which side the reference is kept. -/
inductive RelationKind where
  | hasOne
  | hasMany
  | belongsTo
  deriving DecidableEq

namespace RelationKind

/-- The name of the kind. -/
def label : RelationKind → String
  | .hasOne => "hasOne"
  | .hasMany => "hasMany"
  | .belongsTo => "belongsTo"

/-- The kind of a name. -/
def ofName? : String → Option RelationKind
  | "hasOne" => some .hasOne
  | "hasMany" => some .hasMany
  | "belongsTo" => some .belongsTo
  | _ => none

/-- The kind that a value names. -/
def ofValue (v : Value) : Except Error RelationKind :=
  match v with
  | .text s =>
    match ofName? s with
    | some k => .ok k
    | none => refuse (.relationKind v)
  | _ => if v.canBeSought then refuse (.relationKind v) else misfit .kind

end RelationKind

/-- A declared join target. -/
structure Relation where
  table : Value
  localKey : Value
  foreignKey : Value
  kind : RelationKind
  joinKind : Option JoinKind
  /-- The keys of the related table, if they are declared. -/
  keys : Option (List Value)

namespace Relation

/-- The value of an optional field, NULL counting as not given. -/
def optional {α : Type} (f : Value → Except Error α) : Value → Except Error (Option α)
  | .null => .ok none
  | v => (f v).map some

/-- The relation that a record declares. -/
def ofValue (v : Value) : Except Error Relation := do
  let fields ← v.asFields
  fields.checkNames ["table", "local_key", "foreign_key"] ["type", "join_type", "keys"]
  let kind ← RelationKind.ofValue (fields.valueOr "type" (.text "hasOne"))
  let joinKind ← optional JoinKind.ofValue (fields.valueOr "join_type" .null)
  let keys ← optional Value.items (fields.valueOr "keys" .null)
  return ⟨fields.getD "table", fields.getD "local_key", fields.getD "foreign_key", kind, joinKind,
    keys⟩

/-- The declared keys; no keys are as good as none declared. -/
def declaredKeys (r : Relation) : List Value := r.keys.getD []

/-- The start of the aliases of a relation's columns. -/
def aliasStart (r : Relation) : String := r.table.display ++ "__"

/-- The alias of a column in result rows. -/
def aliasOf (r : Relation) (column : String) : String := r.aliasStart ++ column

/-- The columns that the relation brings: its declared keys under their aliases, or everything. -/
def columns (r : Relation) : Except Error (List Fragment) :=
  match r.declaredKeys with
  | [] => (identifier r.table).map fun table => [[.name table, .word ".*"]]
  | keys => keys.mapM fun key => do
    let column ← columnName key
    let table ← identifier r.table
    return [.name table, .word ".", .name column, .word " AS ", .name (r.aliasOf column)]

/-- The kind of join that fetches the relation: as declared, and otherwise one that keeps parents
without children. -/
def fetchKind (r : Relation) : JoinKind :=
  match r.joinKind with
  | some k => k
  | none => if r.kind = .hasMany then .left else .inner

/-- The join that fetches the relation of a table. -/
def join (owner : Value) (r : Relation) : Join :=
  ⟨r.table, .text (owner.display ++ "." ++ r.localKey.display),
    .text (r.table.display ++ "." ++ r.foreignKey.display), r.fetchKind⟩

/-- The relation of a name; of several declared under one name the last holds. -/
def find? (relations : List (String × Relation)) (name : String) : Option Relation :=
  (relations.reverse.find? fun r => r.1 == name).map (·.2)

/-- The relation of the table `owner` that a value names. Only what can never change may be looked
up, and only texts are names. -/
def named (relations : List (String × Relation)) (owner name : Value) :
    Except Error (String × Relation) :=
  match name with
  | .text s =>
    match find? relations s with
    | some r => .ok (s, r)
    | none => refuse (.unknownRelation name owner)
  | _ => if name.isFixed then refuse (.unknownRelation name owner) else misfit .kind

/-- The joins that fetch the relations of the given names. -/
def joins (relations : List (String × Relation)) (owner : Value) (names : List Value) :
    Except Error (List Join) :=
  names.mapM fun name => (named relations owner name).map fun r => r.2.join owner

end Relation

end Quarry.Sql
