import Quarry.Sql.Column
import Quarry.Sql.JsonTest
import Quarry.Sql.Like
import Quarry.Value.Parameter

/-!
# Conditions

A condition is a record: its names are keys and its values say what the column must be. A plain
value means equality, a list means one of its items, NULL means NULL, and a record with an
`operator` says it in full. Entries that were not given are dropped.

Compiling goes in two steps. `Filter.compile` reads a condition and its OR-groups into a `Filter`, a
tree of atoms, each on one column; `Filter.write` writes the tree down, its text and apart from it
the values that are bound: atoms are joined by AND, groups are put in parentheses and joined by OR,
and when there are both a main part and groups each side is parenthesized as well. `Filter.fragment`
says the same piece by piece.
-/

set_option autoImplicit false

namespace Quarry.Sql

/-- A comparison of a column with a value. -/
inductive Comparison where
  | equal
  | notEqual
  | different
  | greater
  | less
  | greaterOrEqual
  | lessOrEqual
  deriving DecidableEq

namespace Comparison

/-- The comparison's sign. -/
def sign : Comparison → String
  | .equal => "="
  | .notEqual => "!="
  | .different => "<>"
  | .greater => ">"
  | .less => "<"
  | .greaterOrEqual => ">="
  | .lessOrEqual => "<="

end Comparison

/-- The operators of a condition. -/
inductive Operator where
  | compare (c : Comparison)
  | like
  | oneOf
  | inJson
  deriving DecidableEq

namespace Operator

/-- The operator of an upper-case name. -/
def ofName? : String → Option Operator
  | "=" => some (.compare .equal)
  | "!=" => some (.compare .notEqual)
  | "<>" => some (.compare .different)
  | ">" => some (.compare .greater)
  | "<" => some (.compare .less)
  | ">=" => some (.compare .greaterOrEqual)
  | "<=" => some (.compare .lessOrEqual)
  | "LIKE" => some .like
  | "IN" => some .oneOf
  | "IN_JSON" => some .inJson
  | _ => none

/-- The operator that a value names, in any case. -/
def ofValue (v : Value) : Except Error Operator :=
  match ofName? (String.ofList (Text.upper v.display.toList)) with
  | some op => .ok op
  | none => refuse (.operator v)

end Operator

/-- The smallest parts of a filter. -/
inductive Atom where
  /-- What no row satisfies. -/
  | never
  | isNull (column : ColumnRef)
  | isNotNull (column : ColumnRef)
  | compare (column : ColumnRef) (by_ : Comparison) (value : Value)
  | oneOf (column : ColumnRef) (values : List Value)
  | like (column : ColumnRef) (pattern : Value)
  | json (column : ColumnRef) (test : JsonTest)
  /-- One of several predicates, in parentheses. -/
  | anyJson (column : ColumnRef) (tests : List JsonTest)

namespace Atom

/-- The pieces of an atom. -/
def fragment (d : Dialect) : Atom → Fragment
  | .never => [.word "1=0"]
  | .isNull c => c.fragment ++ [.word " IS NULL"]
  | .isNotNull c => c.fragment ++ [.word " IS NOT NULL"]
  | .compare c op v => c.fragment ++ [.word " ", .word op.sign, .word " ", .slot v]
  | .oneOf c vs => c.fragment ++ .word " IN (" :: (Fragment.slots vs ++ [.word ")"])
  | .like c p => c.fragment ++ [.word " LIKE ", .slot p]
  | .json c t => t.fragment d c.fragment
  | .anyJson c ts =>
    Fragment.parenthesized (Fragment.joined " OR " (ts.map (JsonTest.fragment d c.fragment)))

/-- The text of an atom, and the values bound in it. -/
def write (d : Dialect) : Atom → Statement
  | .never => ⟨"1=0", []⟩
  | .isNull c => ⟨c.fragment.sql d ++ " IS NULL", []⟩
  | .isNotNull c => ⟨c.fragment.sql d ++ " IS NOT NULL", []⟩
  | .compare c op v => ⟨c.fragment.sql d ++ " " ++ op.sign ++ " " ++ d.placeholder, [v]⟩
  | .oneOf c vs => ⟨c.fragment.sql d ++ " IN (" ++ d.placeholders vs.length ++ ")", vs⟩
  | .like c p => ⟨c.fragment.sql d ++ " LIKE " ++ d.placeholder, [p]⟩
  | .json c t => t.write d (c.fragment.sql d)
  | .anyJson c ts =>
    let tests := (Draft.ofList (JsonTest.write d (c.fragment.sql d)) ts).joined " OR "
    ⟨"(" ++ tests.sql ++ ")", tests.params⟩

end Atom

/-- Membership in a list of values; no values means no match. -/
def oneOfAtom (utc : Bool) (column : ColumnRef) (values : List Value) : Except Error Atom := do
  let params ← Value.parameters utc values
  return if params.isEmpty then .never else .oneOf column params

/-- The operand of IN: the items of a container, or the value alone. -/
def operandItems : Value → List Value
  | .list vs => vs
  | .tuple vs => vs
  | .set vs => vs
  | v => [v]

/-- The items of a value that is a list or a tuple. -/
def sequence? : Value → Option (List Value)
  | .list vs => some vs
  | .tuple vs => some vs
  | _ => none

/-- The containment tests of sub-arrays; empty ones are passed over. -/
def containmentTests (d : Dialect) (utc : Bool) : List (List Value) → Except Error (List JsonTest)
  | [] => .ok []
  | group :: rest => do
    let params ← Value.parameters utc group
    if params.isEmpty then containmentTests d utc rest
    else
      let test ← JsonTest.containing d params
      return test :: (← containmentTests d utc rest)

/-- The elements of an operand of IN_JSON that is no list of sub-arrays: sub-arrays are spread, and
values that were not given are left out. -/
def spread : List Value → List Value
  | [] => []
  | v :: rest =>
    match sequence? v with
    | some vs => vs ++ spread rest
    | none => if v.isUnset then spread rest else v :: spread rest

/-- IN_JSON. A list of sub-arrays asks that one of them be contained as a whole; any other list
asks that one value be shared. -/
def inJsonAtom (d : Dialect) (utc : Bool) (column : ColumnRef) (operand : Value) :
    Except Error Atom := do
  let values := (sequence? operand).getD [operand]
  let groups := values.filterMap sequence?
  if !values.isEmpty && groups.length == values.length then
    match ← containmentTests d utc groups with
    | [] => return .never
    | [t] => return .json column t
    | ts => return .anyJson column ts
  else
    let flat := spread values
    if flat.isEmpty then return .never
    else return .json column (.overlaps (← flat.mapM (Value.parameter utc)))

/-- Whether a LIKE operand says nothing: NULL, the empty text, or a value that was not given. -/
def isVoid : Value → Bool
  | .null => true
  | .unset => true
  | .text s => s.isEmpty
  | _ => false

/-- The path tests of a LIKE whose operand is a record: one for each entry that says something. -/
def pathTests (pattern : Value) : List (String × Value) → Except Error (List JsonTest)
  | [] => .ok []
  | (key, operand) :: rest => do
    if isVoid operand then pathTests pattern rest
    else
      let text ← likeOperand operand pattern
      return .pathLike (.text ("$." ++ key)) (.text text) :: (← pathTests pattern rest)

/-- LIKE. A record asks that one of its paths match; an operand that says nothing is dropped. -/
def likeAtom (column : ColumnRef) (operand pattern : Value) : Except Error (Option Atom) := do
  if isVoid operand then return none
  else
    match operand with
    | .record fields =>
      let tests ← pathTests pattern fields
      return if tests.isEmpty then none else some (.anyJson column tests)
    | _ => return some (.like column (.text (← likeOperand operand pattern)))

/-- An operator with NULL as its operand: only the two tests for NULL make sense of it. -/
def nullAtom (column : ColumnRef) : Operator → Option Atom
  | .compare .equal => some (.isNull column)
  | .compare .notEqual => some (.isNotNull column)
  | .compare .different => some (.isNotNull column)
  | _ => none

/-- An entry that names its operator. An entry whose operand was not given is dropped, but not
before its operator has been looked at. -/
def operatorAtom (d : Dialect) (utc : Bool) (column : ColumnRef) (operator : Value)
    (fields : Record) : Except Error (Option Atom) := do
  let op ← Operator.ofValue operator
  match fields.getD "value" with
  | .unset => return none
  | .null => return nullAtom column op
  | operand =>
    match op with
    | .oneOf => return some (← oneOfAtom utc column (operandItems operand))
    | .inJson => return some (← inJsonAtom d utc column operand)
    | .like =>
      let given := fields.getD "pattern"
      likeAtom column operand (if given.isTrue then given else .text "contains")
    | .compare c => return some (.compare column c (← Value.parameter utc operand))

/-- The atom of one entry of a condition, none if the entry is dropped. -/
def entryAtom (d : Dialect) (owner : Value) (utc : Bool) (key : String) (value : Value) :
    Except Error (Option Atom) := do
  if value.isUnset then return none
  let column ← (ColumnRef.ofKey key).within owner
  match value with
  | .null => return some (.isNull column)
  | .list vs => return some (← oneOfAtom utc column vs)
  | .tuple vs => return some (← oneOfAtom utc column vs)
  | .record fields =>
    match Record.get? "operator" fields with
    | some operator => operatorAtom d utc column operator fields
    | none => return some (.compare column .equal (← Value.parameter utc value))
  | _ => return some (.compare column .equal (← Value.parameter utc value))

/-- The atoms of the entries that are kept, in order. -/
def entryAtoms (d : Dialect) (owner : Value) (utc : Bool) :
    List (String × Value) → Except Error (List Atom)
  | [] => .ok []
  | (key, value) :: rest => do
    match ← entryAtom d owner utc key value with
    | none => entryAtoms d owner utc rest
    | some a => return a :: (← entryAtoms d owner utc rest)

/-- A compiled condition: atoms that all hold, and groups of atoms one of which holds as a whole. No
group is empty. -/
structure Filter where
  main : List Atom
  groups : List (List Atom)

namespace Filter

/-- The condition that a value is; an empty value is the empty condition. -/
def conditionOf (query : Value) : Except Error Record :=
  if query.isTrue then
    match query with
    | .record fields => .ok fields
    | _ => misfit .operation
  else .ok []

/-- The condition that an OR-group is. -/
def groupOf : Value → Except Error Record
  | .record fields => .ok fields
  | _ => misfit .operation

/-- The groups that keep at least one entry. -/
def compileGroups (d : Dialect) (owner : Value) (utc : Bool) :
    List Value → Except Error (List (List Atom))
  | [] => .ok []
  | group :: rest => do
    let atoms ← entryAtoms d owner utc (← groupOf group)
    let others ← compileGroups d owner utc rest
    return if atoms.isEmpty then others else atoms :: others

/-- Compile a condition with its OR-groups. -/
def compile (d : Dialect) (owner : Value) (utc : Bool) (query : Value)
    (groups : List Value) : Except Error Filter := do
  let main ← entryAtoms d owner utc (← conditionOf query)
  return ⟨main, ← compileGroups d owner utc groups⟩

/-- Compile a condition with its OR-groups given as a value, a container of conditions. Groups that
count as false are as good as none. -/
def ofValues (d : Dialect) (owner : Value) (utc : Bool) (query groups : Value) :
    Except Error Filter := do
  let main ← entryAtoms d owner utc (← conditionOf query)
  let items ← if groups.isTrue then groups.items else .ok []
  return ⟨main, ← compileGroups d owner utc items⟩

/-- Atoms that all hold. -/
def conjunction (d : Dialect) (atoms : List Atom) : Fragment :=
  Fragment.joined " AND " (atoms.map (Atom.fragment d))

/-- Groups one of which holds. -/
def disjunction (d : Dialect) (groups : List (List Atom)) : Fragment :=
  Fragment.joined " OR " (groups.map fun g => Fragment.parenthesized (conjunction d g))

/-- Whether the filter says nothing. -/
def isEmpty (f : Filter) : Bool := f.main.isEmpty && f.groups.isEmpty

/-- The pieces of a filter. -/
def fragment (d : Dialect) (f : Filter) : Fragment :=
  if f.groups.isEmpty then conjunction d f.main
  else if f.main.isEmpty then disjunction d f.groups
  else
    Fragment.parenthesized (conjunction d f.main) ++ .word " AND " ::
      Fragment.parenthesized (disjunction d f.groups)

/-- The text of atoms that all hold, and the values bound in it. -/
def writeAll (d : Dialect) (atoms : List Atom) : Statement :=
  (Draft.ofList (Atom.write d) atoms).joined " AND "

/-- The text of a filter, and the values bound in it. The values of the groups come behind those of
the main part, whatever becomes of the texts. -/
def write (d : Dialect) (f : Filter) : Statement :=
  let main := writeAll d f.main
  let groups := f.groups.foldl (fun draft g =>
    let group := writeAll d g
    draft.add ("(" ++ group.sql ++ ")") group.params) (⟨[], main.params⟩ : Draft)
  let others := groups.joined " OR "
  if main.sql ≠ "" ∧ others.sql ≠ "" then
    ⟨"(" ++ main.sql ++ ") AND (" ++ others.sql ++ ")", others.params⟩
  else ⟨if main.sql = "" then others.sql else main.sql, others.params⟩

/-- The text of a condition with its OR-groups given as a value, and the values bound in it. -/
def build (d : Dialect) (owner : Value) (utc : Bool) (query groups : Value) : Except Error Statement :=
  (ofValues d owner utc query groups).map (write d)

/-- The pieces of the WHERE clause, none for a filter that says nothing. -/
def whereFragment (d : Dialect) (f : Filter) : Fragment :=
  if f.isEmpty then [] else .word " WHERE " :: f.fragment d

end Filter

end Quarry.Sql
