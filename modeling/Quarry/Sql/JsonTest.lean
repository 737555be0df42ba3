import Quarry.Sql.Fragment
import Quarry.Value.Equality
import Quarry.Error

/-!
# Predicates on JSON columns

Three predicates look into a column that holds JSON: whether its array contains all given values,
whether it shares one with them, and whether the text at a path matches a pattern. MySQL has
functions for them. SQLite takes the array apart: it contains the values when as many distinct
elements of it are among them as there are distinct values, which is why repeated values are dropped
first.
-/

set_option autoImplicit false

namespace Quarry.Sql

/-- A predicate on a JSON column. -/
inductive JsonTest where
  | contains (values : List Value)
  | overlaps (values : List Value)
  | pathLike (path : Value) (pattern : Value)

namespace JsonTest

/-- The containment predicate of a dialect. SQLite counts, so its values must be distinct. -/
def containing (d : Dialect) (values : List Value) : Except Error JsonTest :=
  match d with
  | .mysql => .ok (.contains values)
  | .sqlite =>
    match Value.dedupe? values with
    | some distinct => .ok (.contains distinct)
    | none => misfit .kind

/-- The pieces of a predicate on a column. -/
def fragment (d : Dialect) (column : Fragment) : JsonTest → Fragment
  | .contains values =>
    match d with
    | .mysql =>
      .word "JSON_CONTAINS(" :: (column ++ .word ", JSON_ARRAY(" ::
        (Fragment.slots values ++ [.word "))"]))
    | .sqlite =>
      .word "(SELECT COUNT(DISTINCT json_each.value) FROM json_each(" :: (column ++
        .word ") WHERE json_each.value IN (" :: (Fragment.slots values ++
          [.word ")) = ", .word (toString values.length)]))
  | .overlaps values =>
    match d with
    | .mysql =>
      .word "JSON_OVERLAPS(" :: (column ++ .word ", JSON_ARRAY(" ::
        (Fragment.slots values ++ [.word "))"]))
    | .sqlite =>
      .word "EXISTS (SELECT 1 FROM json_each(" :: (column ++
        .word ") WHERE json_each.value IN (" :: (Fragment.slots values ++ [.word "))"]))
  | .pathLike path pattern =>
    match d with
    | .mysql =>
      .word "CAST(JSON_UNQUOTE(JSON_EXTRACT(" :: (column ++
        [.word ", ", .slot path, .word ")) AS CHAR) LIKE ", .slot pattern])
    | .sqlite =>
      .word "CAST(json_extract(" :: (column ++
        [.word ", ", .slot path, .word ") AS TEXT) LIKE ", .slot pattern])

/-- The text of a predicate on a column, and the values bound in it. -/
def write (d : Dialect) (column : String) : JsonTest → Statement
  | .contains values =>
    match d with
    | .mysql =>
      ⟨"JSON_CONTAINS(" ++ column ++ ", JSON_ARRAY(" ++ d.placeholders values.length ++ "))", values⟩
    | .sqlite =>
      ⟨"(SELECT COUNT(DISTINCT json_each.value) FROM json_each(" ++ column ++
        ") WHERE json_each.value IN (" ++ d.placeholders values.length ++ ")) = " ++
        toString values.length, values⟩
  | .overlaps values =>
    match d with
    | .mysql =>
      ⟨"JSON_OVERLAPS(" ++ column ++ ", JSON_ARRAY(" ++ d.placeholders values.length ++ "))", values⟩
    | .sqlite =>
      ⟨"EXISTS (SELECT 1 FROM json_each(" ++ column ++ ") WHERE json_each.value IN (" ++
        d.placeholders values.length ++ "))", values⟩
  | .pathLike path pattern =>
    match d with
    | .mysql =>
      ⟨"CAST(JSON_UNQUOTE(JSON_EXTRACT(" ++ column ++ ", " ++ d.placeholder ++ ")) AS CHAR) LIKE " ++
        d.placeholder, [path, pattern]⟩
    | .sqlite =>
      ⟨"CAST(json_extract(" ++ column ++ ", " ++ d.placeholder ++ ") AS TEXT) LIKE " ++ d.placeholder,
        [path, pattern]⟩

end JsonTest

end Quarry.Sql
