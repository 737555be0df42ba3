import Quarry.Text.Case

/-!
# Names of keys and columns

Objects are keyed in camel case and tables in snake case. `toSnake` puts an underscore at every
place where a lower-case letter or a digit meets a capital and then lower-cases the whole name;
`toCamel` joins the parts between underscores, raising the first letter of every part but the
first.
-/

set_option autoImplicit false

namespace Quarry.Text.Name

/-- A character that may stand in front of a word boundary. -/
def endsWord (c : Char) : Bool := ('a' <= c && c <= 'z') || ('0' <= c && c <= '9')

/-- A character that may stand behind a word boundary. -/
def startsWord (c : Char) : Bool := 'A' <= c && c <= 'Z'

/-- Put an underscore into every word boundary. A boundary takes up both of its characters, but a
capital never ends a word, so no two boundaries overlap. -/
def markBoundaries : List Char → List Char
  | a :: b :: rest =>
    if endsWord a && startsWord b then a :: '_' :: markBoundaries (b :: rest)
    else a :: markBoundaries (b :: rest)
  | rest => rest

/-- The column name of a key, on characters. -/
def snake (cs : List Char) : List Char := lower (markBoundaries cs)

/-- The parts of a name between its underscores; there is always at least one. -/
def parts : List Char → List (List Char)
  | [] => [[]]
  | c :: rest =>
    if c = '_' then [] :: parts rest
    else
      match parts rest with
      | [] => [[c]]
      | p :: ps => (c :: p) :: ps

/-- A part with its first letter raised. -/
def capitalize : List Char → List Char
  | [] => []
  | c :: rest => upperChar c ++ rest

/-- The key of a column name, on characters. -/
def camel (cs : List Char) : List Char :=
  match parts cs with
  | [] => []
  | first :: rest => first ++ rest.flatMap capitalize

/-- The column name of a key: `isValid` becomes `is_valid`. -/
def toSnake (name : String) : String := String.ofList (snake name.toList)

/-- The key of a column name: `is_valid` becomes `isValid`. -/
def toCamel (name : String) : String := String.ofList (camel name.toList)

end Quarry.Text.Name
