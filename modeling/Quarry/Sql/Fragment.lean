import Quarry.Value.Basic

/-!
# Fragments of statements

A statement is a text and a list of values bound to the placeholders in it. The two are written
apart from each other, part by part: a `Draft` holds what has been written of a list so far.

What binds no values, and what the parts of a statement are, is said by fragments, which are made of
pieces: fixed words, names, and slots, where a placeholder stands. `Fragment.sql` prints a fragment
in a dialect and `Fragment.params` lists its bound values in the order of their placeholders.
-/

set_option autoImplicit false

namespace Quarry.Sql

/-- The SQL dialects. -/
inductive Dialect where
  | mysql
  | sqlite
  deriving DecidableEq, Inhabited

namespace Dialect

/-- The name of the dialect. -/
def label : Dialect → String
  | .mysql => "mysql"
  | .sqlite => "sqlite"

/-- The character around names. -/
def quote : Dialect → Char
  | .mysql => '\x60'
  | .sqlite => '"'

/-- What stands for a bound value. -/
def placeholder : Dialect → String
  | .mysql => "%s"
  | .sqlite => "?"

/-- Whether a row may say `DEFAULT` for a column. -/
def hasDefault : Dialect → Bool
  | .mysql => true
  | .sqlite => false

/-- Placeholders for so many values. -/
def placeholders (d : Dialect) (count : Nat) : String :=
  ", ".intercalate (List.replicate count d.placeholder)

/-- The limit that is none. -/
def unboundedLimit : Dialect → String
  | .mysql => "18446744073709551615"
  | .sqlite => "-1"

/-- A name with every quote character in it doubled. -/
def doubleQuotes (q : Char) : List Char → List Char
  | [] => []
  | c :: rest => if c = q then q :: q :: doubleQuotes q rest else c :: doubleQuotes q rest

/-- A name in quotes. -/
def quoteChars (d : Dialect) (name : List Char) : List Char :=
  d.quote :: (doubleQuotes d.quote name ++ [d.quote])

/-- A name in quotes. -/
def quoteName (d : Dialect) (name : String) : String :=
  String.ofList (d.quoteChars name.toList)

end Dialect

/-- A piece of a statement. -/
inductive Piece where
  /-- Fixed text of the language. -/
  | word (text : String)
  /-- A name, printed in quotes. -/
  | name (identifier : String)
  /-- A bound value, printed as a placeholder. -/
  | slot (value : Value)
  /-- Text given by the caller, printed as it is. -/
  | raw (text : String)

/-- Pieces in the order in which they are printed. -/
abbrev Fragment := List Piece

namespace Piece

/-- The characters of a piece. -/
def chars (d : Dialect) : Piece → List Char
  | .word t => t.toList
  | .name n => d.quoteChars n.toList
  | .slot _ => d.placeholder.toList
  | .raw t => t.toList

/-- The value bound by a piece. -/
def param? : Piece → Option Value
  | .slot v => some v
  | _ => none

end Piece

namespace Fragment

/-- The characters of a fragment. -/
def chars (d : Dialect) (f : Fragment) : List Char := f.flatMap (Piece.chars d)

/-- The text of a fragment. -/
def sql (d : Dialect) (f : Fragment) : String := String.ofList (chars d f)

/-- The values bound by a fragment, in order. -/
def params (f : Fragment) : List Value := f.filterMap Piece.param?

/-- Fragments with a word between them. -/
def joined (separator : String) : List Fragment → Fragment
  | [] => []
  | [f] => f
  | f :: rest => f ++ .word separator :: joined separator rest

/-- A fragment in parentheses. -/
def parenthesized (f : Fragment) : Fragment := .word "(" :: (f ++ [.word ")"])

/-- Slots for values, with commas between them. -/
def slots (values : List Value) : Fragment := joined ", " (values.map fun v => [Piece.slot v])

end Fragment

/-- A statement: its text and the values bound to its placeholders. -/
structure Statement where
  sql : String
  params : List Value

/-- The WHERE clause of a condition, none for an empty one. -/
def Statement.whereText (condition : Statement) : String :=
  if condition.sql = "" then "" else " WHERE " ++ condition.sql

/-- What has been written of a list so far: texts that are yet to be joined, and the values bound in
them. -/
structure Draft where
  texts : List String := []
  params : List Value := []

namespace Draft

/-- One more text, in which these values are bound. -/
def add (draft : Draft) (text : String) (params : List Value) : Draft :=
  ⟨draft.texts ++ [text], draft.params ++ params⟩

/-- Write the members of a list one after the other. -/
def ofList {α : Type} (write : α → Statement) (xs : List α) : Draft :=
  xs.foldl (fun draft x => draft.add (write x).sql (write x).params) {}

/-- The texts with a separator between them. -/
def joined (separator : String) (draft : Draft) : Statement :=
  ⟨separator.intercalate draft.texts, draft.params⟩

end Draft

/-- The statement that a fragment becomes. -/
def Fragment.statement (d : Dialect) (f : Fragment) : Statement :=
  ⟨Fragment.sql d f, Fragment.params f⟩

end Quarry.Sql
