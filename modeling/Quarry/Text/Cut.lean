/-!
# Cutting texts at a character

Cuts at the first or at the last place where a character stands. The character itself goes to
neither side.
-/

set_option autoImplicit false

namespace Quarry.Text

/-- The parts before and after the first `c`, if there is one. -/
def cutFirst (c : Char) : List Char → Option (List Char × List Char)
  | [] => none
  | d :: rest =>
    if d = c then some ([], rest)
    else (cutFirst c rest).map fun (a, b) => (d :: a, b)

/-- The parts before and after the last `c`, if there is one. -/
def cutLast (c : Char) : List Char → Option (List Char × List Char)
  | [] => none
  | d :: rest =>
    match cutLast c rest with
    | some (a, b) => some (d :: a, b)
    | none => if d = c then some ([], rest) else none

/-- The part before the first `c`, or everything. -/
def beforeFirst (c : Char) (cs : List Char) : List Char :=
  match cutFirst c cs with
  | some (a, _) => a
  | none => cs

/-- All parts between the places where `c` stands. -/
def splitAt (c : Char) : List Char → List (List Char)
  | [] => [[]]
  | d :: rest =>
    if d = c then [] :: splitAt c rest
    else
      match splitAt c rest with
      | [] => [[d]]
      | p :: ps => (d :: p) :: ps

/-- Whether `part` stands somewhere in the text. -/
def holds (part : List Char) : List Char → Bool
  | [] => part.isEmpty
  | c :: rest => part.isPrefixOf (c :: rest) || holds part rest

end Quarry.Text
