import Quarry.Value.Equality
import Quarry.Error

/-!
# LIKE patterns

An operand of LIKE is the text of a value with wildcards where the match may go on: behind it,
before it, on both sides, or nowhere. Wildcards inside the operand keep their meaning.
-/

set_option autoImplicit false

namespace Quarry.Sql

/-- Where a match may go on around the operand. -/
inductive LikePattern where
  | starts
  | ends
  | contains
  | exact
  deriving DecidableEq

namespace LikePattern

/-- The pattern of a name. -/
def ofName? : String → Option LikePattern
  | "starts" => some .starts
  | "ends" => some .ends
  | "contains" => some .contains
  | "exact" => some .exact
  | _ => none

/-- The pattern that a value names. -/
def ofValue (v : Value) : Except Error LikePattern :=
  match v with
  | .text s =>
    match ofName? s with
    | some p => .ok p
    | none => refuse (.likePattern v)
  | _ => if v.canBeSought then refuse (.likePattern v) else misfit .kind

/-- The text with its wildcards. -/
def wrap (p : LikePattern) (text : String) : String :=
  match p with
  | .starts => text ++ "%"
  | .ends => "%" ++ text
  | .contains => "%" ++ text ++ "%"
  | .exact => text

end LikePattern

/-- The operand of LIKE for a value and the name of a pattern. -/
def likeOperand (value pattern : Value) : Except Error String :=
  (LikePattern.ofValue pattern).map fun p => p.wrap value.display

end Quarry.Sql
