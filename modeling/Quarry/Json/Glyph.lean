/-!
# Glyphs

JSON text may write a character beyond the basic plane as a pair of escaped code units. Half of such
a pair may also stand alone. It is no character then, but texts with halves are read and written
like all others.
-/

set_option autoImplicit false

namespace Quarry.Json

/-- A character, or half of a pair of code units that stands alone. -/
inductive Glyph where
  | char (c : Char)
  /-- The half with a number among all halves. -/
  | half (n : Fin 0x800)
  deriving DecidableEq

namespace Glyph

/-- The character that a glyph is. -/
def char? : Glyph → Option Char
  | char c => some c
  | half _ => none

/-- Whether a glyph is a character of a kind. -/
def any (p : Char → Bool) : Glyph → Bool
  | char c => p c
  | half _ => false

end Glyph

/-- The glyphs of a text. -/
def glyphs (cs : List Char) : List Glyph := cs.map .char

/-- The text that glyphs make if all of them are characters. -/
def textOf? (gs : List Glyph) : Option String := (gs.mapM Glyph.char?).map String.ofList

/-- The text that the characters among glyphs make. -/
def textOf (gs : List Glyph) : String := String.ofList (gs.filterMap Glyph.char?)

end Quarry.Json
