import Quarry.Json.Value

/-!
# Contents of columns

Values have characters in their texts. What a column of JSON text holds may have more, as JSON text
can have halves of pairs of code units that stand alone: a content is a value or such a JSON value
(`torn`), which is written back as it was read. The program has it like any other text or container,
but nothing that leaves the program may have it, so it is a misfit where a value is needed.
-/

set_option autoImplicit false

namespace Quarry

/-- What a column holds or is read as. -/
inductive Content where
  | value (v : Value)
  /-- JSON that has halves in its texts. -/
  | torn (t : Json.Tree)

namespace Content

/-- What JSON denotes. -/
def ofTree (t : Json.Tree) : Content :=
  match t.plain? with
  | some j => .value j.toValue
  | none => .torn t

/-- A text of glyphs. -/
def ofGlyphs (gs : List Json.Glyph) : Content := ofTree (.text gs)

/-- The value that a content is. -/
def toValue : Content → Except Error Value
  | .value v => .ok v
  | .torn _ => misfit .halfPair

end Content

end Quarry
