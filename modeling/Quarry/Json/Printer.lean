import Quarry.Json.Basic
import Quarry.Number.Shortest
import Quarry.Text.Hex

/-!
# Writing JSON text

Items are separated by a comma and a space, names and values by a colon and a space. Characters are
written as themselves; only quotes, backslashes and control characters are escaped. Halves of pairs
of code units are written as themselves, too.
-/

set_option autoImplicit false

namespace Quarry.Json

/-- A character inside quotes. -/
def escape (c : Char) : List Char :=
  if c == '"' then ['\\', '"']
  else if c == '\\' then ['\\', '\\']
  else if c == '\n' then ['\\', 'n']
  else if c == '\r' then ['\\', 'r']
  else if c == '\t' then ['\\', 't']
  else if c == '\x08' then ['\\', 'b']
  else if c == '\x0c' then ['\\', 'f']
  else if c.toNat < 0x20 then
    '\\' :: 'u' :: Text.hexDigits 4 c.toNat
  else [c]

/-- A glyph inside quotes. -/
def Glyph.escaped : Glyph → List Glyph
  | .char c => glyphs (escape c)
  | .half n => [.half n]

/-- A text in quotes. -/
def quote (gs : List Glyph) : List Glyph := .char '"' :: (gs.flatMap Glyph.escaped ++ [.char '"'])

/-- An integer. -/
def intChars (n : Int) : List Char :=
  if n < 0 then '-' :: Nat.toDigits 10 n.natAbs else Nat.toDigits 10 n.natAbs

mutual

/-- The text of a value. -/
def write : Tree → List Glyph
  | .null => glyphs "null".toList
  | .bool true => glyphs "true".toList
  | .bool false => glyphs "false".toList
  | .int n => glyphs (intChars n)
  | .real x => glyphs (x.text .json).toList
  | .text t => quote t
  | .array [] => [.char '[', .char ']']
  | .array (v :: vs) => .char '[' :: (write v ++ writeItems vs)
  | .object [] => [.char '\x7b', .char '\x7d']
  | .object ((k, v) :: rest) =>
    .char '\x7b' :: (quote k ++ .char ':' :: .char ' ' :: (write v ++ writeFields rest))

/-- The text of the items after the first, with the closing bracket. -/
def writeItems : List Tree → List Glyph
  | [] => [.char ']']
  | v :: vs => .char ',' :: .char ' ' :: (write v ++ writeItems vs)

/-- The text of the fields after the first, with the closing brace. -/
def writeFields : List (List Glyph × Tree) → List Glyph
  | [] => [.char '\x7d']
  | (k, v) :: rest =>
    .char ',' :: .char ' ' :: (quote k ++ .char ':' :: .char ' ' :: (write v ++ writeFields rest))

end

/-- The text of a value that has nothing but characters in it. -/
def print (j : Json String) : String := textOf (write j.tree)

end Quarry.Json
