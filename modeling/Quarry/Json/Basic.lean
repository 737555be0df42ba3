import Quarry.Json.Glyph
import Quarry.Number.Binary64

/-!
# JSON

The values of JSON text, with two extensions that the text forms here have: numbers without point
and exponent are integers of any size, and the special floating-point values are admitted. An
object is a list of named values in order.

What texts are is left open. JSON text itself has glyphs in them (`Tree`), values have characters
(`Json String`).
-/

set_option autoImplicit false

namespace Quarry

open Number (Binary64)

/-- A JSON value with texts of a type. -/
inductive Json (τ : Type) where
  | null
  | bool (b : Bool)
  | int (n : Int)
  | real (x : Binary64)
  | text (t : τ)
  | array (items : List (Json τ))
  | object (fields : List (τ × Json τ))

namespace Json

variable {τ σ : Type}

/-- A JSON value as JSON text has it. -/
abbrev Tree := Json (List Glyph)

/-- Give a name a value: in its place if it is there, at the end otherwise. -/
def setField {α : Type} [DecidableEq τ] (name : τ) (value : α) : List (τ × α) → List (τ × α)
  | [] => [(name, value)]
  | (k, v) :: rest =>
    if k = name then (k, value) :: rest else (k, v) :: setField name value rest

/-- What holds after fields were read one after the other: of several of one name the last, in the
place of the first. -/
def keepLast {α : Type} [DecidableEq τ] (fields : List (τ × α)) : List (τ × α) :=
  fields.foldl (fun r f => setField f.1 f.2 r) []

/-- Whether the value is an array or an object. -/
def isContainer : Json τ → Bool
  | .array _ => true
  | .object _ => true
  | _ => false

/-! ## Other texts -/

mutual

/-- The value with other texts in place of its own. -/
def map (f : τ → σ) : Json τ → Json σ
  | .null => .null
  | .bool b => .bool b
  | .int n => .int n
  | .real x => .real x
  | .text t => .text (f t)
  | .array items => .array (mapItems f items)
  | .object fields => .object (mapFields f fields)

/-- Items with other texts. -/
def mapItems (f : τ → σ) : List (Json τ) → List (Json σ)
  | [] => []
  | v :: vs => map f v :: mapItems f vs

/-- Fields with other names and texts. -/
def mapFields (f : τ → σ) : List (τ × Json τ) → List (σ × Json σ)
  | [] => []
  | (k, v) :: rest => (f k, map f v) :: mapFields f rest

end

mutual

/-- The value with other texts in place of its own, if there are any for all of them. -/
def map? (f : τ → Option σ) : Json τ → Option (Json σ)
  | .null => some .null
  | .bool b => some (.bool b)
  | .int n => some (.int n)
  | .real x => some (.real x)
  | .text t => (f t).map .text
  | .array items => (mapItems? f items).map .array
  | .object fields => (mapFields? f fields).map .object

/-- Items with other texts. -/
def mapItems? (f : τ → Option σ) : List (Json τ) → Option (List (Json σ))
  | [] => some []
  | v :: vs => do return (← map? f v) :: (← mapItems? f vs)

/-- Fields with other names and texts. -/
def mapFields? (f : τ → Option σ) : List (τ × Json τ) → Option (List (σ × Json σ))
  | [] => some []
  | (k, v) :: rest => do return (← f k, ← map? f v) :: (← mapFields? f rest)

end

/-- The value as JSON text has it. -/
def tree (j : Json String) : Tree := map (fun s => glyphs s.toList) j

/-- The value with texts of characters, if all that it has in texts are characters. -/
def plain? (t : Tree) : Option (Json String) := map? textOf? t

/-! ## Order -/

mutual

/-- The value with the names of every object in ascending order. -/
def sorted : Json String → Json String
  | .array items => .array (sortedItems items)
  | .object fields =>
    .object ((sortedFields fields).mergeSort fun a b => decide (a.1 ≤ b.1))
  | v => v

/-- Sort inside of items. -/
def sortedItems : List (Json String) → List (Json String)
  | [] => []
  | v :: vs => sorted v :: sortedItems vs

/-- Sort inside of fields. -/
def sortedFields : List (String × Json String) → List (String × Json String)
  | [] => []
  | (k, v) :: rest => (k, sorted v) :: sortedFields rest

end

end Json

end Quarry
