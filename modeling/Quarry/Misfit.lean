import Quarry.Text.Utf8

/-!
# Misfits

A misfit is a value that does not have the form an operation needs. Most misfits are told by their
kind alone; those that can end up in a log line also have a text.
-/

set_option autoImplicit false

namespace Quarry

/-- How a number lies outside the range of the kind it is to become. -/
inductive OutOfRange where
  /-- There is no such date. -/
  | date
  /-- An infinite decimal number is no integer. -/
  | decimalInfinity
  /-- An infinite floating-point number is no integer. -/
  | realInfinity
  /-- An integer is beyond all floating-point numbers. -/
  | largeInteger
  deriving DecidableEq, Inhabited

namespace OutOfRange

/-- The range that was left, in words. -/
def text : OutOfRange → String
  | .date => "date value out of range"
  | .decimalInfinity => "cannot convert Infinity to integer"
  | .realInfinity => "cannot convert float infinity to integer"
  | .largeInteger => "int too large to convert to float"

end OutOfRange

/-- A value that does not have the form an operation needs. -/
inductive Misfit where
  /-- It is of the wrong kind, or too many or too few were given. -/
  | kind
  /-- The order of two values was asked for that have none; `left` and `right` are their kinds. -/
  | order (sign left right : String)
  /-- Two values were to be calculated with that do not go together. -/
  | operands (sign left right : String)
  /-- It lacks an operation. -/
  | operation
  /-- It lacks an entry. -/
  | entry
  /-- It lies outside the range of the kind it is to become. -/
  | range (limit : OutOfRange)
  /-- Its bytes are no text. -/
  | bytes (defect : Text.Utf8.Defect)
  /-- It is a decimal value that is no number, where a number is needed. -/
  | noNumber
  /-- It is a result that decimal numbers are too small for. -/
  | overflow
  /-- It has more digits than there is room for. -/
  | tooLong
  /-- It is JSON text with an array or, with `object`, an object at too great a depth. -/
  | depth (object : Bool)
  /-- It is to be written as JSON text and has containers at too great a depth. -/
  | writtenDepth
  /-- It has half of a pair of code units in a text, where only characters can be. -/
  | halfPair
  deriving DecidableEq, Inhabited

namespace Misfit

/-- The name under which a misfit appears. -/
def label : Misfit → String
  | .kind => "TypeError"
  | .order .. => "TypeError"
  | .operands .. => "TypeError"
  | .operation => "AttributeError"
  | .entry => "KeyError"
  | .range _ => "OverflowError"
  | .bytes _ => "UnicodeDecodeError"
  | .noNumber => "InvalidOperation"
  | .overflow => "Overflow"
  | .tooLong => "MemoryError"
  | .depth _ => "RecursionError"
  | .writtenDepth => "RecursionError"
  | .halfPair => "UnicodeEncodeError"

/-- The text of a misfit; those that are told by their kind alone have none. -/
def message : Misfit → String
  | .order sign left right =>
    "'" ++ sign ++ "' not supported between instances of '" ++ left ++ "' and '" ++ right ++ "'"
  | .operands sign left right =>
    "unsupported operand type(s) for " ++ sign ++ ": '" ++ left ++ "' and '" ++ right ++ "'"
  | .range limit => limit.text
  | .bytes defect => defect.text
  | .noNumber => "[<class 'decimal.InvalidOperation'>]"
  | .overflow => "[<class 'decimal.Overflow'>]"
  | .depth object =>
    "maximum recursion depth exceeded while decoding a JSON " ++
      (if object then "object" else "array") ++ " from a unicode string"
  | .writtenDepth => "maximum recursion depth exceeded while encoding a JSON object"
  | _ => ""

end Misfit

end Quarry
