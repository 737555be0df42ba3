import Quarry.Error
import Quarry.Limits

/-!
# Calculating with values

Numbers of different kinds may be compared and calculated with. Truth values count as integers. A
comparison is one of exact values. A result takes the kind of its operands: an integer with a
floating-point number gives a floating-point number, an integer with a decimal number a decimal
number, and the last two kinds do not go together. Whatever is no number is a misfit.
-/

set_option autoImplicit false

namespace Quarry.Value

open Number (Binary64 Decimal)

/-- Whether the value is a decimal number. -/
def isDecimal : Value → Bool
  | .decimal _ => true
  | _ => false

/-- Whether the order of two numbers is as asked for. Undefined values have no order, and where
decimal numbers are compared that is a misfit. -/
def ordered (sign : String) (holds : Ordering → Bool) (a b : Value) : Except Error Bool :=
  match a.numeric?, b.numeric? with
  | some x, some y =>
    match x.compare? y with
    | some o => .ok (holds o)
    | none => if a.isDecimal || b.isDecimal then misfit .noNumber else .ok false
  | _, _ => misfit (.order sign a.kindName b.kindName)

/-- Whether a number is greater than another. -/
def isAbove (a b : Value) : Except Error Bool := ordered ">" (· == .gt) a b

/-- Whether a number is less than another. -/
def isBelow (a b : Value) : Except Error Bool := ordered "<" (· == .lt) a b

/-- Whether a number is at least another. -/
def isAtLeast (a b : Value) : Except Error Bool := ordered ">=" (· != .lt) a b

/-- Whether a number is at most another. -/
def isAtMost (a b : Value) : Except Error Bool := ordered "<=" (· != .gt) a b

/-- The floating-point number nearest to an integer, which must not be beyond all of them. -/
def realOfInt (n : Int) : Except Error Binary64 :=
  let x := Binary64.ofInt n
  if x.isFinite then .ok x else misfit (.range .largeInteger)

/-- The floating-point number nearest to a decimal number. -/
def realOfDecimal (d : Decimal) : Except Error Binary64 :=
  if d.isSignaling then refuse .signalingNan else .ok d.toBinary64

/-- The floating-point number that a number is. -/
def toReal : Value → Except Error Binary64
  | .bool b => realOfInt (if b then 1 else 0)
  | .int n => realOfInt n
  | .real x => .ok x
  | .decimal d => realOfDecimal d
  | _ => misfit .kind

/-- The integer that a decimal number is when its fraction is cut off. -/
def wholeOfDecimal [Limits] (d : Decimal) : Except Error Int :=
  match d with
  | .finite _ c e =>
    if c != 0 && Limits.zeros < e then misfit .tooLong else .ok (d.truncate?.getD 0)
  | .infinite _ => misfit (.range .decimalInfinity)
  | .nan .. => refuse (.nanInteger false)

/-- The integer that a number is when its fraction is cut off. -/
def toWhole [Limits] : Value → Except Error Int
  | .bool b => .ok (if b then 1 else 0)
  | .int n => .ok n
  | .real x =>
    match x with
    | .infinite _ => misfit (.range .realInfinity)
    | .nan _ => refuse (.nanInteger true)
    | .finite .. => .ok (x.truncate?.getD 0)
  | .decimal d => wholeOfDecimal d
  | _ => misfit .kind

/-- The result of a calculation with decimal numbers. -/
def calculated (undefined : Bool) (result : Option Decimal) : Except Error Value :=
  match result with
  | some d => .ok (.decimal d)
  | none => misfit (if undefined then .noNumber else .overflow)

/-- The difference of two decimal numbers. -/
def decimalMinus (a b : Decimal) : Except Error Value :=
  if a.isSignaling || b.isSignaling then misfit .noNumber
  else calculated (a.isInfinite && b.isInfinite) (a.minus? b)

/-- The difference of two numbers. -/
def minus : Value → Value → Except Error Value
  | .real a, .real b => .ok (.real (a.sub b))
  | .decimal a, .decimal b => decimalMinus a b
  | a, b =>
    match a, a.integer?, b, b.integer? with
    | _, some m, _, some n => .ok (.int (m - n))
    | .real x, _, _, some n => (realOfInt n).map fun y => .real (x.sub y)
    | _, some m, .real y, _ => (realOfInt m).map fun x => .real (x.sub y)
    | .decimal d, _, _, some n => decimalMinus d (.ofInt n)
    | _, some m, .decimal d, _ => decimalMinus (.ofInt m) d
    | _, _, _, _ => misfit (.operands "-" a.kindName b.kindName)

/-- Items one time after the other, a number of times. -/
def repeated {α : Type} (times : Nat) (items : List α) : List α :=
  (List.replicate times items).flatten

/-- The product with a natural number; of what has items it is a repetition. -/
def timesNat (v : Value) (n : Nat) : Except Error Value :=
  match v with
  | .bool b => .ok (.int (if b then n else 0))
  | .int m => .ok (.int (m * n))
  | .real x => (realOfInt n).map fun y => .real (x.mul y)
  | .decimal d =>
    if d.isSignaling then misfit .noNumber else calculated false (d.times? n)
  | .text s => .ok (.text (String.ofList (repeated n s.toList)))
  | .bytes data => .ok (.bytes (repeated n data))
  | .buffer data => .ok (.buffer (repeated n data))
  | .list vs => .ok (.list (repeated n vs))
  | .tuple vs => .ok (.tuple (repeated n vs))
  | _ => misfit (.operands "*" v.kindName "int")

/-- A number with three places behind the point. -/
def thousandths (v : Value) : Except Error String := v.toReal.map (Binary64.fixedText 3)

end Quarry.Value
