import Quarry.Value.Basic

/-!
# Equality of values

Values are equal when they mean the same: numbers of all kinds (truth values count as 1 and 0) are
compared by value, both kinds of byte strings by content, records whatever the order of their
names, moments by instant. A value that is no number equals nothing, itself included; only the one
that JSON text names is recognized again.

Whether two values are equal need not have an answer (`same?`): a decimal value that signals cannot
be compared with numbers. Values inside of others are compared in order and only up to the first
that differ, so such a value may stay unnoticed.

`dedupe?` drops repeated values, which it may only do to values that cannot change
(`isFixed`): lists, records, sets and buffers cannot be told apart by what they hold at one time.
Sets can at least be looked for among values that cannot change (`canBeSought`).
-/

set_option autoImplicit false

namespace Quarry.Value

/-- Whether the value is a decimal value that signals when it is used as a number. -/
def isSignaling : Value → Bool
  | .decimal d => d.isSignaling
  | _ => false

/-- Whether two values are equal numbers. -/
def sameNumber? (v w : Value) : Option Bool :=
  match v.numeric?, w.numeric? with
  | some a, some b => if v.isSignaling || w.isSignaling then none else some (a.equal b)
  | _, _ => some false

/-- Whether a value is equal to a floating-point number. -/
def sameReal? (a : Number.Binary64) (w : Value) : Option Bool :=
  match a, w with
  | .nan true, .real (.nan true) => some true
  | _, _ => sameNumber? (.real a) w

/-- Whether a value is a byte string with the content `a`. -/
def sameBytes (a : List UInt8) : Value → Bool
  | .bytes b => a == b
  | .buffer b => a == b
  | _ => false

mutual

/-- Whether two values are equal, if that can be told. -/
def same? : Value → Value → Option Bool
  | .null, .null => some true
  | .unset, .unset => some true
  | .bool a, w => sameNumber? (.bool a) w
  | .int a, w => sameNumber? (.int a) w
  | .real a, w => sameReal? a w
  | .decimal a, w => sameNumber? (.decimal a) w
  | .text a, .text b => some (a == b)
  | .bytes a, w => some (sameBytes a w)
  | .buffer a, w => some (sameBytes a w)
  | .moment a, .moment b => some (a.equal b)
  | .date a, .date b => some (a == b)
  | .list a, .list b => if a.length == b.length then sameItems? a b else some false
  | .tuple a, .tuple b => sameItems? a b
  | .set a, .set b => if a.length == b.length then some (sameMembers a b) else some false
  | .record a, .record b => if a.length == b.length then sameFields? a b else some false
  | _, _ => some false
termination_by structural v => v

/-- Equality item by item. -/
def sameItems? : List Value → List Value → Option Bool
  | [], [] => some true
  | v :: vs, w :: ws =>
    match same? v w with
    | some true => sameItems? vs ws
    | other => other
  | _, _ => some false
termination_by structural vs => vs

/-- Whether each value equals one of the others. -/
def sameMembers : List Value → List Value → Bool
  | [], _ => true
  | v :: vs, ws => ws.any (fun w => same? v w == some true) && sameMembers vs ws
termination_by structural vs => vs

/-- Whether each field has an equal one of the same name. -/
def sameFields? : List (String × Value) → List (String × Value) → Option Bool
  | [], _ => some true
  | (k, v) :: rest, ws =>
    match Record.get? k ws with
    | none => some false
    | some w =>
      match same? v w with
      | some true => sameFields? rest ws
      | other => other
termination_by structural vs => vs

end

/-- Whether two values are known to be equal. -/
def same (v w : Value) : Bool := same? v w == some true

/-- Whether a container holds a text, as an item or as a name; other values are no containers. -/
def holdsText? (t : String) : Value → Option Bool
  | .list items => some (items.any fun v => same v (.text t))
  | .tuple items => some (items.any fun v => same v (.text t))
  | .set items => some (items.any fun v => same v (.text t))
  | .record fields => some (Record.has t fields)
  | _ => none

mutual

/-- Whether the value can never change, so that it may be recognized again. -/
def isFixed : Value → Bool
  | .list _ => false
  | .set _ => false
  | .record _ => false
  | .buffer _ => false
  | .decimal d => !d.isSignaling
  | .tuple items => areFixed items
  | _ => true

/-- Whether all values can never change. -/
def areFixed : List Value → Bool
  | [] => true
  | v :: vs => isFixed v && areFixed vs

end

/-- Whether the value may be looked for among values that can never change. -/
def canBeSought : Value → Bool
  | .set _ => true
  | v => isFixed v

/-- The values without those that equal an earlier one. -/
def distinctFrom (seen : List Value) : List Value → List Value
  | [] => []
  | v :: vs =>
    if seen.any (fun w => same w v) then distinctFrom seen vs
    else v :: distinctFrom (seen ++ [v]) vs

/-- The values without repetitions, or nothing if some value could change. -/
def dedupe? (vs : List Value) : Option (List Value) :=
  if areFixed vs then some (distinctFrom [] vs) else none

end Quarry.Value
