import Quarry.Json.Value

/-!
# Parameters

Values take the form in which columns hold them before they are bound to a statement: truth values
become 1 and 0, dates and times their stored text, records and lists JSON text. Everything else
is bound as it is.
-/

set_option autoImplicit false

namespace Quarry.Value

/-- The form in which a value is bound. `utc` says whether moments are moved to UTC. -/
def parameter [Limits] (utc : Bool) : Value → Except Error Value
  | .bool b => .ok (.int (if b then 1 else 0))
  | .moment m => (storedMoment utc m).map .text
  | .date d => .ok (.text d.stored)
  | .record fields => (jsonText (.record fields)).map .text
  | .list items => (jsonText (.list items)).map .text
  | v => .ok v

/-- The bound forms of the values that were given. -/
def parameters [Limits] (utc : Bool) (values : List Value) : Except Error (List Value) :=
  (values.filter fun v => !v.isUnset).mapM (parameter utc)

/-- The items of a value that can be gone through: of a container its items, of a record its names,
of a text its characters, of a byte string its bytes. -/
def items : Value → Except Error (List Value)
  | .list vs => .ok vs
  | .tuple vs => .ok vs
  | .set vs => .ok vs
  | .record fields => .ok (fields.map fun f => .text f.1)
  | .text s => .ok (s.toList.map fun c => .text (String.singleton c))
  | .bytes data => .ok (data.map fun b => .int b.toNat)
  | .buffer data => .ok (data.map fun b => .int b.toNat)
  | _ => misfit .kind

end Quarry.Value
