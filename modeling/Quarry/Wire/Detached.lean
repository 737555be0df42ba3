import Quarry.Wire.Basic

/-!
# The detached wire

A wire that leads nowhere: nothing can be opened over it. It stands in where no driver is attached.
-/

set_option autoImplicit false

namespace Quarry.Wire

/-- The fault of every request over a detached wire. -/
def noDriver : Error :=
  .fault { source := .program, name := "OSError", args := [.text "no driver attached"] }

/-- A wire that leads nowhere. -/
def detached : Wire Unit := ⟨fun _ => throw noDriver⟩

end Quarry.Wire
