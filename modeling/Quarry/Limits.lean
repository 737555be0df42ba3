/-!
# Limits

Some operations end where the machine that they run on comes to its limits, wherever these are: JSON
text is read and written by going down into containers, which takes room for each, and a decimal
number may have more zeros than there is memory for. The limits are an instance that these
operations are given. What is said about them holds for all limits; the ordinary ones are those of a
run that is given no others.
-/

set_option autoImplicit false

namespace Quarry

/-- The limits of a machine. -/
class Limits where
  /-- How many containers may stand inside of each other in JSON text, be it read or written. -/
  depth : Nat
  /-- How many zeros may stand behind the digits of a decimal number of which an integer is made. -/
  zeros : Nat

/-- The limits of a run that is given no others. -/
instance Limits.ordinary : Limits := ⟨990, 100000000⟩

end Quarry
