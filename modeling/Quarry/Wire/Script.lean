import Quarry.Wire.Basic

/-!
# Scripted outsides

A script is an outside that answers as it was told to. It has a list of replies, each for one kind
of request, and keeps a record of all that was asked. A request uses up the first reply of its kind;
when there is none it gets the ordinary answer. Cursors are no part of a script: what is asked about
them is granted and leaves no trace.
-/

set_option autoImplicit false

namespace Quarry

/-- A reply: an answer of some form, or a failure. -/
abbrev Reply (α : Type) := Except Error α

/-- A scripted outside. -/
structure Script (α : Type) where
  /-- The replies that are left, with the method each belongs to. -/
  replies : List (String × Reply α) := []
  /-- What was asked so far: methods with their arguments. -/
  events : List (List Value) := []

namespace Script

variable {α : Type}

/-- The first reply for a method, and the replies without it. -/
def takeReply (method : String) : List (String × Reply α) → Option (Reply α) × List (String × Reply α)
  | [] => (none, [])
  | (m, r) :: rest =>
    if m = method then (some r, rest)
    else
      let (found, others) := takeReply method rest
      (found, (m, r) :: others)

/-- Ask for something: the question is recorded and the reply, if there is one, used up. -/
def ask (method : String) (arguments : List Value) : Act (Script α) (Option α) :=
  Act.ofFunction fun s =>
    let (reply, rest) := takeReply method s.replies
    let after : Script α := ⟨rest, s.events ++ [.text method :: arguments]⟩
    match reply with
    | none => (.ok none, after)
    | some (.ok a) => (.ok (some a), after)
    | some (.error e) => (.error e, after)

/-- The wire to a scripted outside. -/
def wire : Wire (Script Answer) :=
  ⟨fun r => if r.isCursor then return {} else do return (← ask r.method r.arguments).getD {}⟩

end Script

end Quarry
