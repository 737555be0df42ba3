import Quarry.Handler.Run
import Quarry.Wire.Script

/-!
# Scripted adapters

An adapter whose connections exist by name only and whose operations go as a script says. A handler
on it shows the order in which it uses connections.
-/

set_option autoImplicit false

namespace Quarry

/-- What a scripted adapter may be told to answer. -/
structure AdapterAnswer where
  /-- The connection that is acquired. -/
  connection : Connection := ⟨"conn"⟩
  /-- Whether the connection answers. -/
  alive : Bool := true

/-- The state of a scripted adapter. -/
structure Rehearsal where
  script : Script AdapterAnswer := {}
  log : Log := {}

namespace Rehearsal

/-- Ask the script. -/
def ask (method : String) (arguments : List Value) : Act Rehearsal AdapterAnswer :=
  Act.ofFunction fun s =>
    let (outcome, script) := (Script.ask method arguments).runOn s.script
    (outcome.map fun a => a.getD {}, { s with script := script })

/-- Ask the script about a connection. -/
def askAbout (method : String) (c : Connection) : Act Rehearsal AdapterAnswer :=
  ask method [.text c.name]

/-- Ask the script about a connection when nothing is to be answered. -/
def tell (method : String) (c : Connection) : Act Rehearsal Unit := do
  let _ ← askAbout method c

/-- The scripted adapter with some settings. -/
def adapter (s : Settings) : Adapter Rehearsal where
  description := s.describe.map (("dialect", .text "fake") :: ·)
  poolStatus := fun _ => []
  keeps := fun level state => state.log.keeps level
  log := fun level text state => { state with log := state.log.add level text }
  strict := fun state => state.log.strict
  sleep := fun seconds => do let _ ← ask "sleep" [seconds]
  acquire := do return (← ask "acquire" []).connection
  release := tell "release"
  destroy := tell "destroy"
  ping := fun c => do return (← askAbout "ping" c).alive
  begin := tell "begin"
  commit := tell "commit"
  rollback := tell "rollback"

end Rehearsal

end Quarry
