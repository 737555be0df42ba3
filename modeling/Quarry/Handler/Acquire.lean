import Quarry.Handler.Adapter
import Quarry.Value.Arithmetic

/-!
# Acquiring a connection

A connection is only handed out when it answers. Failures that may pass, and connections that do not
answer, lead to a new try, up to the number of retries; before each new try the handler waits twice
as long as before the one that preceded it. Other failures are passed on at once as the failure to
get a connection. The last error is logged with everything that helps to find its cause.
-/

set_option autoImplicit false

namespace Quarry

namespace Handler

variable {σ : Type}

/-- The error that there is no connection, raised because of another error or by itself. -/
def noConnection (cause : Option Error) : Error := .pool .unavailable Error.poolDefault [] cause

/-- The error that a connection did not answer. -/
def deadConnection : Error := .pool .lost (.text "Connection failed liveness check") [] none

/-- Log why there is no connection. -/
def reportFailure (h : Handler σ) (e : Error) : Act σ Unit := do
  let a := h.adapter
  a.report .error ("Failed to get database connection: " ++ e.message)
  let description ← Act.ofExcept a.description
  a.report .error ("Connection config: " ++ (Value.record description).literal)
  let status ← Act.read a.poolStatus
  a.report .error ("Pool status: " ++ (Value.record status).literal)
  let source := e.cause?.getD e
  a.report .error ("Driver error: code=" ++ source.code.display ++ " message=" ++
    source.reportedMessage ++ " state=" ++ source.state.display)

/-- How often an acquisition is tried in all: once more than it is tried again. Of numbers only
integers can be counted up to, and that shows after the one has been added. -/
def tries (h : Handler σ) : Except Error Nat :=
  match h.retryCount with
  | .int n => .ok (n + 1).toNat
  | .bool b => .ok (if b then 2 else 1)
  | .decimal d => do
    let _ ← Value.decimalMinus d (.ofInt (-1))
    misfit .kind
  | _ => misfit .kind

/-- Wait before try number `n` of `total`, counted from 0; the first one needs no waiting. -/
def waitBefore (h : Handler σ) (total n : Nat) (last : Option Error) : Act σ Unit := do
  match n with
  | 0 => return ()
  | k + 1 =>
    let delay ← Act.ofExcept (h.retryDelay.timesNat (Nat.pow 2 k))
    if ← Act.read (h.adapter.keeps .debug) then
      h.adapter.reportWritten .debug (delay.thousandths.map fun shown =>
        "Retrying connection acquisition in " ++ shown ++ "s (attempt " ++ toString (n + 1) ++ "/" ++
          toString total ++ "): " ++ ((last.map Error.message).getD "None"))
    h.adapter.sleep delay

/-- Try to get a connection: `left` more times of `total`, beginning with try number `n`. -/
def tryAcquire (h : Handler σ) (total : Nat) : Nat → Nat → Option Error → Act σ Connection
  | 0, _, last => do
    let e := last.getD (noConnection none)
    h.reportFailure e
    throw e
  | left + 1, n, last => do
    h.waitBefore total n last
    match ← Act.attempt h.adapter.acquire with
    | .error e =>
      if e.isTransient then tryAcquire h total left (n + 1) (some e)
      else if e.isOrdinary then
        h.reportFailure e
        throw (noConnection (some e))
      else throw e
    | .ok c =>
      if ← h.adapter.ping c then return c
      else
        h.adapter.report .warning "Discarding connection that failed the liveness check"
        h.adapter.destroy c
        tryAcquire h total left (n + 1) (some deadConnection)

/-- Get a connection that answers. -/
def acquire (h : Handler σ) : Act σ Connection := do
  let total ← Act.ofExcept h.tries
  h.tryAcquire total total 0 none

end Handler

end Quarry
