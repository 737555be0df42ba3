import Mathlib.Logic.Function.Basic
import Quarry.Database.Mysql

/-!
# Calls for the pool

The pool of a MySQL server is set up by the first call that needs it (`ensurePool`), and many calls
may need it at a time. A call first looks whether there is a pool. If not, it waits for a lock,
looks again when it has the lock, and only asks for a pool if there still is none (`setUpPool`).
While it waits for the answer other calls go on, but none of them has the lock. The answer may be an
error: the call then fails, and the next one that has the lock asks again. What a call does with the
answer, from setting up the pool to starting the background task, is done in one go (`installPool`).
-/

set_option autoImplicit false

namespace Quarry

variable {δ : Type}

namespace Exchange

/-- Whether a pool was asked for. -/
def isCreation (x : Exchange) : Bool :=
  match x.request with
  | .createPool _ => true
  | _ => false

/-- Whether a pool was created. -/
def hasCreated (x : Exchange) : Bool := x.isCreation && x.outcome.isOk

/-- Whether the background task was to be started. -/
def isSweeperStart (x : Exchange) : Bool :=
  match x.request with
  | .startSweeper => true
  | _ => false

/-- Whether an exchange is about something else than setting up the pool. -/
def isForeign (x : Exchange) : Bool := !x.isCreation && !x.isSweeperStart

end Exchange

namespace Mysql

/-- How far a call is. -/
inductive Stage where
  /-- It has not looked for a pool yet. -/
  | ahead
  /-- It has found none, and waits for the lock. -/
  | queued
  /-- It has the lock, and has not looked again. -/
  | holding
  /-- It has asked for a pool, and waits for the answer to the exchange with this number. Which
  answer comes is settled with the request, but no call sees it before it comes; a call that is
  cancelled meanwhile gets an error. -/
  | asking (number : Nat) (outcome : Except Error Answer)
  /-- It has given a pool, the one made in the exchange with this number. -/
  | returned (p : Pool) (origin : Option Nat)
  /-- It has failed. -/
  | raised (e : Error)

namespace Stage

/-- Whether a call has the lock. -/
def hasLock : Stage → Bool
  | .holding => true
  | .asking .. => true
  | _ => false

/-- Whether a call waits for a pool it has asked for. -/
def isAsking : Stage → Bool
  | .asking .. => true
  | _ => false

/-- The stage after a call has tried to ask for a pool. -/
def asked (number : Nat) : Except Error (Except Error Answer) → Stage
  | .ok outcome => .asking number outcome
  | .error e => .raised e

/-- The stage at the end of a call. -/
def ended (origin : Option Nat) : Except Error Pool → Stage
  | .ok p => .returned p origin
  | .error e => .raised e

/-- How a call has ended, if it has. -/
def outcome? : Stage → Option (Except Error Pool)
  | .returned p _ => some (.ok p)
  | .raised e => some (.error e)
  | _ => none

end Stage

/-- What all calls see, and the number of the exchange in which the pool that is there was made. -/
structure Shared (δ : Type) where
  world : World (δ × List Exchange)
  origin : Option Nat

/-- The exchanges so far. -/
def Shared.record (t : Shared δ) : List Exchange := t.world.outside.2

/-- How a call goes on, except that it takes the lock. -/
inductive Turn (w : Wire δ) (s : Settings) : Shared δ → Stage → Shared δ → Stage → Prop where
  /-- It finds a pool at the first look. -/
  | found {t : Shared δ} {p : Pool} (hpool : t.world.pool = some p) :
      Turn w s t .ahead t (.returned p t.origin)
  /-- It finds no pool at the first look. -/
  | missed {t : Shared δ} (hpool : t.world.pool = none) : Turn w s t .ahead t .queued
  /-- It is cancelled while it waits for the lock. -/
  | cancelled {t : Shared δ} (e : Error) : Turn w s t .queued t (.raised e)
  /-- It finds a pool at the second look. -/
  | foundAgain {t : Shared δ} {p : Pool} (hpool : t.world.pool = some p) :
      Turn w s t .holding t (.returned p t.origin)
  /-- It finds no pool at the second look either, and asks for one. -/
  | asked {t : Shared δ} {world : World (δ × List Exchange)} {r : Except Error (Except Error Answer)}
      (hpool : t.world.pool = none) (hrun : (requestPool w.recorded s).runOn t.world = (r, world)) :
      Turn w s t .holding ⟨world, t.origin⟩ (.asked t.record.length r)
  /-- It gets the answer. -/
  | answered {t : Shared δ} {number : Nat} {outcome : Except Error Answer} {world : World (δ × List Exchange)}
      {r : Except Error Pool} (hrun : (installPool w.recorded s outcome).runOn t.world = (r, world)) :
      Turn w s t (.asking number outcome) ⟨world, if outcome.isOk then some number else t.origin⟩
        (.ended (some number) r)

/-- Calls for the pool, any number of which are under way. -/
structure Rush (δ : Type) where
  shared : Shared δ
  calls : Nat → Stage

/-- What can happen next. -/
inductive Rush.Step (w : Wire δ) (s : Settings) : Rush δ → Rush δ → Prop where
  /-- A call takes the lock, which no other one has. -/
  | locked {r : Rush δ} {i : Nat} (hcall : r.calls i = .queued) (hfree : ∀ j, (r.calls j).hasLock = false) :
      Step w s r ⟨r.shared, Function.update r.calls i .holding⟩
  /-- A call goes on. -/
  | turned {r : Rush δ} {i : Nat} {shared : Shared δ} {stage : Stage}
      (hturn : Turn w s r.shared (r.calls i) shared stage) :
      Step w s r ⟨shared, Function.update r.calls i stage⟩
  /-- Something else is done with the database, but the pool is not closed. -/
  | changed {r : Rush δ} {world : World (δ × List Exchange)} {more : List Exchange}
      (hpool : world.pool.isSome = r.shared.world.pool.isSome)
      (hrecord : world.outside.2 = r.shared.record ++ more) (hforeign : more.all Exchange.isForeign = true) :
      Step w s r ⟨⟨world, r.shared.origin⟩, r.calls⟩

/-- No call has begun yet, and there is no pool. -/
def Rush.start (world : World δ) : Rush δ := ⟨⟨world.recording [], none⟩, fun _ => .ahead⟩

end Mysql

end Quarry
