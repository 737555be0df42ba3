import Quarry.Database.Basic
import Quarry.Value.Equality

/-!
# MySQL

Connections to a MySQL server come from a pool, which is set up when the first one is needed. At
most `connectionLimit` connections are open; who finds none free waits for a while, unless the
settings forbid waiting or too many wait already. A background task closes connections that were
idle for too long.
-/

set_option autoImplicit false

namespace Quarry.Mysql

variable {δ : Type}

/-- The error numbers that mean the connection is gone. -/
def lostCodes : List Int := [2006, 2013, 2055, 4031]

/-- The error numbers that mean another transaction holds a lock. -/
def contentionCodes : List Int := [1205, 1213]

/-- Whether the number of an error is in a list. -/
def hasCode (codes : List Int) (f : Fault) : Bool :=
  match f.code with
  | .int n => codes.contains n
  | _ => false

/-- The error for a fault of the driver during a statement. -/
def wrapFault (sql : String) (params : Value) (f : Fault) : Option Error :=
  if f.source ≠ .mysql then none
  else if hasCode lostCodes f then
    some (.pool .lost (.text f.driverMessage) [] (some (.fault f)))
  else
    some (.query {
      text := .text f.driverMessage
      sql := .text sql
      params := params
      code := f.code
      state := f.details.valueOr "sqlstate" .null
      lockContention := hasCode contentionCodes f } (some (.fault f)))

/-- The error that no connection was free. -/
def exhausted (message : String) : Error := .pool .exhausted (.text message) [] none

/-- The fault that time ran out. -/
def timeout : Error := .fault { source := .program, name := "TimeoutError", args := [] }

/-- How long idle connections are kept, for the pool, in whole seconds; no expiry is shown as -1. -/
def recycleTime (s : Settings) : Except Error Int := do
  if ← s.idleTimeout.isAbove (.int 0) then s.idleTimeout.toWhole else return -1

/-- With what a pool is set up, by name in ascending order. -/
def poolOptions (s : Settings) : Except Error Record := do
  let recycle ← recycleTime s
  return [("autocommit", .bool true), ("charset", .text "utf8mb4"), ("client_flag", .int 2),
    ("connect_timeout", s.acquireTimeout), ("db", s.database), ("host", s.host),
    ("maxsize", s.connectionLimit), ("minsize", .int 0), ("password", s.password),
    ("pool_recycle", .int recycle), ("port", s.port), ("user", s.user)]

/-- Start the background task, if there are to be sweeps. -/
def startSweeper (w : Wire δ) (s : Settings) : Act (World δ) Unit := do
  if ← Act.ofExcept (s.sweepInterval.isAbove (.int 0)) then
    let _ ← World.send w .startSweeper
    Act.update fun world => { world with sweeper := .running }

/-- What a call asks for when it has the lock and there is no pool. -/
def requestPool (w : Wire δ) (s : Settings) : Act (World δ) (Except Error Answer) := do
  let options ← Act.ofExcept (poolOptions s)
  Act.attempt (World.send w (.createPool options))

/-- What a call does with the answer, before it gives the lock back. -/
def installPool (w : Wire δ) (s : Settings) (outcome : Except Error Answer) : Act (World δ) Pool := do
  let _ ← Act.ofExcept outcome
  let p : Pool := { maxSize := s.connectionLimit }
  Act.update fun world => { world with pool := some p }
  World.report .debug ("Created MySQL pool for " ++ s.host.display ++ ":" ++ s.port.display ++
    " (max " ++ s.connectionLimit.display ++ " connections)")
  startSweeper w s
  return p

/-- What a call does while it has the lock: it looks again, and sets the pool up if there still is
none. -/
def setUpPool (w : Wire δ) (s : Settings) : Act (World δ) Pool := do
  match ← Act.read World.pool with
  | some p => return p
  | none => installPool w s (← requestPool w s)

/-- The pool, set up if there is none yet. Only a call that finds none takes the lock; what other
calls may do between its steps is said in `Rush.Step`. -/
def ensurePool (w : Wire δ) (s : Settings) : Act (World δ) Pool := do
  match ← Act.read World.pool with
  | some p => return p
  | none => setUpPool w s

/-- How the driver keeps the connections of a pool: which one it hands out, and what becomes of one
that is put back. Of everything besides the connections it leaves alone what is known
(`World.standing`), and putting a connection back asks for nothing. -/
class Pooling where
  /-- Hand a connection out. -/
  handOut {δ : Type} : Act (World δ) Connection
  /-- The world after a connection was put back. -/
  putBack {δ : Type} (c : Connection) (world : World δ) : World δ
  standing_handOut {δ : Type} (world : World δ) : (handOut.runOn world).2.standing = world.standing
  standing_putBack {δ : Type} (c : Connection) (world : World δ) : (putBack c world).standing = world.standing
  outside_putBack {δ : Type} (c : Connection) (world : World δ) : (putBack c world).outside = world.outside

namespace Pooling

/-- Hand a connection of a pool out. -/
def give (p : Pool) (rest : List Connection) (c : Connection) : Act (World δ) Connection := do
  Act.update fun world => { world with pool := some { p with free := rest, used := p.used ++ [c] } }
  return c

/-- Hand out the connection that has been free for longest, or else a new one. -/
def giveOldest : Act (World δ) Connection := do
  match ← Act.read World.pool with
  | none => throw timeout
  | some p =>
    match p.free with
    | c :: rest => give p rest c
    | [] =>
      if ← Act.ofExcept ((Value.int p.size).isBelow p.maxSize) then
        let c ← World.enter
        give p [] c
      else throw timeout

/-- The world after a connection was put behind the others that are free; a closed one is
dropped. -/
def keep (c : Connection) (world : World δ) : World δ :=
  match world.pool with
  | none => world
  | some p =>
    let used := p.used.erase c
    if world.isClosed c then { world with pool := some { p with used := used } }
    else
      { world with
        pool := some { p with used := used, free := p.free ++ [c] }
        handles := world.handles.map fun h =>
          if h.connection = c then { h with lastUsed := world.clock } else h }

/-- Giving a connection of the pool that is there. -/
theorem standing_give {world : World δ} (hpool : world.pool.isSome = true) (p : Pool) (rest : List Connection)
    (c : Connection) : ((give p rest c).runOn world).2.standing = world.standing := by
  rw [World.standing, World.standing, hpool]
  rfl

/-- Giving the connection that has been free for longest, or a new one. -/
theorem standing_giveOldest (world : World δ) : (giveOldest.runOn world).2.standing = world.standing := by
  have hlook : (Act.read World.pool).runOn world = (.ok world.pool, world) := rfl
  unfold giveOldest
  rw [Act.runOn_bind_ok hlook]
  cases hpool : world.pool with
  | none => rfl
  | some p =>
    have hthere : world.pool.isSome = true := by rw [hpool, Option.isSome_some]
    cases hfree : p.free with
    | cons c rest => simpa [hfree] using standing_give hthere p rest c
    | nil =>
      simp only [hfree]
      cases hroom : (Value.int p.size).isBelow p.maxSize with
      | error e => rfl
      | ok room =>
        have hasked : (Act.ofExcept (.ok room) : Act (World δ) Bool).runOn world = (.ok room, world) := rfl
        rw [Act.runOn_bind_ok hasked]
        cases room with
        | false => rfl
        | true =>
          have hentered : ((World.enter (δ := δ)).runOn world).2.pool.isSome = true := hthere
          exact standing_give hentered p [] _

/-- Of all but the connections, nothing changes when one is kept. -/
theorem standing_keep (c : Connection) (world : World δ) : (keep c world).standing = world.standing := by
  unfold keep
  cases hpool : world.pool with
  | none => rfl
  | some p =>
    have hthere : world.standing = (true, world.sweeper, world.waiting) := by
      rw [World.standing, hpool, Option.isSome_some]
    rw [hthere]
    cases hclosed : world.isClosed c with
    | true => rfl
    | false => rfl

/-- Keeping a connection asks for nothing. -/
theorem outside_keep (c : Connection) (world : World δ) : (keep c world).outside = world.outside := by
  unfold keep
  cases world.pool with
  | none => rfl
  | some p => cases hclosed : world.isClosed c <;> rfl

/-- The connections wait in a queue for who wants them. -/
instance queue : Pooling where
  handOut := giveOldest
  putBack := keep
  standing_handOut := standing_giveOldest
  standing_putBack := standing_keep
  outside_putBack := outside_keep

end Pooling

/-- Take a connection from the pool. -/
def take [Pooling] (w : Wire δ) : Act (World δ) Connection := do
  let _ ← World.send w .acquire
  Pooling.handOut

/-- Check that a number of seconds can be added to what a clock shows, which is a floating-point
number. -/
def checkSpan : Value → Except Error Unit
  | .int n => (Value.realOfInt n).map fun _ => ()
  | .decimal d => misfit (.operands "+" "float" (Value.decimal d).kindName)
  | _ => .ok ()

/-- Take a connection within the time that the settings allow. -/
def takeInTime [Pooling] (w : Wire δ) (s : Settings) : Act (World δ) Connection := do
  match s.acquireTimeout with
  | .null => take w
  | seconds =>
    if ← Act.ofExcept (seconds.isAtMost (.int 0)) then throw timeout
    else
      Act.ofExcept (checkSpan seconds)
      take w

/-- Change the number of callers that wait. -/
def addWaiting (n : Int) : Act (World δ) Unit :=
  Act.update fun world => { world with waiting := world.waiting + n }

/-- The error for what went wrong while a connection was taken. -/
def acquireError (s : Settings) (e : Error) : Error :=
  match e with
  | .fault f =>
    if f.isTimeout then
      exhausted ("No connection available after " ++ s.acquireTimeout.display ++ "s")
    else if f.source = .mysql ∧ f.name = "OperationalError" ∧ hasCode lostCodes f then
      .pool .lost (.text f.driverMessage) [] (some e)
    else e
  | _ => e

/-- Whether too many callers wait already. -/
def isQueueFull (s : Settings) (waiting : Int) : Except Error Bool :=
  if s.queueLimit.isTrue then (Value.int waiting).isAtLeast s.queueLimit else .ok false

/-- Check that one may wait for a connection when none is free. -/
def checkQueue (s : Settings) (p : Pool) (waiting : Int) : Except Error Unit := do
  if ← p.isExhausted then
    if !s.waitForConnections.isTrue then .error (exhausted "Connection pool is full")
    else if ← isQueueFull s waiting then
      .error (exhausted
        ("Connection queue limit reached (" ++ s.queueLimit.display ++ " waiting)"))

/-- What a call does before it waits. -/
def joinQueue (w : Wire δ) (s : Settings) : Act (World δ) Unit := do
  let p ← ensurePool w s
  Act.ofExcept (checkQueue s p (← Act.read World.waiting))
  addWaiting 1

/-- What a call does after it has waited, with that to which the wait has come. -/
def leaveQueue (s : Settings) (outcome : Except Error Connection) : Act (World δ) Connection := do
  addWaiting (-1)
  match outcome with
  | .ok c => return c
  | .error e => throw (acquireError s e)

/-- Get a connection from the pool: join the callers that wait, wait, and leave them however the
wait has ended. -/
def acquire [Pooling] (w : Wire δ) (s : Settings) : Act (World δ) Connection := do
  joinQueue w s
  let outcome ← Act.attempt (takeInTime w s)
  leaveQueue s outcome

/-- Give a connection back to the pool. -/
def release [Pooling] (w : Wire δ) (c : Connection) : Act (World δ) Unit := do
  match ← Act.read World.pool with
  | none => return ()
  | some _ =>
    let _ ← World.send w (.release c)
    Act.update (Pooling.putBack c)

/-- Close a connection; the pool then drops it. -/
def destroy [Pooling] (w : Wire δ) (c : Connection) : Act (World δ) Unit := do
  World.close w c
  release w c

/-- Whether a connection answers. -/
def ping (w : Wire δ) (c : Connection) : Act (World δ) Bool := do
  match ← Act.attempt (World.send w (.ping c (some false))) with
  | .ok _ => return true
  | .error (.fault f) =>
    if f.source = .mysql || f.isSystem then
      World.report .debug ("Ping failed: " ++ f.message)
      return false
    else throw (.fault f)
  | .error e => throw e

/-- Whether a connection has been idle for longer than is allowed. -/
def isStale (s : Settings) (now lastUsed : Value) : Except Error Bool := do
  (← now.minus lastUsed).isAbove s.idleTimeout

/-- Whether the sweep closes a connection. -/
def isSweepable (s : Settings) (now : Value) (world : World δ) (c : Connection) :
    Except Error Bool :=
  match world.handle? c with
  | some h => if h.closed then .ok true else isStale s now h.lastUsed
  | none => .ok false

/-- Remove a connection from those that are free. -/
def removeFree (c : Connection) : Act (World δ) Unit :=
  Act.update fun world =>
    { world with pool := world.pool.map fun p => { p with free := p.free.erase c } }

/-- Close those of the given connections that are to be swept, and count them. -/
def sweepEach (w : Wire δ) (s : Settings) (now : Value) : List Connection → Act (World δ) Nat
  | [] => return 0
  | c :: rest => do
    if ← Act.ofExcept (isSweepable s now (← get) c) then
      removeFree c
      World.close w c
      return (← sweepEach w s now rest) + 1
    else sweepEach w s now rest

/-- Close the free connections that are closed already or have been idle for too long, and count
them. Without a time given the clock's holds. -/
def sweep (w : Wire δ) (s : Settings) (now : Option Value) : Act (World δ) Nat := do
  let world ← get
  match world.pool with
  | none => return 0
  | some p =>
    let n ← sweepEach w s (now.getD world.clock) p.free
    if n ≠ 0 then World.report .debug ("Idle sweep destroyed " ++ toString n ++ " connection(s)")
    return n

/-- The background task: wait and sweep, until it is cancelled while it waits for the time after
`ticks` sweeps. -/
def sweepLoop (w : Wire δ) (s : Settings) : Nat → Act (World δ) Unit
  | 0 => do
    World.sleep w s.sweepInterval
    throw (.cancelled [])
  | ticks + 1 => do
    World.sleep w s.sweepInterval
    let _ ← sweep w s none
    sweepLoop w s ticks

/-- One round of the background task after its wait. Should it fail, the task is over. -/
def backgroundSweep (w : Wire δ) (s : Settings) : Act (World δ) Unit := do
  match ← Act.read World.sweeper with
  | .running =>
    match ← Act.attempt (sweep w s none) with
    | .ok _ => return ()
    | .error e => Act.update fun world => { world with sweeper := .failed e }
  | _ => return ()

/-- Cancel the background task and wait for its end. A failure that ended it before comes to light
now; a cancellation is what was asked for. -/
def stopSweeper (w : Wire δ) : Act (World δ) Unit := do
  match ← Act.read World.sweeper with
  | .absent => return ()
  | .running =>
    let _ ← World.send w .stopSweeper
    Act.update fun world => { world with sweeper := .absent }
  | .failed e =>
    let _ ← World.send w .stopSweeper
    if e.isOrdinary then throw e
    else Act.update fun world => { world with sweeper := .absent }

/-- Stop the background task and close the pool. -/
def shutdown (w : Wire δ) : Act (World δ) Unit := do
  stopSweeper w
  match ← Act.read World.pool with
  | none => return ()
  | some _ =>
    let _ ← World.send w .closePool
    let _ ← World.send w .awaitPool
    Act.update fun world => { world with pool := none }

/-- How much of the pool is in use. -/
def poolStatus (world : World δ) : Record :=
  match world.pool with
  | none => [("initialized", .bool false), ("waiting", .int world.waiting)]
  | some p =>
    [("initialized", .bool true), ("size", .int p.size), ("free", .int p.free.length),
      ("used", .int (p.size - p.free.length)), ("max", p.maxSize),
      ("waiting", .int world.waiting)]

/-- Send a request that is a statement of its own. -/
def command (w : Wire δ) (sql : String) (r : Request) : Act (World δ) Unit := do
  let _ ← wrapping (wrapFault sql .null) (World.send w r)

/-- Do work over a cursor that is opened for it. -/
def withCursor {α : Type} (w : Wire δ) (c : Connection) (work : Act (World δ) α) :
    Act (World δ) α := do
  let _ ← World.send w (.openCursor c)
  World.overCursor w c work

/-- Send a statement with its values, and fetch its rows if they are wanted. -/
def statement (w : Wire δ) (c : Connection) (sql : String) (params : Value) (fetches : Bool) :
    Act (World δ) Answer := do
  let values ← Act.ofExcept (boundValues params)
  let bound := if params.isTrue then some values else none
  wrapping (wrapFault sql params) do
    let a ← World.send w (.execute c sql bound)
    if fetches then
      let _ ← World.send w (.fetch c)
    return a

/-- The number of the type of one-byte integers. -/
def tinyType : Int := 1

/-- Whether a column holds truth values. -/
def isFlagColumn (column : Column) : Bool := column.typeCode == tinyType && column.length == 1

/-- Whether a value is 1. -/
def isOne (v : Value) : Except Error Bool :=
  match Value.same? v (.int 1) with
  | some equal => .ok equal
  | none => misfit .noNumber

/-- Turn the value of a column into a truth value; NULL stays NULL. -/
def castFlag (row : Record) (column : Column) : Except Error Record :=
  match Record.get? column.name row with
  | none => .ok row
  | some .null => .ok row
  | some v => (isOne v).map fun b => row.set column.name (.bool b)

/-- Turn a decimal number into a floating-point number. -/
def castDecimal : Value → Except Error Value
  | .decimal d => (Value.realOfDecimal d).map .real
  | v => .ok v

/-- A row as the settings want it. -/
def normalizeRow (s : Settings) (columns : List Column) (row : Record) : Except Error Record := do
  let flagged ←
    if s.castBoolean.isTrue then (columns.filter isFlagColumn).foldlM castFlag row else .ok row
  if s.decimalNumbers.isTrue then
    flagged.mapM fun f => do return (f.1, ← castDecimal f.2)
  else return flagged

/-- The rows of an answer by column; of several columns of one name the last holds. -/
def rowsOf (s : Settings) (a : Answer) : Except Error (List Record) :=
  let columns := a.columns.getD []
  a.rows.mapM fun row =>
    normalizeRow s columns (Record.ofList ((columns.map Column.name).zip row))

/-- Execute a statement that writes. -/
def execute (w : Wire δ) (c : Connection) (sql : String) (params : Value) :
    Act (World δ) ExecResult :=
  withCursor w c do
    let a ← statement w c sql params false
    return ⟨a.rowCount, a.lastId.getD 0⟩

/-- Execute a statement that reads. -/
def fetchAll (w : Wire δ) (s : Settings) (c : Connection) (sql : String) (params : Value) :
    Act (World δ) (List Record) :=
  withCursor w c do
    Act.ofExcept (rowsOf s (← statement w c sql params true))

/-- The database that is a MySQL server. -/
def database [Pooling] (w : Wire δ) (s : Settings) : Database (World δ) where
  description := s.describe.map (("dialect", .text "mysql") :: ·)
  poolStatus := poolStatus
  keeps := fun level world => world.log.keeps level
  log := fun level text world => { world with log := world.log.add level text }
  strict := fun world => world.log.strict
  sleep := World.sleep w
  acquire := acquire w s
  release := release w
  destroy := destroy w
  ping := ping w
  begin := fun c => command w "BEGIN" (.begin c)
  commit := fun c => command w "COMMIT" (.commit c)
  rollback := fun c => command w "ROLLBACK" (.rollback c)
  dialect := .mysql
  settings := s
  execute := execute w
  fetchAll := fetchAll w s
  shutdown := shutdown w

end Quarry.Mysql
