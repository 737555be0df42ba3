import Quarry.Handler.Adapter
import Quarry.Repository.Basic
import Quarry.Value.Arithmetic

/-!
# The wire

All that the library asks of the outside goes over a `Wire`: opening and closing connections,
transactions, statements, waiting, and the background task that sweeps idle connections. Every
`Request` either gets an `Answer` or fails. A `World` is the state of the outside together with what
the library keeps itself: the pool, the connections it knows, the clock, the log and the registered
repositories.
-/

set_option autoImplicit false

namespace Quarry

/-- A request to the outside. -/
inductive Request where
  /-- Open the SQLite file at a path. -/
  | connect (path : String)
  /-- Set up a pool of connections to a MySQL server. -/
  | createPool (options : Record)
  | acquire
  | release (c : Connection)
  | closePool
  | awaitPool
  /-- Start the task that sweeps idle connections. -/
  | startSweeper
  | stopSweeper
  /-- Ask whether a connection lives; a server may also be told whether to connect again. -/
  | ping (c : Connection) (reconnect : Option Bool)
  | begin (c : Connection)
  | commit (c : Connection)
  | rollback (c : Connection)
  /-- Open a cursor, over which a statement is executed. -/
  | openCursor (c : Connection)
  /-- Execute a statement, with values for its placeholders or without any. -/
  | execute (c : Connection) (sql : String) (params : Option (List Value))
  /-- Fetch the rows of the statement that was executed last. The answer to the statement has them
  already; what fetching tells is whether they can be had. -/
  | fetch (c : Connection)
  | closeCursor (c : Connection)
  | close (c : Connection)
  /-- Let a number of seconds pass. -/
  | sleep (seconds : Value)

namespace Request

/-- The name of what is asked for. -/
def method : Request → String
  | .connect _ => "connect"
  | .createPool _ => "create_pool"
  | .acquire => "pool.acquire"
  | .release _ => "pool.release"
  | .closePool => "pool.close"
  | .awaitPool => "pool.wait_closed"
  | .startSweeper => "task.create"
  | .stopSweeper => "task.cancel"
  | .ping .. => "ping"
  | .begin _ => "begin"
  | .commit _ => "commit"
  | .rollback _ => "rollback"
  | .openCursor _ => "cursor.open"
  | .execute .. => "execute"
  | .fetch _ => "cursor.fetch"
  | .closeCursor _ => "cursor.close"
  | .close _ => "close"
  | .sleep _ => "sleep"

/-- The details of what is asked for. -/
def arguments : Request → List Value
  | .connect path => [.text path, .null]
  | .createPool options => [.record options]
  | .acquire => []
  | .release c => [.text c.name]
  | .closePool => []
  | .awaitPool => []
  | .startSweeper => []
  | .stopSweeper => []
  | .ping c none => [.text c.name]
  | .ping c (some r) => [.text c.name, .bool r]
  | .begin c => [.text c.name]
  | .commit c => [.text c.name]
  | .rollback c => [.text c.name]
  | .openCursor c => [.text c.name]
  | .execute c sql params => [.text c.name, .text sql, Value.ofOption .tuple params]
  | .fetch c => [.text c.name]
  | .closeCursor c => [.text c.name]
  | .close c => [.text c.name]
  | .sleep seconds => [seconds]

/-- Whether a request is about a cursor alone. -/
def isCursor : Request → Bool
  | .openCursor _ => true
  | .fetch _ => true
  | .closeCursor _ => true
  | _ => false

end Request

/-- A column of a result. -/
structure Column where
  name : String
  /-- The number of the column's type. -/
  typeCode : Int := 253
  length : Int := 0
  deriving DecidableEq

/-- What is known after a request succeeded. -/
structure Answer where
  rowCount : Int := 0
  lastId : Option Int := some 0
  /-- The columns of the result, if the statement has one. -/
  columns : Option (List Column) := some []
  rows : List (List Value) := []

/-- A connection to the outside. -/
structure Wire (δ : Type) where
  send : Request → Act δ Answer

/-- What is known about a connection. -/
structure Handle where
  connection : Connection
  closed : Bool := false
  inTransaction : Bool := false
  /-- What the clock showed when it was last given back. -/
  lastUsed : Value

/-- A pool of connections: what it tells about itself. Whom it gives which connection is up to the
driver. -/
structure Pool where
  /-- The most connections that may be open. -/
  maxSize : Value
  /-- The idle connections; the first one is handed out next. -/
  free : List Connection := []
  /-- The connections handed out. -/
  used : List Connection := []
  /-- The number of connections being opened. -/
  busy : Int := 0

namespace Pool

/-- The number of connections. -/
def size (p : Pool) : Int := p.free.length + p.used.length + p.busy

/-- Whether every connection that may be open is in use. -/
def isExhausted (p : Pool) : Except Error Bool :=
  if p.free.isEmpty then (Value.int p.size).isAtLeast p.maxSize else .ok false

end Pool

/-- The background task that sweeps idle connections. A failure ends it, and stays with it until
somebody waits for the task. -/
inductive Sweeper where
  | absent
  | running
  | failed (e : Error)

/-- The state of everything. -/
structure World (δ : Type) where
  outside : δ
  log : Log := {}
  /-- The seconds that the clock shows. -/
  clock : Value := .int 0
  /-- The number of connections opened so far. -/
  opened : Nat := 0
  handles : List Handle := []
  pool : Option Pool := none
  /-- The task that sweeps idle connections. -/
  sweeper : Sweeper := .absent
  /-- The number of callers that wait for a connection. -/
  waiting : Int := 0
  /-- The registered repositories by table. -/
  repositories : List (Value × Repository) := []

namespace World

variable {δ : Type}

/-- What is known of a world besides its connections: whether there is a pool, the background task,
and the number of callers that wait. -/
def standing (world : World δ) : Bool × Sweeper × Int := (world.pool.isSome, world.sweeper, world.waiting)

/-- Send a request. -/
def send (w : Wire δ) (r : Request) : Act (World δ) Answer :=
  Act.ofFunction fun s =>
    let (outcome, outside) := (w.send r).runOn s.outside
    (outcome, { s with outside := outside })

/-- Let a number of seconds pass. -/
def sleep (w : Wire δ) (seconds : Value) : Act (World δ) Unit := do
  let _ ← send w (.sleep seconds)

/-- Add a log record. -/
def report (level : Level) (text : String) : Act (World δ) Unit :=
  Act.update fun s => { s with log := s.log.add level text }

/-- Enter a new connection. -/
def enter : Act (World δ) Connection := do
  let s ← get
  let c : Connection := ⟨"c" ++ toString (s.opened + 1)⟩
  let handle : Handle := { connection := c, lastUsed := s.clock }
  set { s with opened := s.opened + 1, handles := s.handles ++ [handle] }
  return c

/-- What is known about a connection. -/
def handle? (s : World δ) (c : Connection) : Option Handle :=
  s.handles.find? fun h => h.connection = c

/-- Whether a connection was closed. -/
def isClosed (s : World δ) (c : Connection) : Bool :=
  match s.handle? c with
  | some h => h.closed
  | none => false

/-- Whether a transaction is open on a connection. -/
def inTransaction (s : World δ) (c : Connection) : Bool :=
  match s.handle? c with
  | some h => h.inTransaction
  | none => false

/-- Change what is known about a connection. -/
def note (c : Connection) (change : Handle → Handle) : Act (World δ) Unit :=
  Act.update fun s =>
    { s with handles := s.handles.map fun h => if h.connection = c then change h else h }

/-- Close a connection. -/
def close (w : Wire δ) (c : Connection) : Act (World δ) Unit := do
  let _ ← send w (.close c)
  note c fun h => { h with closed := true }

/-- Do work over an open cursor, and close the cursor in any case. -/
def overCursor {α : Type} (w : Wire δ) (c : Connection) (work : Act (World δ) α) :
    Act (World δ) α := do
  let outcome ← Act.attempt work
  let _ ← send w (.closeCursor c)
  Act.ofExcept outcome

end World

/-! ## A record of what goes over a wire -/

/-- A request over a wire, and how it ended. -/
structure Exchange where
  request : Request
  outcome : Except Error Answer

/-- A wire that records what goes over it. -/
def Wire.recorded {δ : Type} (w : Wire δ) : Wire (δ × List Exchange) :=
  ⟨fun r => Act.ofFunction fun s =>
    let (outcome, outside) := (w.send r).runOn s.1
    (outcome, outside, s.2 ++ [⟨r, outcome⟩])⟩

/-- A world with a record of exchanges. -/
def World.recording {δ : Type} (s : World δ) (exchanges : List Exchange) : World (δ × List Exchange) :=
  { s with outside := (s.outside, exchanges) }

end Quarry
