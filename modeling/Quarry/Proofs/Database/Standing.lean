import Quarry.Proofs.Database.Reporting

/-!
# What stays as it is

Most of what is done with a MySQL server is about single connections: it asks for something over the
wire, changes what is known about a connection, moves connections in the pool, and adds to the log.
What else there is stays as it was (`World.standing`): whether there is a pool, the background task,
and the number of callers that wait.

`Act.Keeps` says of an act that it leaves something about the state as it was, however it ends.
There is one rule for each way to make an act of others.
-/

set_option autoImplicit false

namespace Quarry

variable {α β γ δ κ σ : Type}

/-! ## Acts that keep something -/

/-- An act that leaves something about the state as it was, however it ends. -/
def Act.Keeps (f : σ → γ) (a : Act σ α) : Prop := ∀ s, f (a.runOn s).2 = f s

namespace Act.Keeps

variable {f : σ → γ}

/-- A given outcome. -/
theorem ofExcept (outcome : Except Error α) : Keeps f (Act.ofExcept outcome) := fun _ => rfl

/-- A given result. -/
theorem pure (x : α) : Keeps f (Pure.pure x : Act σ α) := fun _ => rfl

/-- A given error. -/
theorem raise (e : Error) : Keeps f (throw e : Act σ α) := fun _ => rfl

/-- A look at something. -/
theorem read (g : σ → α) : Keeps f (Act.read g) := fun _ => rfl

/-- A look at everything. -/
theorem look : Keeps f (get : Act σ σ) := fun _ => rfl

/-- A change of other things. -/
theorem update {g : σ → σ} (hg : ∀ s, f (g s) = f s) : Keeps f (Act.update g) := hg

/-- Of an act and what follows it, the act alone tells what becomes of that which all that follows
keeps. -/
theorem after {a : Act σ α} {g : α → Act σ β} (hg : ∀ x, Keeps f (g x)) (s : σ) :
    f ((a >>= g).runOn s).2 = f (a.runOn s).2 := by
  cases hrun : a.runOn s with
  | mk r between =>
    cases r with
    | error e => rw [Act.runOn_bind_error hrun]
    | ok x =>
      rw [Act.runOn_bind_ok hrun]
      exact hg x between

/-- Acts that keep something, one after the other. -/
theorem bind {a : Act σ α} {g : α → Act σ β} (ha : Keeps f a) (hg : ∀ x, Keeps f (g x)) : Keeps f (a >>= g) :=
  fun s => (after hg s).trans (ha s)

/-- An attempt of an act that keeps something. -/
theorem attempt {a : Act σ α} (ha : Keeps f a) : Keeps f (Act.attempt a) := ha

/-- Other words for the faults of an act that keeps something. -/
theorem wrapping {a : Act σ α} (wrap : Fault → Option Error) (ha : Keeps f a) :
    Keeps f (wrapping wrap a) := by
  refine ha.attempt.bind fun outcome => ?_
  cases outcome with
  | ok x => exact pure x
  | error e => cases e <;> exact raise _

/-- Who keeps something keeps what it is made of. -/
theorem part {a : Act σ α} (ha : Keeps f a) (g : γ → κ) : Keeps (fun s => g (f s)) a :=
  fun s => congrArg g (ha s)

end Act.Keeps

/-! ## Worlds -/

namespace World

open Act.Keeps (ofExcept)

/-- A request changes the outside alone. -/
theorem keeps_send (w : Wire δ) (r : Request) : (send w r).Keeps standing := fun _ => rfl

/-- What is known about a connection does not matter. -/
theorem keeps_note (c : Connection) (change : Handle → Handle) : (note (δ := δ) c change).Keeps standing :=
  fun _ => rfl

/-- Neither does the log. -/
theorem keeps_report (level : Level) (text : String) :
    (report (δ := δ) level text).Keeps standing := fun _ => rfl

/-- Closing a connection is about that connection. -/
theorem keeps_close (w : Wire δ) (c : Connection) : (close w c).Keeps standing :=
  (keeps_send w _).bind fun _ => keeps_note c _

/-- Work over a cursor keeps what the work keeps. -/
theorem keeps_overCursor {a : Act (World δ) α} (w : Wire δ) (c : Connection) (ha : a.Keeps standing) :
    (overCursor w c a).Keeps standing :=
  ha.attempt.bind fun outcome => (keeps_send w _).bind fun _ => ofExcept outcome

end World

namespace Mysql

open Act.Keeps (ofExcept pure raise read look update)
open World (keeps_send keeps_note keeps_report keeps_close standing)

/-! ## Connections -/

/-- Putting a connection back is about connections. -/
theorem keeps_putBack [Pooling] (c : Connection) : (Act.update (Pooling.putBack (δ := δ) c)).Keeps standing :=
  update (Pooling.standing_putBack c)

/-- Giving a connection back. -/
theorem keeps_release [Pooling] (w : Wire δ) (c : Connection) : (release w c).Keeps standing := by
  refine (read World.pool).bind fun p => ?_
  cases p with
  | none => exact pure ()
  | some p => exact (keeps_send w _).bind fun _ => keeps_putBack c

/-- Closing a connection and giving it back. -/
theorem keeps_destroy [Pooling] (w : Wire δ) (c : Connection) : (destroy w c).Keeps standing :=
  (keeps_close w c).bind fun _ => keeps_release w c

/-- Asking whether a connection answers. -/
theorem keeps_ping (w : Wire δ) (c : Connection) : (ping w c).Keeps standing := by
  refine (keeps_send w _).attempt.bind fun outcome => ?_
  cases outcome with
  | ok a => exact pure true
  | error e =>
    cases e with
    | fault f =>
      dsimp only
      split_ifs
      · exact (keeps_report _ _).bind fun _ => pure false
      · exact raise _
    | _ => exact raise _

/-- Taking a connection from the pool. -/
theorem keeps_take [Pooling] (w : Wire δ) : (take w).Keeps standing :=
  (keeps_send w _).bind fun _ => Pooling.standing_handOut

/-- Taking a connection within the time that is allowed. -/
theorem keeps_takeInTime [Pooling] (w : Wire δ) (s : Settings) : (takeInTime w s).Keeps standing := by
  have hbounded (seconds : Value) : Act.Keeps (standing (δ := δ)) (do
      if ← Act.ofExcept (seconds.isAtMost (.int 0)) then throw timeout
      else
        Act.ofExcept (checkSpan seconds)
        take w) := by
    refine (ofExcept _).bind fun overdue => ?_
    cases overdue with
    | true => exact raise _
    | false => exact (ofExcept _).bind fun _ => keeps_take w
  unfold takeInTime
  cases s.acquireTimeout with
  | null => exact keeps_take w
  | _ => exact hbounded _

/-! ## Statements -/

/-- Operations on a connection, transactions and statements alike. -/
theorem keeps_perform [Pooling] (w : Wire δ) (s : Settings) (c : Connection) (op : Operation) :
    ((database w s).perform c op).Keeps standing := by
  have hcommand (sql : String) (r : Request) : (command w sql r).Keeps standing :=
    ((keeps_send w r).wrapping _).bind fun _ => pure ()
  have hstatement (sql : String) (params : Value) (fetches : Bool) :
      (statement w c sql params fetches).Keeps standing := by
    refine (ofExcept _).bind fun values => Act.Keeps.wrapping _ ((keeps_send w _).bind fun a => ?_)
    cases fetches with
    | true => exact (keeps_send w _).bind fun _ => pure a
    | false => exact pure a
  have hcursor {γ : Type} {work : Act (World δ) γ} (hwork : work.Keeps standing) :
      (withCursor w c work).Keeps standing :=
    (keeps_send w _).bind fun _ => World.keeps_overCursor w c hwork
  cases op with
  | begin => exact (hcommand _ _).bind fun _ => pure []
  | commit => exact (hcommand _ _).bind fun _ => pure []
  | rollback => exact (hcommand _ _).bind fun _ => pure []
  | execute sql params =>
    exact (hcursor ((hstatement sql params false).bind fun _ => pure _)).bind fun _ => pure []
  | fetchAll sql params => exact hcursor ((hstatement sql params true).bind fun _ => ofExcept _)

/-! ## Sweeps -/

/-- Removing a free connection. -/
theorem keeps_removeFree (c : Connection) : (removeFree (δ := δ) c).Keeps standing :=
  update fun _ => by simp [standing]

/-- Sweeping some connections, one after the other. -/
theorem keeps_sweepEach (w : Wire δ) (s : Settings) (now : Value) (cs : List Connection) :
    (sweepEach w s now cs).Keeps standing := by
  induction cs with
  | nil => exact pure 0
  | cons c rest ih =>
    refine look.bind fun world => (ofExcept _).bind fun sweepable => ?_
    cases sweepable with
    | false => exact ih
    | true =>
      exact (keeps_removeFree c).bind fun _ => (keeps_close w c).bind fun _ => ih.bind fun n => pure (n + 1)

/-- A sweep. -/
theorem keeps_sweep (w : Wire δ) (s : Settings) (now : Option Value) : (sweep w s now).Keeps standing := by
  refine look.bind fun world => ?_
  cases hpool : world.pool with
  | none => simpa [hpool] using pure (f := standing) (σ := World δ) 0
  | some p =>
    refine (keeps_sweepEach w s _ _).bind fun n => ?_
    by_cases hn : n = 0
    · simpa [hn] using pure (f := standing) (σ := World δ) 0
    · simpa [hn] using (keeps_report (δ := δ) _ _).bind fun _ => pure n

end Mysql

end Quarry
