import Mathlib.Logic.Relation
import Quarry.Proofs.Database.Standing
import Quarry.Proofs.Number.Equal

/-!
# Callers that wait

Who finds no connection free in the pool of a MySQL server waits for one. The callers that wait are
counted, and the settings may limit how many wait for a full pool. Many calls are under way at a
time, and anything may happen between the steps of one: other calls begin and end, connections are
given back, swept and used, the pool grows and shrinks. Only two parts of a call are done in one go:
joining the queue, where the limit is looked at and the counter is raised, and leaving it, where the
counter is lowered again, however the wait has ended (`joinQueue`, `leaveQueue`).

`Queue.Step` is what can happen next to a database and the calls under way. The counter is the
number of these calls after every sequence of steps, since nothing but the two parts of a call
touches it. That at most as many of them as the limit allows have found the pool full follows from
the same: whoever finds it full is let in only while fewer wait, and the others do not add to those
who found it full.
-/

set_option autoImplicit false

namespace Quarry.Mysql

variable {α δ : Type} {w : Wire δ} {s : Settings}

/-! ## The parts of a call -/

/-- Where there is a pool, a call for it gives it at once. -/
theorem runOn_ensurePool {world : World δ} {p : Pool} (hpool : world.pool = some p) :
    (ensurePool w s).runOn world = (.ok p, world) := by
  have hread : (Act.read World.pool).runOn world = (.ok (some p), world) := by
    rw [Act.runOn_read, hpool]
  exact Act.runOn_bind_ok hread

/-- Where there is a pool, the limit decides who joins the queue, and only who joins it is
counted. -/
theorem runOn_joinQueue {world : World δ} {p : Pool} (hpool : world.pool = some p) :
    (joinQueue w s).runOn world = match checkQueue s p world.waiting with
      | .ok _ => (.ok (), { world with waiting := world.waiting + 1 })
      | .error e => (.error e, world) := by
  have hwaiting : (Act.read World.waiting).runOn world = (.ok world.waiting, world) := rfl
  unfold joinQueue
  rw [Act.runOn_bind_ok (runOn_ensurePool hpool), Act.runOn_bind_ok hwaiting]
  cases checkQueue s p world.waiting with
  | ok _ => rfl
  | error e => rfl

/-- Whatever the wait has come to, the counter is lowered and nothing else is changed. -/
theorem runOn_leaveQueue (outcome : Except Error Connection) (world : World δ) :
    ((leaveQueue s outcome).runOn world).2 = { world with waiting := world.waiting - 1 } := by
  cases outcome <;> rfl

/-! ## What leaves the counter alone -/

/-- An act that does not touch the number of callers that wait. -/
def KeepsWaiting (a : Act (World δ) α) : Prop :=
  ∀ world, (a.runOn world).2.waiting = world.waiting

open Act.Keeps (pure raise read update)

/-- What leaves all but connections as it was leaves the counter. -/
theorem KeepsWaiting.of_keeps {a : Act (World δ) α} (h : a.Keeps World.standing) : KeepsWaiting a :=
  h.part fun standing => standing.2.2

/-- A background sweep leaves the counter. -/
theorem keepsWaiting_backgroundSweep (w : Wire δ) (s : Settings) :
    KeepsWaiting (backgroundSweep w s) := by
  refine (read World.sweeper).bind (f := World.waiting) fun sweeper => ?_
  cases sweeper with
  | running =>
    have hsweep : Act.Keeps World.waiting (sweep w s none) := KeepsWaiting.of_keeps (keeps_sweep w s none)
    refine hsweep.attempt.bind fun outcome => ?_
    cases outcome with
    | ok n => exact pure ()
    | error e => exact update fun _ => rfl
  | _ => exact pure ()

/-- A shutdown leaves the counter. -/
theorem keepsWaiting_shutdown (w : Wire δ) : KeepsWaiting (shutdown w) := by
  have send (r : Request) : Act.Keeps World.waiting (World.send w r) := fun _ => rfl
  have hstop : Act.Keeps World.waiting (stopSweeper w) := by
    refine (read World.sweeper).bind fun sweeper => ?_
    cases sweeper with
    | absent => exact pure ()
    | running => exact (send _).bind fun _ => update fun _ => rfl
    | failed e =>
      refine (send _).bind fun _ => ?_
      cases e.isOrdinary with
      | true => exact raise e
      | false => exact update fun _ => rfl
  refine hstop.bind fun _ => (read World.pool).bind fun p => ?_
  cases p with
  | none => exact pure ()
  | some p => exact (send _).bind fun _ => (send _).bind fun _ => update fun _ => rfl

/-! ## What can happen next -/

/-- What is done with a database besides getting connections. -/
inductive Chore where
  | release (c : Connection)
  | destroy (c : Connection)
  | ping (c : Connection)
  | perform (c : Connection) (op : Operation)
  | sweep (now : Option Value)
  | backgroundSweep
  | shutdown

/-- The act that is done. -/
def Chore.act [Pooling] (w : Wire δ) (s : Settings) : Chore → Act (World δ) Unit
  | .release c => Mysql.release w c
  | .destroy c => Mysql.destroy w c
  | .ping c => do let _ ← Mysql.ping w c
  | .perform c op => do let _ ← (database w s).perform c op
  | .sweep now => do let _ ← Mysql.sweep w s now
  | .backgroundSweep => Mysql.backgroundSweep w s
  | .shutdown => Mysql.shutdown w

/-- Whatever else is done leaves the counter. -/
theorem Chore.keepsWaiting [Pooling] (chore : Chore) : KeepsWaiting (chore.act w s) := by
  cases chore with
  | release c => exact .of_keeps (keeps_release w c)
  | destroy c => exact .of_keeps (keeps_destroy w c)
  | ping c => exact .of_keeps ((keeps_ping w c).bind fun _ => pure ())
  | perform c op => exact .of_keeps ((keeps_perform w s c op).bind fun _ => pure ())
  | sweep now => exact .of_keeps ((keeps_sweep w s now).bind fun _ => pure ())
  | backgroundSweep => exact keepsWaiting_backgroundSweep w s
  | shutdown => exact keepsWaiting_shutdown w

/-- A call that waits, with the pool as it has found it. -/
structure Caller where
  found : Pool

/-- Whether the pool was full when the call began: no connection was free, and there were as many as
there may be. -/
def Caller.foundFull (c : Caller) : Bool :=
  c.found.free.isEmpty && c.found.maxSize.numeric?.any fun most =>
    ((Number.Exact.ofInt c.found.size).compare? most).any (· != .lt)

/-- A database and the calls for its connections that are under way, the latest one first. -/
structure Queue (δ : Type) where
  world : World δ
  callers : List Caller

/-- What can happen next. -/
inductive Queue.Step [Pooling] (w : Wire δ) (s : Settings) : Queue δ → Queue δ → Prop where
  /-- A call begins, and waits from now on. -/
  | joined {q : Queue δ} {p : Pool} {world : World δ} (hpool : q.world.pool = some p)
      (hrun : (joinQueue w s).runOn q.world = (.ok (), world)) :
      Step w s q ⟨world, ⟨p⟩ :: q.callers⟩
  /-- A call begins, and is turned away. -/
  | refused {q : Queue δ} {p : Pool} {world : World δ} {e : Error} (hpool : q.world.pool = some p)
      (hrun : (joinQueue w s).runOn q.world = (.error e, world)) : Step w s q ⟨world, q.callers⟩
  /-- The wait of a call ends: with a connection, because its time is over, with an error of the
  driver or because it is cancelled. -/
  | left {q : Queue δ} {before after : List Caller} {c : Caller}
      (hcallers : q.callers = before ++ c :: after) (outcome : Except Error Connection) :
      Step w s q ⟨((leaveQueue s outcome).runOn q.world).2, before ++ after⟩
  /-- Something else is done with the database. -/
  | did {q : Queue δ} (chore : Chore) :
      Step w s q ⟨((chore.act w s).runOn q.world).2, q.callers⟩
  /-- The pool or anything else changes, but not the counter. -/
  | changed {q : Queue δ} {world : World δ} (hwaiting : world.waiting = q.world.waiting) :
      Step w s q ⟨world, q.callers⟩

/-- The counter is the number of the calls under way, and of these at most as many as the limit
allows have found the pool full. -/
structure Queue.Accounted (s : Settings) (q : Queue δ) : Prop where
  counted : q.world.waiting = q.callers.length
  bounded : ∀ limit : Nat, 0 < limit → s.queueLimit = .int limit →
    q.callers.countP Caller.foundFull ≤ limit

/-- An integer is at least another if it is so as integers are. -/
theorem isAtLeast_int (m n : Int) : (Value.int m).isAtLeast (.int n) = .ok (decide (n ≤ m)) := by
  have hatLeast : (compare m n != .lt) = decide (n ≤ m) := by
    rw [Bool.eq_iff_iff, bne_iff_ne, ne_eq, compare_lt_iff_lt, decide_eq_true_eq]
    exact not_lt
  simp [Value.isAtLeast, Value.ordered, Value.numeric?, Number.Exact.compare?_ofInt, hatLeast]

/-- A pool was found full if the code finds that its connections are exhausted. -/
theorem foundFull_iff {c : Caller} : c.foundFull = true ↔ c.found.isExhausted = .ok true := by
  unfold Caller.foundFull Pool.isExhausted Value.isAtLeast Value.ordered
  cases hfree : c.found.free.isEmpty with
  | false => simp
  | true =>
    cases hmost : c.found.maxSize.numeric? with
    | none => simp [Value.numeric?, misfit]
    | some most =>
      cases horder : (Number.Exact.ofInt c.found.size).compare? most with
      | some o => simp [Value.numeric?, horder]
      | none =>
        by_cases hdecimal : ((Value.int c.found.size).isDecimal || c.found.maxSize.isDecimal) = true <;>
          simp [Value.numeric?, horder, hdecimal, misfit]

/-- Where the most connections are an integer, a pool is full if none is free and there are as
many. -/
theorem foundFull_iff_of_int {c : Caller} {most : Int} (hmost : c.found.maxSize = .int most) :
    c.foundFull = true ↔ c.found.free = [] ∧ most ≤ c.found.size := by
  rw [foundFull_iff, Pool.isExhausted, hmost, isAtLeast_int]
  cases c.found.free <;> simp

/-- Who joins the queue of a full pool finds fewer callers than the limit allows. -/
theorem lt_of_checkQueue {p : Pool} {waiting limit : Nat} (hlimit : 0 < limit)
    (hsettings : s.queueLimit = .int limit) (hfull : (Caller.mk p).foundFull = true)
    (h : checkQueue s p waiting = .ok ()) : waiting < limit := by
  have hexhausted : p.isExhausted = .ok true := foundFull_iff.mp hfull
  have hlimited : isQueueFull s waiting = .ok (decide (limit ≤ waiting)) := by
    have htrue : s.queueLimit.isTrue = true := by
      rw [hsettings, Value.isTrue]
      simpa using hlimit.ne'
    rw [isQueueFull, if_pos htrue, hsettings, isAtLeast_int]
    simp
  by_contra hmany
  -- The pool is full and so is the queue: whether one may wait or not, the call is turned away.
  simp [checkQueue, hexhausted, hlimited, Nat.not_lt.mp hmany, bind, Except.bind] at h
  split_ifs at h

namespace Queue.Accounted

variable {q q' : Queue δ}

/-- The counter and the callers stay accounted for whatever happens next. -/
theorem step [Pooling] (h : q.Accounted s) (hstep : Queue.Step w s q q') : q'.Accounted s := by
  cases hstep with
  | @joined p world hpool hrun =>
    rw [runOn_joinQueue hpool, h.counted] at hrun
    cases hcheck : checkQueue s p q.callers.length with
    | error e => simp [hcheck] at hrun
    | ok _ =>
      obtain rfl : { q.world with waiting := q.callers.length + 1 } = world := by
        simpa [hcheck] using hrun
      refine ⟨by simp, fun limit hlimit hsettings => ?_⟩
      have hbefore := h.bounded limit hlimit hsettings
      have hamong := List.countP_le_length (p := Caller.foundFull) (l := q.callers)
      rw [List.countP_cons]
      split_ifs with hfull
      · have hroom := lt_of_checkQueue hlimit hsettings hfull hcheck
        omega
      · exact hbefore
  | @refused p world e hpool hrun =>
    rw [runOn_joinQueue hpool] at hrun
    cases hcheck : checkQueue s p q.world.waiting with
    | ok _ => simp [hcheck] at hrun
    | error _ =>
      obtain rfl : q.world = world := by
        simpa [hcheck] using congrArg Prod.snd hrun
      exact h
  | @left before after c hcallers outcome =>
    have hlength := h.counted
    rw [hcallers] at hlength
    refine ⟨?_, fun limit hlimit hsettings => ?_⟩
    · rw [runOn_leaveQueue]
      simp only [List.length_append, List.length_cons] at hlength ⊢
      push_cast at hlength ⊢
      omega
    · have hbefore := h.bounded limit hlimit hsettings
      rw [hcallers] at hbefore
      simp only [List.countP_append, List.countP_cons] at hbefore ⊢
      omega
  | did chore => exact ⟨(chore.keepsWaiting q.world).trans h.counted, h.bounded⟩
  | changed hwaiting => exact ⟨hwaiting.trans h.counted, h.bounded⟩

end Queue.Accounted

/-- A call that nothing comes in between is one of the courses that calls can take. -/
theorem steps_acquire [Pooling] {world : World δ} {p : Pool} (hpool : world.pool = some p)
    (callers : List Caller) :
    Relation.ReflTransGen (Queue.Step w s) ⟨world, callers⟩
      ⟨((acquire w s).runOn world).2, callers⟩ := by
  unfold acquire
  cases hjoin : (joinQueue w s).runOn world with
  | mk r between =>
    cases r with
    | error e =>
      rw [Act.runOn_bind_error hjoin]
      exact .single (.refused hpool hjoin)
    | ok _ =>
      rw [Act.runOn_bind_ok hjoin, Act.runOn_bind_ok (Act.runOn_attempt _ _)]
      have hwaits : Queue.Step w s ⟨between, ⟨p⟩ :: callers⟩
          ⟨((takeInTime w s).runOn between).2, ⟨p⟩ :: callers⟩ :=
        .changed (KeepsWaiting.of_keeps (keeps_takeInTime w s) between)
      have hleaves (world : World δ) (outcome : Except Error Connection) :
          Queue.Step w s ⟨world, [] ++ ⟨p⟩ :: callers⟩
            ⟨((leaveQueue s outcome).runOn world).2, [] ++ callers⟩ := .left rfl outcome
      exact ((Relation.ReflTransGen.single (.joined hpool hjoin)).tail hwaits).tail (hleaves _ _)

/-- From a database for which nobody waits on, whatever calls begin and end and whatever else
happens: the counter is the number of the calls that wait, and if the settings limit them, at most
as many of these calls as the limit allows began while the pool was full. -/
theorem waiting_accounted [Pooling] {world : World δ} (hidle : world.waiting = 0) {q : Queue δ}
    (hsteps : Relation.ReflTransGen (Queue.Step w s) ⟨world, []⟩ q) : q.Accounted s := by
  induction hsteps with
  | refl => exact ⟨by simpa using hidle, by simp⟩
  | tail _ hstep ih => exact ih.step hstep

/-- A full pool and a limit of one: the first call waits, the second is turned away, and a third
one, which waits besides the first, begins after a connection was given back. -/
theorem waiting_accounted_full_pool :
    let s : Settings := { queueLimit := .int 1 }
    let w : Wire Unit := ⟨fun _ => return {}⟩
    let full : Pool := { maxSize := .int 1, used := [⟨"c1"⟩] }
    let roomy : Pool := { maxSize := .int 1, free := [⟨"c1"⟩] }
    let before : World Unit := { outside := (), pool := some full }
    let after : World Unit := { outside := (), pool := some roomy, waiting := 2 }
    before.waiting = 0 ∧
      Relation.ReflTransGen (Queue.Step w s) ⟨before, []⟩ ⟨after, [⟨roomy⟩, ⟨full⟩]⟩ ∧
      Queue.Accounted s ⟨after, [⟨roomy⟩, ⟨full⟩]⟩ := by
  intro s w full roomy before after
  have hfirst : Queue.Step w s ⟨before, []⟩ ⟨{ before with waiting := 1 }, [⟨full⟩]⟩ :=
    .joined rfl rfl
  have hsecond : Queue.Step w s ⟨{ before with waiting := 1 }, [⟨full⟩]⟩
      ⟨{ before with waiting := 1 }, [⟨full⟩]⟩ := .refused rfl rfl
  have hback : Queue.Step w s ⟨{ before with waiting := 1 }, [⟨full⟩]⟩
      ⟨{ after with waiting := 1 }, [⟨full⟩]⟩ := .changed rfl
  have hthird : Queue.Step w s ⟨{ after with waiting := 1 }, [⟨full⟩]⟩
      ⟨after, [⟨roomy⟩, ⟨full⟩]⟩ := .joined rfl rfl
  have hsteps := (((Relation.ReflTransGen.single hfirst).tail hsecond).tail hback).tail hthird
  exact ⟨rfl, hsteps, waiting_accounted rfl hsteps⟩

end Quarry.Mysql
