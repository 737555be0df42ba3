import Quarry.Proofs.Database.Waiting

/-!
# Shutting down

The background task of a MySQL server sweeps idle connections while the database is used. A sweep
may fail, and then the task is over and keeps its error until somebody waits for it. That is the
shutdown, and it does so before it closes the pool. So a shutdown ends well as long as no background
sweep before it has failed with an ordinary error. After one has, a shutdown leaves the pool and the
task as they are (`shutdown_cases`), and so does every shutdown that follows.

A history is a list of `Errand`s. What each of them makes of the pool and the background task
(`World.upkeep`) is said by one lemma, and what a history makes of them follows by induction.
-/

set_option autoImplicit false

namespace Quarry

variable {α δ : Type}

/-- Whether a background task ended with an error that comes to light when it is waited for. A
cancellation does not. -/
def Sweeper.hasFailed : Sweeper → Bool
  | .failed e => e.isOrdinary
  | _ => false

/-- Whether stopping the background task and closing the pool never fail over a wire. -/
def Wire.GrantsShutdown (w : Wire δ) : Prop :=
  ∀ r ∈ [Request.stopSweeper, .closePool, .awaitPool], ∀ d, ∃ a, ((w.send r).runOn d).1 = .ok a

/-- A request of a shutdown is granted and recorded. -/
theorem Wire.GrantsShutdown.exists_runOn_send {w : Wire δ} {r : Request} (h : w.GrantsShutdown)
    (hr : r ∈ [Request.stopSweeper, .closePool, .awaitPool]) (world : World (δ × List Exchange)) :
    ∃ a outside, (World.send w.recorded r).runOn world =
      (.ok a, { world with outside := (outside, world.outside.2 ++ [⟨r, .ok a⟩]) }) := by
  obtain ⟨a, ha⟩ := h r hr world.outside.1
  refine ⟨a, ((w.send r).runOn world.outside.1).2, ?_⟩
  simp [World.send, Wire.recorded, ha]

namespace World

/-- Whether there is a pool, and the background task. -/
def upkeep (world : World δ) : Bool × Sweeper := (world.pool.isSome, world.sweeper)

/-- There is no background task without a pool. -/
def Tended (world : World δ) : Prop := world.pool = none → world.sweeper = .absent

/-- The parts of the upkeep. -/
theorem upkeep_eq {world world' : World δ} (h : world'.upkeep = world.upkeep) :
    world'.pool.isSome = world.pool.isSome ∧ world'.sweeper = world.sweeper := Prod.mk.inj h

/-- A database with the same upkeep is tended as well. -/
theorem Tended.of_upkeep {world world' : World δ} (h : world.Tended) (hsame : world'.upkeep = world.upkeep) :
    world'.Tended := by
  obtain ⟨hpool, hsweeper⟩ := upkeep_eq hsame
  intro hnone
  rw [hsweeper]
  refine h (Option.isNone_iff_eq_none.mp ?_)
  simpa [hnone] using hpool

/-- Where there is a background task there is a pool. -/
theorem Tended.pool_isSome {world : World δ} (h : world.Tended) (hsweeper : world.sweeper ≠ .absent) :
    world.pool.isSome = true :=
  Option.isSome_iff_ne_none.mpr fun hnone => hsweeper (h hnone)

/-- Without a background task a database is tended. -/
theorem tended_of_absent {world : World δ} (h : world.sweeper = .absent) : world.Tended := fun _ => h

/-- A request changes nothing but the outside. -/
theorem exists_runOn_send (w : Wire δ) (r : Request) (world : World δ) :
    ∃ outcome outside, (send w r).runOn world = (outcome, { world with outside := outside }) := ⟨_, _, rfl⟩

end World

namespace Mysql

open Act.Keeps (ofExcept pure raise read update)
open World (upkeep Tended)

variable {w : Wire δ} {s : Settings} {world : World δ}

/-- What leaves all but connections as it was leaves the pool and the background task as they
were. -/
theorem keeps_upkeep {a : Act (World δ) α} (h : a.Keeps World.standing) : a.Keeps upkeep :=
  h.part fun standing => (standing.1, standing.2.1)

/-! ## What becomes of the pool and the background task -/

/-- Starting the background task, which comes after the pool was set up. -/
theorem startSweeper_cases (w : Wire δ) (s : Settings) (world : World δ) :
    ((startSweeper w s).runOn world).2.upkeep = world.upkeep ∨
      ((startSweeper w s).runOn world).2.upkeep = (world.pool.isSome, .running) := by
  unfold startSweeper
  cases hpositive : s.sweepInterval.isAbove (.int 0) with
  | error e => exact .inl rfl
  | ok positive =>
    have hcheck :
        (Act.ofExcept (.ok positive) : Act (World δ) Bool).runOn world = (.ok positive, world) := rfl
    rw [Act.runOn_bind_ok hcheck]
    cases positive with
    | false => exact .inl rfl
    | true =>
      obtain ⟨outcome, outside, hsend⟩ := World.exists_runOn_send w .startSweeper world
      rw [if_pos rfl]
      cases outcome with
      | error e =>
        rw [Act.runOn_bind_error hsend]
        exact .inl rfl
      | ok a =>
        rw [Act.runOn_bind_ok hsend]
        exact .inr rfl

/-- Asking for a pool does not set it up yet. -/
theorem keeps_requestPool (w : Wire δ) (s : Settings) : (requestPool w s).Keeps upkeep :=
  (ofExcept _).bind fun _ => (keeps_upkeep (World.keeps_send w _)).attempt

/-- A call for the pool sets it up at most if there is none, and then it may start the background
task. -/
theorem ensurePool_cases {r : Except Error Pool} {after : World δ}
    (hrun : (ensurePool w s).runOn world = (r, after)) :
    after.upkeep = world.upkeep ∨
      world.pool = none ∧ (after.upkeep = (true, world.sweeper) ∨ after.upkeep = (true, .running)) := by
  cases hpool : world.pool with
  | some p =>
    rw [runOn_ensurePool hpool] at hrun
    obtain ⟨-, rfl⟩ := Prod.mk.inj hrun
    exact .inl rfl
  | none =>
    have hlook : (Act.read World.pool).runOn world = (.ok none, world) := by rw [Act.runOn_read, hpool]
    have hcall : (requestPool w s >>= installPool w s).runOn world = (r, after) := by
      unfold ensurePool setUpPool at hrun
      rw [Act.runOn_bind_ok hlook] at hrun
      exact (Act.runOn_bind_ok hlook).symm.trans hrun
    have hsame := keeps_requestPool w s world
    cases hask : (requestPool w s).runOn world with
    | mk asked between =>
      rw [hask] at hsame
      cases asked with
      | error e =>
        rw [Act.runOn_bind_error hask] at hcall
        obtain ⟨-, rfl⟩ := Prod.mk.inj hcall
        exact .inl hsame
      | ok outcome =>
        rw [Act.runOn_bind_ok hask] at hcall
        cases outcome with
        | error e =>
          obtain ⟨-, rfl⟩ := Prod.mk.inj hcall
          exact .inl hsame
        | ok a =>
          -- With the pool set up and its creation logged, what is left is to start the background task.
          have hrest :
              (do startSweeper w s; return ({ maxSize := s.connectionLimit } : Pool) : Act _ Pool).runOn
              { between with
                pool := some { maxSize := s.connectionLimit }, log := between.log.add .debug _ } =
                  (r, after) :=
            hcall
          rw [Act.runOn_bind_pure] at hrest
          obtain ⟨-, rfl⟩ := Prod.mk.inj hrest
          rw [← (World.upkeep_eq hsame).2]
          exact .inr ⟨rfl, startSweeper_cases w s _⟩

/-- Getting a connection changes no more than the call for the pool does. -/
theorem acquire_cases [Pooling] (w : Wire δ) (s : Settings) (world : World δ) :
    ((acquire w s).runOn world).2.upkeep = world.upkeep ∨
      world.pool = none ∧ (((acquire w s).runOn world).2.upkeep = (true, world.sweeper) ∨
        ((acquire w s).runOn world).2.upkeep = (true, .running)) := by
  have hcount (n : Int) : (addWaiting (δ := δ) n).Keeps upkeep := update fun _ => rfl
  have hleave (outcome : Except Error Connection) : (leaveQueue (δ := δ) s outcome).Keeps upkeep := by
    refine (hcount (-1)).bind fun _ => ?_
    cases outcome with
    | ok c => exact pure c
    | error e => exact raise _
  have hsame : ((acquire w s).runOn world).2.upkeep = ((ensurePool w s).runOn world).2.upkeep :=
    calc ((acquire w s).runOn world).2.upkeep
        = ((joinQueue w s).runOn world).2.upkeep :=
          Act.Keeps.after (fun _ => (keeps_upkeep (keeps_takeInTime w s)).attempt.bind hleave) world
      _ = ((ensurePool w s).runOn world).2.upkeep :=
          Act.Keeps.after (fun _ => (read World.waiting).bind fun _ => (ofExcept _).bind fun _ =>
            hcount 1) world
  rw [hsame]
  exact ensurePool_cases rfl

/-- A background sweep that fails leaves its error with the task. -/
theorem upkeep_backgroundSweep_of_error {e : Error} (hrunning : world.sweeper = .running)
    (hsweep : ((sweep w s none).runOn world).1 = .error e) :
    ((backgroundSweep w s).runOn world).2.upkeep = (world.pool.isSome, .failed e) := by
  have hlook : (Act.read World.sweeper).runOn world = (.ok .running, world) := by
    rw [Act.runOn_read, hrunning]
  have hattempt : (Act.attempt (sweep w s none)).runOn world =
      (.ok (.error e), ((sweep w s none).runOn world).2) := by
    rw [Act.runOn_attempt, hsweep]
  have hpool : ((sweep w s none).runOn world).2.pool.isSome = world.pool.isSome :=
    (World.upkeep_eq (keeps_upkeep (keeps_sweep w s none) world)).1
  unfold backgroundSweep
  rw [Act.runOn_bind_ok hlook]
  dsimp only
  rw [Act.runOn_bind_ok hattempt, ← hpool]
  rfl

/-- A background sweep that succeeds changes nothing about the task, and neither does a task that is
over. -/
theorem upkeep_backgroundSweep
    (hsweep : world.sweeper = .running → ∃ n, ((sweep w s none).runOn world).1 = .ok n) :
    ((backgroundSweep w s).runOn world).2.upkeep = world.upkeep := by
  have hlook : (Act.read World.sweeper).runOn world = (.ok world.sweeper, world) := rfl
  unfold backgroundSweep
  rw [Act.runOn_bind_ok hlook]
  cases hsweeper : world.sweeper with
  | absent => rfl
  | failed e => rfl
  | running =>
    obtain ⟨n, hn⟩ := hsweep hsweeper
    have hattempt : (Act.attempt (sweep w s none)).runOn world =
        (.ok (.ok n), ((sweep w s none).runOn world).2) := by
      rw [Act.runOn_attempt, hn]
    dsimp only
    rw [Act.runOn_bind_ok hattempt]
    exact keeps_upkeep (keeps_sweep w s none) world

/-- Nothing is stopped if there is no background task. -/
theorem runOn_stopSweeper_of_absent (habsent : world.sweeper = .absent) :
    (stopSweeper w).runOn world = (.ok (), world) := by
  have hlook : (Act.read World.sweeper).runOn world = (.ok .absent, world) := by rw [Act.runOn_read, habsent]
  unfold stopSweeper
  rw [Act.runOn_bind_ok hlook]
  rfl

/-- A background task that cannot be waited for stays. -/
theorem runOn_stopSweeper_of_error {e : Error} {after : World δ} (hthere : world.sweeper ≠ .absent)
    (hsend : (World.send w .stopSweeper).runOn world = (.error e, after)) :
    (stopSweeper w).runOn world = (.error e, after) := by
  have hlook : (Act.read World.sweeper).runOn world = (.ok world.sweeper, world) := rfl
  unfold stopSweeper
  rw [Act.runOn_bind_ok hlook]
  cases hsweeper : world.sweeper with
  | absent => exact absurd hsweeper hthere
  | running => exact Act.runOn_bind_error hsend
  | failed _ => exact Act.runOn_bind_error hsend

/-- The error of a background task that has failed comes to light, and the task stays. -/
theorem runOn_stopSweeper_of_failed {a : Answer} {after : World δ} (hfailed : world.sweeper.hasFailed = true)
    (hsend : (World.send w .stopSweeper).runOn world = (.ok a, after)) :
    ∃ e, (stopSweeper w).runOn world = (.error e, after) := by
  have hlook : (Act.read World.sweeper).runOn world = (.ok world.sweeper, world) := rfl
  unfold stopSweeper
  rw [Act.runOn_bind_ok hlook]
  cases hsweeper : world.sweeper with
  | absent => simp [hsweeper, Sweeper.hasFailed] at hfailed
  | running => simp [hsweeper, Sweeper.hasFailed] at hfailed
  | failed e =>
    have hordinary : e.isOrdinary = true := by rw [hsweeper] at hfailed; exact hfailed
    refine ⟨e, ?_⟩
    dsimp only
    rw [Act.runOn_bind_ok hsend, if_pos hordinary]
    rfl

/-- Any other background task is gone when it was waited for. -/
theorem runOn_stopSweeper_of_not_failed {a : Answer} {after : World δ} (hthere : world.sweeper ≠ .absent)
    (hfine : world.sweeper.hasFailed = false)
    (hsend : (World.send w .stopSweeper).runOn world = (.ok a, after)) :
    (stopSweeper w).runOn world = (.ok (), { after with sweeper := .absent }) := by
  have hlook : (Act.read World.sweeper).runOn world = (.ok world.sweeper, world) := rfl
  unfold stopSweeper
  rw [Act.runOn_bind_ok hlook]
  cases hsweeper : world.sweeper with
  | absent => exact absurd hsweeper hthere
  | running =>
    dsimp only
    rw [Act.runOn_bind_ok hsend]
    rfl
  | failed e =>
    have hcancelled : e.isOrdinary = false := by rw [hsweeper] at hfine; exact hfine
    dsimp only
    rw [Act.runOn_bind_ok hsend, hcancelled]
    rfl

/-- Stopping the background task fails and leaves everything as it is, or there is none any more. -/
theorem stopSweeper_cases {r : Except Error Unit} {after : World δ}
    (hrun : (stopSweeper w).runOn world = (r, after)) :
    (∃ e, r = .error e ∧ after.upkeep = world.upkeep) ∨
      r = .ok () ∧ world.sweeper.hasFailed = false ∧ after.sweeper = .absent := by
  by_cases hthere : world.sweeper = .absent
  · rw [runOn_stopSweeper_of_absent hthere] at hrun
    obtain ⟨rfl, rfl⟩ := Prod.mk.inj hrun
    exact .inr ⟨rfl, by rw [hthere]; rfl, hthere⟩
  obtain ⟨outcome, outside, hsend⟩ := World.exists_runOn_send w .stopSweeper world
  cases outcome with
  | error e =>
    rw [runOn_stopSweeper_of_error hthere hsend] at hrun
    obtain ⟨rfl, rfl⟩ := Prod.mk.inj hrun
    exact .inl ⟨e, rfl, rfl⟩
  | ok reply =>
    cases hfailed : world.sweeper.hasFailed with
    | true =>
      obtain ⟨e, hfails⟩ := runOn_stopSweeper_of_failed hfailed hsend
      rw [hfails] at hrun
      obtain ⟨rfl, rfl⟩ := Prod.mk.inj hrun
      exact .inl ⟨e, rfl, rfl⟩
    | false =>
      rw [runOn_stopSweeper_of_not_failed hthere hfailed hsend] at hrun
      obtain ⟨rfl, rfl⟩ := Prod.mk.inj hrun
      exact .inr ⟨rfl, rfl, rfl⟩

/-- A shutdown leaves everything as it is, or it finds no task that has failed and leaves none. -/
theorem shutdown_cases (w : Wire δ) (world : World δ) :
    ((shutdown w).runOn world).2.upkeep = world.upkeep ∨
      world.sweeper.hasFailed = false ∧ ((shutdown w).runOn world).2.sweeper = .absent := by
  have hask (r : Request) : (World.send w r).Keeps World.sweeper := fun _ => rfl
  cases hstop : (stopSweeper w).runOn world with
  | mk r between =>
    unfold shutdown
    obtain ⟨e, rfl, hsame⟩ | ⟨rfl, hnone, habsent⟩ := stopSweeper_cases hstop
    · rw [Act.runOn_bind_error hstop]
      exact .inl hsame
    · rw [Act.runOn_bind_ok hstop, ← habsent]
      refine .inr ⟨hnone, (read World.pool).bind (fun p => ?_) between⟩
      cases p with
      | none => exact pure ()
      | some p => exact (hask _).bind fun _ => (hask _).bind fun _ => update fun _ => rfl

/-! ## Histories -/

/-- What may happen next to a database. -/
inductive Errand (δ : Type) where
  | acquire
  | chore (chore : Chore)
  /-- Anything else, as that time passes, as long as the pool and the background task stay. -/
  | other (change : World δ → World δ) (hkeeps : ∀ world, (change world).upkeep = world.upkeep)

namespace Errand

/-- The world after an errand. -/
def after [Pooling] (w : Wire δ) (s : Settings) : Errand δ → World δ → World δ
  | .acquire, world => ((Mysql.acquire w s).runOn world).2
  | .chore c, world => ((c.act w s).runOn world).2
  | .other change _, world => change world

/-- Whether an errand is a sweep of the background task that fails with an ordinary error. -/
def FailsIn (w : Wire δ) (s : Settings) (world : World δ) : Errand δ → Prop
  | .chore .backgroundSweep =>
    world.sweeper = .running ∧ ∃ e, ((sweep w s none).runOn world).1 = .error e ∧ e.isOrdinary = true
  | _ => False

/-- What an errand does to a database whose background task has a pool: it stays so, and the task
has failed if it had before or fails now. -/
def Steps [Pooling] (w : Wire δ) (s : Settings) (world : World δ) (errand : Errand δ) : Prop :=
  (errand.after w s world).Tended ∧
    ((errand.after w s world).sweeper.hasFailed = true ↔
      world.sweeper.hasFailed = true ∨ errand.FailsIn w s world)

variable {errand : Errand δ}

/-- An errand that leaves the upkeep, and is no failing sweep, steps on. -/
theorem steps_of_upkeep [Pooling] (h : world.Tended) (hsame : (errand.after w s world).upkeep = world.upkeep)
    (hfine : ¬ errand.FailsIn w s world) : errand.Steps w s world := by
  refine ⟨h.of_upkeep hsame, ?_⟩
  rw [(World.upkeep_eq hsame).2]
  simp [hfine]

/-- Getting a connection steps on: at most it sets up a pool and starts a task. -/
theorem steps_acquire [Pooling] (h : world.Tended) : (Errand.acquire (δ := δ)).Steps w s world := by
  obtain hsame | ⟨hnone, hmade⟩ := acquire_cases w s world
  · exact steps_of_upkeep h hsame id
  · have habsent := h hnone
    have hbefore : world.sweeper.hasFailed = false := by rw [habsent]; rfl
    obtain ⟨task, hfine, hmade⟩ : ∃ task : Sweeper, task.hasFailed = false ∧
        (Errand.acquire.after w s world).upkeep = (true, task) := by
      obtain hmade | hmade := hmade
      · exact ⟨world.sweeper, hbefore, hmade⟩
      · exact ⟨.running, rfl, hmade⟩
    obtain ⟨hpool, rfl⟩ := Prod.mk.inj hmade
    exact ⟨fun hgone => absurd hpool (by simp [hgone]), by simp [hfine, hbefore, FailsIn]⟩

/-- A background sweep steps on: at most it fails, and the task with it. -/
theorem steps_backgroundSweep [Pooling] (h : world.Tended) :
    (Errand.chore (δ := δ) .backgroundSweep).Steps w s world := by
  by_cases hrunning : world.sweeper = .running
  · cases hsweep : ((sweep w s none).runOn world).1 with
    | ok n =>
      exact steps_of_upkeep h (upkeep_backgroundSweep fun _ => ⟨n, hsweep⟩)
        (by simp [FailsIn, hsweep])
    | error e =>
      have hfails :
          (Errand.after w s (.chore .backgroundSweep) world).upkeep = (world.pool.isSome, .failed e) :=
        upkeep_backgroundSweep_of_error hrunning hsweep
      obtain ⟨hpool, hsweeper⟩ := Prod.mk.inj hfails
      have hthere := h.pool_isSome (by simp [hrunning])
      refine ⟨fun hgone => absurd (hpool.trans hthere) (by simp [hgone]), ?_⟩
      rw [hsweeper, hrunning]
      simp [FailsIn, hrunning, hsweep, Sweeper.hasFailed]
  · exact steps_of_upkeep h (upkeep_backgroundSweep fun hruns => absurd hruns hrunning)
      (by simp [FailsIn, hrunning])

/-- A shutdown steps on: at most it ends a task that has not failed. -/
theorem steps_shutdown [Pooling] (h : world.Tended) : (Errand.chore (δ := δ) .shutdown).Steps w s world := by
  obtain hsame | ⟨hfine, habsent⟩ := shutdown_cases w world
  · exact steps_of_upkeep h hsame id
  · have hgone : (Errand.after w s (.chore .shutdown) world).sweeper = .absent := habsent
    have hnow : (Errand.after w s (.chore .shutdown) world).sweeper.hasFailed = false := by rw [hgone]; rfl
    exact ⟨World.tended_of_absent hgone, by simp [hnow, hfine, FailsIn]⟩

/-- Whatever the errand. -/
theorem steps [Pooling] (errand : Errand δ) (h : world.Tended) : errand.Steps w s world := by
  cases errand with
  | acquire => exact steps_acquire h
  | other change hkeeps => exact steps_of_upkeep h (hkeeps world) id
  | chore chore =>
    cases chore with
    | release c => exact steps_of_upkeep h (keeps_upkeep (keeps_release w c) world) id
    | destroy c => exact steps_of_upkeep h (keeps_upkeep (keeps_destroy w c) world) id
    | ping c => exact steps_of_upkeep h (keeps_upkeep ((keeps_ping w c).bind fun _ => pure ()) world) id
    | perform c op =>
      exact steps_of_upkeep h (keeps_upkeep ((keeps_perform w s c op).bind fun _ => pure ()) world) id
    | sweep now =>
      exact steps_of_upkeep h (keeps_upkeep ((keeps_sweep w s now).bind fun _ => pure ()) world) id
    | backgroundSweep => exact steps_backgroundSweep h
    | shutdown => exact steps_shutdown h

end Errand

/-- The world after a history. -/
def afterAll [Pooling] (w : Wire δ) (s : Settings) (errands : List (Errand δ)) (world : World δ) : World δ :=
  errands.foldl (fun world errand => errand.after w s world) world

/-- Whether some background sweep of a history fails with an ordinary error. -/
def HasFailedSweep [Pooling] (w : Wire δ) (s : Settings) : World δ → List (Errand δ) → Prop
  | _, [] => False
  | world, errand :: rest => errand.FailsIn w s world ∨ HasFailedSweep w s (errand.after w s world) rest

/-- A background task that has failed once stays so. -/
theorem hasFailed_afterAll_iff [Pooling] (h : world.Tended) (errands : List (Errand δ)) :
    (afterAll w s errands world).sweeper.hasFailed = true ↔
      world.sweeper.hasFailed = true ∨ HasFailedSweep w s world errands := by
  induction errands generalizing world with
  | nil => simp [afterAll, HasFailedSweep]
  | cons errand rest ih =>
    obtain ⟨htended, hfailed⟩ := errand.steps (w := w) (s := s) h
    have hrest := ih htended
    rw [hfailed, or_assoc] at hrest
    exact hrest

/-! ## Shutdowns -/

/-- What a shutdown is to have come to: there is neither a pool nor a background task, and if there
was a pool, it was closed and has ended. -/
structure ShutsDown (w : Wire δ) (world : World δ) : Prop where
  poolless : ((shutdown w.recorded).runOn (world.recording [])).2.pool = none
  taskless : ((shutdown w.recorded).runOn (world.recording [])).2.sweeper = .absent
  closed : world.pool.isSome = true → ∃ before closing ending,
    ((shutdown w.recorded).runOn (world.recording [])).2.outside.2 =
      before ++ [⟨.closePool, .ok closing⟩, ⟨.awaitPool, .ok ending⟩]

/-- A background task that has not failed is stopped. -/
theorem exists_runOn_stopSweeper {world : World (δ × List Exchange)} (hgrants : w.GrantsShutdown)
    (hfine : world.sweeper.hasFailed = false) : ∃ outside,
      (stopSweeper w.recorded).runOn world =
        (.ok (), { world with outside := outside, sweeper := .absent }) := by
  by_cases hthere : world.sweeper = .absent
  · have hsame : { world with outside := world.outside, sweeper := .absent } = world := by rw [← hthere]
    exact ⟨world.outside, by rw [hsame, runOn_stopSweeper_of_absent hthere]⟩
  · obtain ⟨a, outside, hsend⟩ := hgrants.exists_runOn_send (r := .stopSweeper) (by simp) world
    have hstopped := runOn_stopSweeper_of_not_failed hthere hfine hsend
    exact ⟨_, hstopped⟩

/-- Where no background sweep has failed, a shutdown ends as it is to end. -/
theorem shutsDown_of_hasFailed_eq_false (hgrants : w.GrantsShutdown)
    (hfine : world.sweeper.hasFailed = false) :
    ShutsDown w world := by
  have hbefore : (world.recording []).sweeper.hasFailed = false := hfine
  obtain ⟨outside, hstop⟩ := exists_runOn_stopSweeper hgrants hbefore
  -- The world when the background task is stopped.
  generalize hbetween : ({ world.recording [] with outside := outside, sweeper := .absent }
    : World (δ × List Exchange)) = between at hstop
  obtain ⟨hsame, habsent⟩ : between.pool = world.pool ∧ between.sweeper = .absent := by
    rw [← hbetween]
    exact ⟨rfl, rfl⟩
  have hlook : (Act.read World.pool).runOn between = (.ok world.pool, between) := by
    rw [Act.runOn_read, hsame]
  have hrun : (shutdown w.recorded).runOn (world.recording []) = _ :=
    (Act.runOn_bind_ok hstop).trans (Act.runOn_bind_ok hlook)
  cases hpool : world.pool with
  | none =>
    rw [hpool] at hrun hsame
    refine ⟨?_, ?_, fun hthere => absurd hthere (by simp [hpool])⟩
    · rw [hrun]
      exact hsame
    · rw [hrun]
      exact habsent
  | some p =>
    obtain ⟨closing, outside', hclose⟩ := hgrants.exists_runOn_send (r := .closePool) (by simp) between
    obtain ⟨ending, outside'', hawait⟩ := hgrants.exists_runOn_send (r := .awaitPool) (by simp)
      { between with outside := (outside', between.outside.2 ++ [⟨.closePool, .ok closing⟩]) }
    rw [hpool] at hrun
    dsimp only at hrun
    rw [Act.runOn_bind_ok hclose, Act.runOn_bind_ok hawait] at hrun
    refine ⟨?_, ?_, fun _ => ⟨between.outside.2, closing, ending, ?_⟩⟩
    · rw [hrun]
      rfl
    · rw [hrun]
      exact habsent
    · rw [hrun]
      exact List.append_assoc ..

/-- From a database without a background task, after whatever happens: a shutdown closes the pool
and leaves neither it nor a background task, exactly if no background sweep before has failed with
an ordinary error. -/
theorem shutsDown_iff [Pooling] (hgrants : w.GrantsShutdown) (hsweeper : world.sweeper = .absent)
    (errands : List (Errand δ)) :
    ShutsDown w (afterAll w s errands world) ↔ ¬ HasFailedSweep w s world errands := by
  have hfailed := hasFailed_afterAll_iff (w := w) (s := s) (World.tended_of_absent hsweeper) errands
  have hstart : world.sweeper.hasFailed = false := by rw [hsweeper]; rfl
  rw [hstart, Bool.false_eq_true, false_or] at hfailed
  rw [← hfailed, Bool.not_eq_true]
  constructor
  · intro hdown
    obtain hsame | ⟨hfine, -⟩ := shutdown_cases w.recorded ((afterAll w s errands world).recording [])
    · have habsent : (afterAll w s errands world).sweeper = .absent :=
        (World.upkeep_eq hsame).2.symm.trans hdown.taskless
      rw [habsent]
      rfl
    · exact hfine
  · exact shutsDown_of_hasFailed_eq_false hgrants

/-- An error of closing a connection. -/
def socketClosed : Error :=
  .fault { source := .program, name := "RuntimeError", args := [.text "socket closed"] }

/-- A wire over which everything is granted but closing a connection. -/
def unclosingWire : Wire Unit :=
  ⟨fun
    | .close _ => throw socketClosed
    | _ => return {}⟩

/-- The wire that closes no connection grants shutdowns. -/
theorem unclosingWire_grantsShutdown : unclosingWire.GrantsShutdown := by
  intro r hr d
  obtain rfl | rfl | rfl : r = .stopSweeper ∨ r = .closePool ∨ r = .awaitPool := by simpa using hr
  all_goals exact ⟨{}, rfl⟩

/-- Settings by which connections are swept that have been idle for ten seconds. -/
def tenSeconds : Settings := { idleTimeout := .int 10, sweepInterval := .int 30 }

/-- A database that has not been used yet. -/
def unusedWorld : World Unit := { outside := () }

/-- A connection is used and given back, and a minute later the idle connections are swept. -/
def idleMinute : List (Errand Unit) :=
  [.acquire, .chore (.release ⟨"c1"⟩), .other (fun world => { world with clock := .int 60 }) fun _ => rfl,
    .chore .backgroundSweep]

/-- The sweep is about to close the connection, which fails. Before the sweep a shutdown would have
closed the pool, and after it none does. -/
theorem shutsDown_iff_idleMinute :
    unclosingWire.GrantsShutdown ∧ unusedWorld.sweeper = .absent ∧
      ShutsDown unclosingWire (afterAll unclosingWire tenSeconds (idleMinute.take 3) unusedWorld) ∧
      HasFailedSweep unclosingWire tenSeconds unusedWorld idleMinute ∧
      ¬ ShutsDown unclosingWire (afterAll unclosingWire tenSeconds idleMinute unusedWorld) := by
  have hgrants := unclosingWire_grantsShutdown
  have hnone : ¬ HasFailedSweep unclosingWire tenSeconds unusedWorld (idleMinute.take 3) := by
    simp [idleMinute, HasFailedSweep, Errand.FailsIn]
  have hfails : HasFailedSweep unclosingWire tenSeconds unusedWorld idleMinute :=
    .inr (.inr (.inr (.inl ⟨rfl, socketClosed, rfl, rfl⟩)))
  exact ⟨hgrants, rfl, (shutsDown_iff hgrants rfl _).mpr hnone, hfails,
    fun hdown => (shutsDown_iff hgrants rfl _).mp hdown hfails⟩

/-- The shutdown after the failed sweep ends with the error of the sweep, and pool and task are
still there. -/
theorem shutdown_leaves_pool :
    let world := afterAll unclosingWire tenSeconds idleMinute unusedWorld
    unclosingWire.GrantsShutdown ∧ ((shutdown unclosingWire).runOn world).1 = .error socketClosed ∧
      ((shutdown unclosingWire).runOn world).2.pool.isSome = true ∧ ¬ ShutsDown unclosingWire world := by
  refine ⟨unclosingWire_grantsShutdown, rfl, rfl, fun hdown => ?_⟩
  have hstays : Sweeper.failed socketClosed = .absent := hdown.taskless
  exact nomatch hstays

end Mysql

end Quarry
