import Mathlib.Data.List.Nodup
import Quarry.Proofs.Database.Exchanges
import Quarry.Database.Mysql

/-!
# Sweeping idle connections

A sweep goes through the free connections of a pool and discards some of them: it removes them from
the pool and closes them. Which ones it discards only depends on what was known about each
connection before, since discarding some tells nothing new about the others
(`isSweepable_discardAll_of_notMem`). So a sweep is a filter (`runOn_sweepEach`), and what it leaves
is not discarded by another sweep at the same time.

The connections that should be discarded are those that are closed already and those that were idle
for longer than the settings allow (`isDue`). An idle timeout that is not positive means that no
connection is idle for too long, and so it is understood where the pool is set up
(`recycleTime_eq`). A sweep, though, compares the time with any timeout.
-/

set_option autoImplicit false

namespace Quarry

variable {δ : Type}

/-! ## Times -/

namespace Value

open Number (Binary64)

/-- Whether a value is a number of seconds as clocks and settings have them, an integer or a
floating-point number. -/
def isSeconds : Value → Bool
  | .int _ => true
  | .real _ => true
  | _ => false

/-- Whether a value is a number greater than zero. -/
def isPositive (v : Value) : Bool :=
  match v.isAbove (.int 0) with
  | .ok positive => positive
  | .error _ => false

/-- Whether the seconds between two values can be counted. An integer next to a floating-point
number must not be beyond all of these. -/
def areTimes : Value → Value → Bool
  | .int _, .int _ => true
  | .real _, .real _ => true
  | .int n, .real _ => (Binary64.ofInt n).isFinite
  | .real _, .int n => (Binary64.ofInt n).isFinite
  | _, _ => false

/-- Times have a difference in seconds. -/
theorem exists_minus_eq_ok {a b : Value} (h : a.areTimes b = true) :
    ∃ seconds, a.minus b = .ok seconds ∧ seconds.isSeconds = true := by
  cases a with
  | int m =>
    cases b with
    | int n => exact ⟨.int (m - n), rfl, rfl⟩
    | real y =>
      have hm : realOfInt m = .ok (Binary64.ofInt m) := if_pos h
      exact ⟨.real ((Binary64.ofInt m).sub y), by simp [minus, hm, integer?, Except.map], rfl⟩
    | _ => exact absurd h Bool.false_ne_true
  | real x =>
    cases b with
    | int n =>
      have hn : realOfInt n = .ok (Binary64.ofInt n) := if_pos h
      exact ⟨.real (x.sub (Binary64.ofInt n)), by simp [minus, hn, integer?, Except.map], rfl⟩
    | real y => exact ⟨.real (x.sub y), rfl, rfl⟩
    | _ => exact absurd h Bool.false_ne_true
  | _ => exact absurd h Bool.false_ne_true

/-- Seconds can be compared. -/
theorem exists_isAbove_eq_ok {a b : Value} (ha : a.isSeconds = true) (hb : b.isSeconds = true) :
    ∃ above, a.isAbove b = .ok above := by
  have hnumber {v : Value} (hv : v.isSeconds = true) : (∃ x, v.numeric? = some x) ∧ v.isDecimal = false := by
    cases v <;> simp_all [isSeconds, numeric?, isDecimal]
  obtain ⟨⟨x, hx⟩, hax⟩ := hnumber ha
  obtain ⟨⟨y, hy⟩, hby⟩ := hnumber hb
  cases horder : x.compare? y with
  | none => exact ⟨false, by simp [isAbove, ordered, hx, hy, horder, hax, hby]⟩
  | some o => exact ⟨o == .gt, by simp [isAbove, ordered, hx, hy, horder]⟩

end Value

/-! ## Discarding a connection -/

/-- Whether closing a connection never fails over a wire. -/
def Wire.GrantsClosing (w : Wire δ) : Prop := ∀ c d, ∃ a, ((w.send (.close c)).runOn d).1 = .ok a

/-- A recorded wire grants closing if the plain one does. -/
theorem Wire.GrantsClosing.recorded {w : Wire δ} (h : w.GrantsClosing) : w.recorded.GrantsClosing :=
  fun c d => h c d.1

namespace World

variable {w : Wire δ} {world : World δ} {c c' : Connection} {cs : List Connection}

/-- A granted closing closes the connection and nothing else. -/
theorem runOn_close (hgrants : w.GrantsClosing) (world : World δ) (c : Connection) :
    (close w c).runOn world = (.ok (), { world with
      outside := ((w.send (.close c)).runOn world.outside).2
      handles := world.handles.map fun h => if h.connection = c then { h with closed := true } else h }) := by
  obtain ⟨a, ha⟩ := hgrants c world.outside
  have hsend : (send w (.close c)).runOn world =
      (.ok a, { world with outside := ((w.send (.close c)).runOn world.outside).2 }) := by
    simp [send, ha]
  rw [close, Act.runOn_bind_ok hsend]
  rfl

/-- The world after a free connection was removed from the pool and closed. -/
def discard (w : Wire δ) (world : World δ) (c : Connection) : World δ :=
  { world with
    outside := ((w.send (.close c)).runOn world.outside).2
    pool := world.pool.map fun p => { p with free := p.free.erase c }
    handles := world.handles.map fun h => if h.connection = c then { h with closed := true } else h }

/-- The world after several free connections were discarded one after the other. -/
def discardAll (w : Wire δ) (world : World δ) (cs : List Connection) : World δ :=
  cs.foldl (discard w) world

/-- What is known after a connection was discarded. -/
theorem handle?_discard (w : Wire δ) (world : World δ) (c c' : Connection) :
    (world.discard w c).handle? c' =
      (world.handle? c').map fun h => if c' = c then { h with closed := true } else h := by
  unfold handle? discard
  dsimp only
  induction world.handles with
  | nil => rfl
  | cons h hs ih =>
    have hsame : (if h.connection = c then { h with closed := true } else h).connection = h.connection := by
      split_ifs <;> rfl
    rw [List.map_cons, List.find?_cons, List.find?_cons, hsame]
    by_cases hc' : h.connection = c'
    · simp [hc']
    · simpa [hc'] using ih

/-- What is known after some connections were discarded. -/
theorem handle?_discardAll : (world.discardAll w cs).handle? c =
    (world.handle? c).map fun h => if c ∈ cs then { h with closed := true } else h := by
  induction cs generalizing world with
  | nil => simp [discardAll]
  | cons first rest ih =>
    have hrest := @ih (world.discard w first)
    rw [discardAll] at hrest ⊢
    rw [List.foldl_cons, hrest, handle?_discard, Option.map_map]
    congr 1
    funext h
    by_cases hfirst : c = first <;> by_cases hmem : c ∈ rest <;> simp [hfirst, hmem]

/-- Closed are the connections that were discarded and those that were closed before. -/
theorem isClosed_discardAll (hknown : ∀ c ∈ cs, (world.handle? c).isSome = true) :
    (world.discardAll w cs).isClosed c = (world.isClosed c || cs.contains c) := by
  unfold isClosed
  rw [handle?_discardAll]
  by_cases hmem : c ∈ cs
  · obtain ⟨h, hh⟩ := Option.isSome_iff_exists.mp (hknown c hmem)
    simp [hh, hmem]
  · cases hh : world.handle? c <;> simp [hmem]

/-- The pool without the discarded connections. -/
theorem pool_discardAll : (world.discardAll w cs).pool =
    world.pool.map fun p => { p with free := p.free.diff cs } := by
  induction cs generalizing world with
  | nil => simp [discardAll]
  | cons first rest ih =>
    have hrest := @ih (world.discard w first)
    rw [discardAll] at hrest ⊢
    rw [List.foldl_cons, hrest, discard, Option.map_map]
    simp only [List.diff_cons]
    rfl

/-- For each discarded connection there is a request to close it. -/
theorem requests_discardAll {world : World (δ × List Exchange)} :
    (world.discardAll w.recorded cs).outside.2.map Exchange.request =
      world.outside.2.map Exchange.request ++ cs.map .close := by
  induction cs generalizing world with
  | nil => simp [discardAll]
  | cons first rest ih =>
    have hrest := @ih (world.discard w.recorded first)
    rw [discardAll] at hrest ⊢
    rw [List.foldl_cons, hrest]
    simp [discard, Wire.recorded]

end World

namespace Mysql

variable {w : Wire δ} {s : Settings} {now : Value} {world : World δ} {cs : List Connection}
  {gone : Connection → Bool} {p : Pool}

/-! ## What a sweep does -/

/-- To remove and close a connection is to discard it. -/
theorem runOn_discard (hgrants : w.GrantsClosing) (world : World δ) (c : Connection) :
    (do removeFree c; World.close w c : Act (World δ) Unit).runOn world = (.ok (), world.discard w c) := by
  have hremove : (removeFree c).runOn world =
      (.ok (), { world with pool := world.pool.map fun p => { p with free := p.free.erase c } }) := rfl
  rw [Act.runOn_bind_ok hremove, World.runOn_close hgrants]
  rfl

/-- Whether a connection is swept does not depend on others that are discarded. -/
theorem isSweepable_discardAll_of_notMem {c : Connection} (h : c ∉ cs) :
    isSweepable s now (world.discardAll w cs) c = isSweepable s now world c := by
  unfold isSweepable
  rw [World.handle?_discardAll]
  simp [h]

/-- A sweep through some connections discards those for which it holds that they are to be swept,
and counts them. -/
theorem runOn_sweepEach (hgrants : w.GrantsClosing) (hdistinct : cs.Nodup)
    (hgone : ∀ c ∈ cs, isSweepable s now world c = .ok (gone c)) :
    (sweepEach w s now cs).runOn world = (.ok (cs.countP gone), world.discardAll w (cs.filter gone)) := by
  induction cs generalizing world with
  | nil => rfl
  | cons c rest ih =>
    obtain ⟨hnew, hdistinct⟩ := List.nodup_cons.mp hdistinct
    obtain ⟨hc, hrest⟩ := List.forall_mem_cons.mp hgone
    have hlook : (get : Act (World δ) (World δ)).runOn world = (.ok world, world) := rfl
    have hasked : (Act.ofExcept (isSweepable s now world c) : Act (World δ) Bool).runOn world =
        (.ok (gone c), world) := by rw [Act.runOn_ofExcept, hc]
    unfold sweepEach
    rw [Act.runOn_bind_ok hlook, Act.runOn_bind_ok hasked]
    cases hgc : gone c with
    | false => simpa [hgc] using ih hdistinct hrest
    | true =>
      have hothers : ∀ c' ∈ rest, isSweepable s now (world.discardAll w [c]) c' = .ok (gone c') := by
        intro c' hc'
        rw [isSweepable_discardAll_of_notMem (by simpa using ne_of_mem_of_not_mem hc' hnew), hrest c' hc']
      have hlater := @ih (world.discard w c) hdistinct hothers
      rw [if_pos rfl, ← bind_assoc, Act.runOn_bind_ok (runOn_discard hgrants world c),
        Act.runOn_bind_ok hlater, List.countP_cons_of_pos hgc, List.filter_cons_of_pos hgc]
      rfl

/-- A sweep that finds nothing to be swept changes nothing. -/
theorem runOn_sweep_of_none (hgrants : w.GrantsClosing) (hpool : world.pool = some p)
    (hdistinct : p.free.Nodup) (hkeeps : ∀ c ∈ p.free, isSweepable s now world c = .ok false) :
    (sweep w s (some now)).runOn world = (.ok 0, world) := by
  have hlook : (get : Act (World δ) (World δ)).runOn world = (.ok world, world) := rfl
  have heach : (sweepEach w s now p.free).runOn world = (.ok (p.free.countP fun _ => false),
      world.discardAll w (p.free.filter fun _ => false)) := runOn_sweepEach hgrants hdistinct hkeeps
  rw [List.countP_false, List.filter_false] at heach
  unfold sweep
  rw [Act.runOn_bind_ok hlook]
  simp only [hpool, Option.getD_some]
  rw [Act.runOn_bind_ok heach]
  rfl

/-- But for what it logs, a sweep does not change more than discarding connections does. -/
theorem runOn_sweep (hgrants : w.GrantsClosing) (hpool : world.pool = some p) (hdistinct : p.free.Nodup)
    (hgone : ∀ c ∈ p.free, isSweepable s now world c = .ok (gone c)) :
    ∃ log, (sweep w s (some now)).runOn world =
      (.ok (p.free.countP gone), { world.discardAll w (p.free.filter gone) with log := log }) := by
  have hlook : (get : Act (World δ) (World δ)).runOn world = (.ok world, world) := rfl
  unfold sweep
  rw [Act.runOn_bind_ok hlook]
  simp only [hpool, Option.getD_some]
  rw [Act.runOn_bind_ok (runOn_sweepEach hgrants hdistinct hgone)]
  by_cases hn : p.free.countP gone = 0
  · exact ⟨_, by rw [if_neg (not_not.mpr hn)]; rfl⟩
  · exact ⟨_, by rw [if_pos hn]; rfl⟩

/-- What a sweep of a pool at some time is to do with the free connections that are to go: it counts
them and closes them, the others stay free in their order, and after it another sweep at the same
time does nothing. -/
structure Sweeps (w : Wire δ) (s : Settings) (now : Value) (p : Pool) (world : World δ)
    (gone : Connection → Bool) (after : World (δ × List Exchange)) : Prop where
  counted : (sweep w.recorded s (some now)).runOn (world.recording []) = (.ok (p.free.countP gone), after)
  kept : after.pool = some { p with free := p.free.filter (! gone ·) }
  closed : ∀ c, after.isClosed c = (world.isClosed c || (p.free.contains c && gone c))
  asked : after.outside.2.map Exchange.request = (p.free.filter gone).map .close
  settled : (sweep w.recorded s (some now)).runOn after = (.ok 0, after)

/-- If it is known of every free connection whether it is to be swept, a sweep does this with those
that are. -/
theorem exists_sweeps (hgrants : w.GrantsClosing) (hpool : world.pool = some p) (hdistinct : p.free.Nodup)
    (hknown : ∀ c ∈ p.free, (world.handle? c).isSome = true)
    (hgone : ∀ c ∈ p.free, isSweepable s now world c = .ok (gone c)) :
    ∃ after, Sweeps w s now p world gone after := by
  have hpool' : (world.recording []).pool = some p := hpool
  obtain ⟨log, hrun⟩ := runOn_sweep hgrants.recorded hpool' hdistinct hgone
  have hamong : ∀ c ∈ p.free.filter gone, (world.handle? c).isSome = true :=
    fun c hc => hknown c (List.mem_filter.mp hc).1
  have hkept : ((world.recording []).discardAll w.recorded (p.free.filter gone)).pool =
      some { p with free := p.free.filter (! gone ·) } := by
    have hothers : p.free.diff (p.free.filter gone) = p.free.filter (! gone ·) := by
      rw [hdistinct.sdiff_eq_filter]
      refine List.filter_congr fun c hc => ?_
      simp [hc]
    rw [World.pool_discardAll, World.recording, hpool, Option.map_some, hothers]
  refine ⟨_, hrun, hkept, fun c => ?_, ?_, ?_⟩
  · have hclosed : ((world.recording []).discardAll w.recorded (p.free.filter gone)).isClosed c =
        (world.isClosed c || (p.free.filter gone).contains c) :=
      World.isClosed_discardAll hamong
    refine hclosed.trans ?_
    rw [Bool.eq_iff_iff]
    simp [List.mem_filter]
  · exact World.requests_discardAll
  · refine runOn_sweep_of_none hgrants.recorded hkept (hdistinct.filter _) fun c hc => ?_
    obtain ⟨hfree, hstays⟩ := List.mem_filter.mp hc
    rw [Bool.not_eq_true'] at hstays
    have hother : c ∉ p.free.filter gone := by simp [hstays]
    have hbefore : isSweepable s now (world.recording []) c = .ok (gone c) := hgone c hfree
    rw [hstays, ← isSweepable_discardAll_of_notMem (w := w.recorded) hother] at hbefore
    exact hbefore

/-! ## Which connections should go -/

/-- Whether a connection was idle for longer than the idle timeout at some time. -/
def isExpired (s : Settings) (now : Value) (world : World δ) (c : Connection) : Bool :=
  match world.handle? c with
  | some h =>
    match isStale s now h.lastUsed with
    | .ok stale => stale
    | .error _ => false
  | none => false

/-- Whether a free connection should be discarded at some time. With an idle timeout that is not
positive connections do not expire. -/
def isDue (s : Settings) (now : Value) (world : World δ) (c : Connection) : Bool :=
  world.isClosed c || (s.idleTimeout.isPositive && isExpired s now world c)

/-- The pool is told how long to keep idle connections, or that they do not expire. -/
theorem recycleTime_eq (hseconds : s.idleTimeout.isSeconds = true) :
    recycleTime s = if s.idleTimeout.isPositive then s.idleTimeout.toWhole else .ok (-1) := by
  obtain ⟨positive, hpositive⟩ := Value.exists_isAbove_eq_ok hseconds (b := .int 0) rfl
  unfold recycleTime Value.isPositive
  rw [hpositive]
  rfl

/-- The sweep takes any idle timeout for one after which connections expire. -/
theorem isSweepable_eq {c : Connection} (hseconds : s.idleTimeout.isSeconds = true)
    (htimes : ∃ h, world.handle? c = some h ∧ now.areTimes h.lastUsed = true) :
    isSweepable s now world c = .ok (world.isClosed c || isExpired s now world c) := by
  obtain ⟨h, hh, htimes⟩ := htimes
  obtain ⟨seconds, hminus, hspan⟩ := Value.exists_minus_eq_ok htimes
  obtain ⟨stale, hstale⟩ := Value.exists_isAbove_eq_ok hspan hseconds
  have hidle : isStale s now h.lastUsed = .ok stale := by
    unfold isStale
    rw [hminus]
    exact hstale
  unfold isSweepable World.isClosed isExpired
  simp only [hh, hidle]
  cases h.closed with
  | true => rfl
  | false => rfl

/-- A sweep does this with one choice of the free connections only. -/
theorem Sweeps.gone_eq {gone gone' : Connection → Bool} {after after' : World (δ × List Exchange)}
    (h : Sweeps w s now p world gone after) (h' : Sweeps w s now p world gone' after') :
    ∀ c ∈ p.free, gone c = gone' c := by
  intro c hc
  obtain rfl : after = after' := by
    have hsame := h.counted.symm.trans h'.counted
    exact congrArg Prod.snd hsame
  have hkept : p.free.filter (! gone ·) = p.free.filter (! gone' ·) := by
    have hpools := h.kept.symm.trans h'.kept
    exact congrArg Pool.free (Option.some.inj hpools)
  have hstays : c ∈ p.free.filter (! gone ·) ↔ c ∈ p.free.filter (! gone' ·) := by rw [hkept]
  simp only [List.mem_filter, hc, true_and, Bool.not_eq_true'] at hstays
  cases hgone : gone c with
  | true => simpa [hgone] using hstays
  | false => exact (hstays.mp hgone).symm

/-- Of the free connections of a pool, all different and with known times, a sweep discards those
that should be discarded exactly if idle connections expire, or else if no open one was idle for
longer than the idle timeout that is not positive. -/
theorem sweeps_due_iff (hgrants : w.GrantsClosing) (hpool : world.pool = some p) (hdistinct : p.free.Nodup)
    (hseconds : s.idleTimeout.isSeconds = true)
    (htimes : ∀ c ∈ p.free, ∃ h, world.handle? c = some h ∧ now.areTimes h.lastUsed = true) :
    (∃ after, Sweeps w s now p world (isDue s now world) after) ↔
      s.idleTimeout.isPositive = true ∨
        ∀ c ∈ p.free, world.isClosed c = false → isExpired s now world c = false := by
  have hknown : ∀ c ∈ p.free, (world.handle? c).isSome = true := by
    intro c hc
    obtain ⟨h, hh, -⟩ := htimes c hc
    rw [hh, Option.isSome_some]
  have hsweepable : ∀ c ∈ p.free,
      isSweepable s now world c = .ok (world.isClosed c || isExpired s now world c) :=
    fun c hc => isSweepable_eq hseconds (htimes c hc)
  constructor
  · rintro ⟨after, hafter⟩
    obtain ⟨after', hafter'⟩ := exists_sweeps hgrants hpool hdistinct hknown hsweepable
    have hsame := hafter.gone_eq hafter'
    by_cases hexpires : s.idleTimeout.isPositive = true
    · exact .inl hexpires
    · refine .inr fun c hc hopen => ?_
      simpa [isDue, hexpires, hopen] using (hsame c hc).symm
  · intro h
    refine exists_sweeps hgrants hpool hdistinct hknown fun c hc => ?_
    rw [hsweepable c hc, isDue]
    obtain hexpires | hnone := h
    · simp [hexpires]
    · cases hclosed : world.isClosed c with
      | true => rfl
      | false => simp [hnone c hc hclosed]

/-- With an idle timeout of a minute, a connection that was idle for longer and one that is closed
should be discarded, and one that was idle for less than a minute should not. -/
theorem sweeps_due_after_minute :
    let w : Wire Unit := ⟨fun _ => return {}⟩
    let s : Settings := { idleTimeout := .int 60 }
    let p : Pool := { maxSize := .int 10, free := [⟨"c1"⟩, ⟨"c2"⟩, ⟨"c3"⟩] }
    let world : World Unit := { outside := (), pool := some p, handles := [
      { connection := ⟨"c1"⟩, lastUsed := .int 950 },
      { connection := ⟨"c2"⟩, lastUsed := .int 900 },
      { connection := ⟨"c3"⟩, lastUsed := .int 990, closed := true }] }
    w.GrantsClosing ∧ world.pool = some p ∧ p.free.Nodup ∧ s.idleTimeout.isSeconds = true ∧
      (∀ c ∈ p.free, ∃ h, world.handle? c = some h ∧ (Value.int 1000).areTimes h.lastUsed = true) ∧
      s.idleTimeout.isPositive = true ∧ p.free.filter (isDue s (.int 1000) world) = [⟨"c2"⟩, ⟨"c3"⟩] ∧
      ∃ after, Sweeps w s (.int 1000) p world (isDue s (.int 1000) world) after := by
  intro w s p world
  have hgrants : w.GrantsClosing := fun _ _ => ⟨{}, rfl⟩
  have hdistinct : p.free.Nodup := by decide
  have htimes :
      ∀ c ∈ p.free, ∃ h, world.handle? c = some h ∧ (Value.int 1000).areTimes h.lastUsed = true := by
    intro c hc
    obtain rfl | rfl | rfl : c = ⟨"c1"⟩ ∨ c = ⟨"c2"⟩ ∨ c = ⟨"c3"⟩ := by simpa [p] using hc
    all_goals exact ⟨_, rfl, rfl⟩
  have hexpires : s.idleTimeout.isPositive = true := rfl
  exact ⟨hgrants, rfl, hdistinct, rfl, htimes, hexpires, rfl,
    (sweeps_due_iff hgrants rfl hdistinct rfl htimes).mpr (.inl hexpires)⟩

/-- With an idle timeout of zero the pool is told that connections do not expire, and a sweep
discards one that was idle for ten seconds. -/
theorem sweep_discards_undue :
    let w : Wire Unit := ⟨fun _ => return {}⟩
    let s : Settings := { idleTimeout := .int 0 }
    let p : Pool := { maxSize := .int 10, free := [⟨"c1"⟩] }
    let world : World Unit :=
      { outside := (), pool := some p, handles := [{ connection := ⟨"c1"⟩, lastUsed := .int 0 }] }
    recycleTime s = .ok (-1) ∧ p.free.countP (isDue s (.int 10) world) = 0 ∧
      ((sweep w s (some (.int 10))).runOn world).1 = .ok 1 :=
  ⟨rfl, rfl, rfl⟩

end Mysql

end Quarry
