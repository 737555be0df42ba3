import Quarry.Proofs.Handler.Watched

/-!
# How a connection is acquired

A connection is tried for until one answers, a failure does not pass, or no try is left. `Tried`
describes all ways in which this may go, whatever the adapter does: the events of each, and how it
ends. What is proved about acquiring is proved by induction on this description.
-/

set_option autoImplicit false

namespace Quarry

variable {σ α : Type}

namespace Handler

/-- The error that remains when a failure is reported: the failure itself, unless the report fails
because the settings cannot be described. -/
def blamed (h : Handler σ) (e : Error) : Error :=
  match h.adapter.description with
  | .ok _ => e
  | .error d => d

/-- The pause before a new try cannot be had: it is not to be computed, or not to be shown in a log
that is strict about that. -/
def PauseFails (h : Handler σ) (s : σ) (k : Nat) (e : Error) : Prop :=
  h.retryDelay.timesNat (Nat.pow 2 k) = .error e ∨
    ∃ delay, h.retryDelay.timesNat (Nat.pow 2 k) = .ok delay ∧
      h.adapter.keeps .debug s = true ∧ h.adapter.strict s = true ∧ delay.thousandths = .error e

/-- The events before a try. -/
def waited (n : Nat) : List (Event α) := if n = 0 then [] else [.sleep (.ok ())]

/-- How it may go when a connection is tried for, so many more times and beginning with try number
`n`, after a failure. -/
inductive Tried (h : Handler σ) :
    Nat → Nat → Option Error → Except Error Connection → σ → List (Event α) → Prop
  | spent (n : Nat) (last : Option Error) (s : σ) :
      Tried h 0 n last (.error (h.blamed (last.getD (noConnection none)))) s []
  | unpaused (left k : Nat) (last : Option Error) (e : Error) (s : σ)
      (hpause : h.PauseFails s k e) : Tried h (left + 1) (k + 1) last (.error e) s []
  | unslept (left k : Nat) (last : Option Error) (e : Error) (s : σ) :
      Tried h (left + 1) (k + 1) last (.error e) s [.sleep (.error e)]
  | passing {left n : Nat} (last : Option Error) {e : Error} {r : Except Error Connection} {s : σ}
      {later : List (Event α)} (htransient : e.isTransient = true)
      (hrest : Tried h left (n + 1) (some e) r s later) :
      Tried h (left + 1) n last r s (waited n ++ .acquire (.error e) :: later)
  | refused (left n : Nat) (last : Option Error) (e : Error) (s : σ)
      (htransient : e.isTransient = false) (hordinary : e.isOrdinary = true) :
      Tried h (left + 1) n last (.error (h.blamed (noConnection (some e)))) s
        (waited n ++ [.acquire (.error e)])
  | interrupted (left n : Nat) (last : Option Error) (e : Error) (s : σ)
      (hordinary : e.isOrdinary = false) :
      Tried h (left + 1) n last (.error e) s (waited n ++ [.acquire (.error e)])
  | alive (left n : Nat) (last : Option Error) (c : Connection) (s : σ) :
      Tried h (left + 1) n last (.ok c) s (waited n ++ [.acquire (.ok c), .ping c (.ok true)])
  | unanswered (left n : Nat) (last : Option Error) (c : Connection) (e : Error) (s : σ) :
      Tried h (left + 1) n last (.error e) s (waited n ++ [.acquire (.ok c), .ping c (.error e)])
  | undestroyed (left n : Nat) (last : Option Error) (c : Connection) (e : Error) (s : σ) :
      Tried h (left + 1) n last (.error e) s
        (waited n ++ [.acquire (.ok c), .ping c (.ok false), .destroy c (.error e)])
  | dead {left n : Nat} (last : Option Error) (c : Connection) {r : Except Error Connection} {s : σ}
      {later : List (Event α)} (hrest : Tried h left (n + 1) (some deadConnection) r s later) :
      Tried h (left + 1) n last r s
        (waited n ++ .acquire (.ok c) :: .ping c (.ok false) :: .destroy c (.ok ()) :: later)

/-- Waiting is one pause at most. -/
theorem mem_waited {event : Event α} {n : Nat} (hevent : event ∈ waited n) :
    event = .sleep (.ok ()) := by
  unfold waited at hevent
  split at hevent
  · exact absurd hevent (by simp)
  · exact List.mem_singleton.mp hevent

namespace Tried

variable {h : Handler σ} {left n : Nat} {last : Option Error} {r : Except Error Connection} {s : σ}
  {events : List (Event α)}

/-- Before there is a connection that answers, nobody works on one or gives it back. -/
theorem preliminary (htried : h.Tried left n last r s events) :
    ∀ event ∈ events, event.Preliminary := by
  have hwaited : ∀ n, ∀ event ∈ (waited n : List (Event α)), event.Preliminary := by
    intro n event hevent
    rw [mem_waited hevent]
    trivial
  induction htried with
  | spent => simp
  | unpaused => simp
  | unslept => simp [Event.Preliminary]
  | passing last htransient hrest ih =>
    simpa [or_imp, forall_and, Event.Preliminary] using ⟨hwaited _, ih⟩
  | refused left n => simpa [or_imp, forall_and, Event.Preliminary] using hwaited n
  | interrupted left n => simpa [or_imp, forall_and, Event.Preliminary] using hwaited n
  | alive left n => simpa [or_imp, forall_and, Event.Preliminary] using hwaited n
  | unanswered left n => simpa [or_imp, forall_and, Event.Preliminary] using hwaited n
  | undestroyed left n => simpa [or_imp, forall_and, Event.Preliminary] using hwaited n
  | dead last c hrest ih =>
    simpa [or_imp, forall_and, Event.Preliminary] using ⟨hwaited _, ih⟩

end Tried

variable (h : Handler σ)

/-- Reporting a failure is not watched. -/
theorem follows_reportFailure (e : Error) :
    Follows (α := α) (h.watched.reportFailure e) (h.reportFailure e) fun r _ events =>
      r = (h.adapter.description.map fun _ => ()) ∧ events = [] := by
  refine Follows.andThen (Follows.report h.adapter _ _) ?_
  refine (Follows.ofExcept h.adapter.description).bind
    (Q := fun _ r _ events => r = .ok () ∧ events = []) (fun description => ?_) ?_ ?_
  · refine Follows.andThen (Follows.report h.adapter _ _) ?_
    refine Follows.readThen h.adapter.poolStatus fun status => ?_
    refine Follows.andThen (Follows.report h.adapter _ _) ?_
    exact Follows.report h.adapter _ _
  · rintro d s events ⟨hd, rfl⟩
    exact ⟨by rw [← hd]; rfl, rfl⟩
  · rintro description s r t events later ⟨hd, rfl⟩ ⟨rfl, rfl⟩
    exact ⟨by rw [← hd]; rfl, rfl⟩

/-- Show in the log that there will be a pause, if the log wants to know. -/
def showPause (total n : Nat) (last : Option Error) (delay : Value) : Act σ Unit := do
  if ← Act.read (h.adapter.keeps .debug) then
    h.adapter.reportWritten .debug (delay.thousandths.map fun shown =>
      "Retrying connection acquisition in " ++ shown ++ "s (attempt " ++ toString (n + 1) ++ "/" ++
        toString total ++ "): " ++ ((last.map Error.message).getD "None"))

/-- Before a further try there is a pause, twice as long as the one before. -/
theorem waitBefore_succ (total k : Nat) (last : Option Error) :
    h.waitBefore total (k + 1) last = (do
      let delay ← Act.ofExcept (h.retryDelay.timesNat (Nat.pow 2 k))
      h.showPause total (k + 1) last delay
      h.adapter.sleep delay) := by
  unfold waitBefore showPause
  simp only [bind_assoc]
  refine bind_congr fun delay => bind_congr fun kept => ?_
  cases kept <;> simp

/-- A record of which there is no text leaves the log as it is, and is an error for a strict one. -/
theorem runOn_reportWritten_error (a : Adapter σ) (level : Level) (e : Error) (s : σ) :
    (a.reportWritten level (.error e)).runOn s = (if a.strict s then .error e else .ok (), s) := by
  have hread : (Act.read a.strict).runOn s = (.ok (a.strict s), s) := rfl
  unfold Adapter.reportWritten
  rw [Act.runOn_bind_ok hread]
  cases a.strict s <;> rfl

/-- Showing a pause is not watched. -/
theorem follows_showPause (total n : Nat) (last : Option Error) (delay : Value) :
    Follows (α := α) (h.watched.showPause total n last delay) (h.showPause total n last delay)
      fun r s events => events = [] ∧ (r = .ok () ∨
        ∃ e, r = .error e ∧ h.adapter.keeps .debug s = true ∧ h.adapter.strict s = true ∧
          delay.thousandths = .error e) := by
  intro w
  have hlook : (Act.read (h.adapter.keeps .debug)).runOn w.state =
      (.ok (h.adapter.keeps .debug w.state), w.state) := rfl
  have hwatched : (Act.read ((h.watched (α := α)).adapter.keeps .debug)).runOn w =
      (.ok (h.adapter.keeps .debug w.state), w) := rfl
  unfold showPause
  rw [Act.runOn_bind_ok hlook, Act.runOn_bind_ok hwatched]
  cases hkept : h.adapter.keeps .debug w.state with
  | false => exact ⟨[], by simp, rfl, .inl rfl⟩
  | true =>
    simp only [if_true]
    cases hshown : delay.thousandths with
    | ok shown =>
      obtain ⟨events, hrun, hr, rfl⟩ := Follows.report (α := α) h.adapter .debug _ w
      exact ⟨[], hrun, rfl, .inl hr⟩
    | error e =>
      have hwritten : (h.watched (α := α)).adapter.strict w = h.adapter.strict w.state := rfl
      refine ⟨[], ?_⟩
      rw [Except.map, runOn_reportWritten_error, runOn_reportWritten_error, hwritten, List.append_nil]
      cases h.adapter.strict w.state with
      | false => exact ⟨rfl, rfl, .inl rfl⟩
      | true => exact ⟨rfl, rfl, .inr ⟨e, rfl, hkept, rfl, rfl⟩⟩

/-- A pause is watched. -/
theorem follows_waitBefore (total n : Nat) (last : Option Error) :
    Follows (α := α) (h.watched.waitBefore total n last) (h.waitBefore total n last)
      fun r s events => (r = .ok () ∧ events = waited n) ∨
        ∃ k e, n = k + 1 ∧ r = .error e ∧
          (events = [.sleep (.error e)] ∨ events = [] ∧ h.PauseFails s k e) := by
  cases n with
  | zero =>
    refine (Follows.pure ()).mono ?_
    rintro r s events ⟨rfl, rfl⟩
    exact .inl ⟨rfl, rfl⟩
  | succ k =>
    rw [waitBefore_succ, waitBefore_succ]
    have hpause : ∀ delay, Follows (α := α)
        (do h.watched.showPause total (k + 1) last delay; h.watched.adapter.sleep delay)
        (do h.showPause total (k + 1) last delay; h.adapter.sleep delay)
        fun r s events => events = [.sleep r] ∨ events = [] ∧ ∃ e, r = .error e ∧
          h.adapter.keeps .debug s = true ∧ h.adapter.strict s = true ∧
            delay.thousandths = .error e := by
      intro delay
      refine (follows_showPause h total (k + 1) last delay).bind
        (fun _ => Follows.recorded .sleep (h.adapter.sleep delay)) ?_ ?_
      · rintro e s events ⟨rfl, hr | hfails⟩
        · exact absurd hr (by simp)
        · exact .inr ⟨rfl, hfails⟩
      · rintro ⟨⟩ s r t events later ⟨rfl, -⟩ rfl
        exact .inl rfl
    refine (Follows.ofExcept (h.retryDelay.timesNat (Nat.pow 2 k))).bind hpause ?_ ?_
    · rintro e s events ⟨hdelay, rfl⟩
      exact .inr ⟨k, e, rfl, rfl, .inr ⟨rfl, .inl hdelay.symm⟩⟩
    · rintro delay s r t events later ⟨hdelay, rfl⟩ (rfl | ⟨rfl, e, rfl, hfails⟩)
      · cases r with
        | error e => exact .inr ⟨k, e, rfl, rfl, .inl rfl⟩
        | ok u => exact .inl ⟨rfl, rfl⟩
      · exact .inr ⟨k, e, rfl, rfl, .inr ⟨rfl, .inr ⟨delay, hdelay.symm, hfails⟩⟩⟩

/-- What `tryAcquire` does when the adapter was asked for a connection. -/
def afterAcquire (total left n : Nat) (acquired : Except Error Connection) : Act σ Connection :=
  match acquired with
  | .error e =>
    if e.isTransient then h.tryAcquire total left (n + 1) (some e)
    else if e.isOrdinary then do
      h.reportFailure e
      throw (noConnection (some e))
    else throw e
  | .ok c => do
    if ← h.adapter.ping c then return c
    else
      h.adapter.report .warning "Discarding connection that failed the liveness check"
      h.adapter.destroy c
      h.tryAcquire total left (n + 1) (some deadConnection)

/-- Without a try left the acquisition fails with the last error. -/
theorem tryAcquire_zero (total n : Nat) (last : Option Error) :
    h.tryAcquire total 0 n last = (do
      h.reportFailure (last.getD (noConnection none))
      throw (last.getD (noConnection none))) := rfl

/-- A try is a pause, an attempt, and what comes of it. -/
theorem tryAcquire_succ (total left n : Nat) (last : Option Error) :
    h.tryAcquire total (left + 1) n last = (do
      h.waitBefore total n last
      Act.attempt h.adapter.acquire >>= h.afterAcquire total left n) := rfl

/-- A failure is reported and raised. -/
theorem follows_reportThenRaise {β : Type} (e raised : Error) :
    Follows (α := α) (do h.watched.reportFailure e; throw raised : Act (Watched σ α) β)
      (do h.reportFailure e; throw raised)
      fun r _ events => r = (.error (match h.adapter.description with
        | .ok _ => raised
        | .error d => d)) ∧ events = [] := by
  refine (follows_reportFailure h e).bind (fun _ => Follows.raise raised) ?_ ?_
  · rintro d s events ⟨hd, rfl⟩
    cases hdescription : h.adapter.description with
    | ok description => simp [hdescription, Except.map] at hd
    | error d' => simp_all [Except.map]
  · rintro ⟨⟩ s r t events later ⟨hd, rfl⟩ ⟨rfl, rfl⟩
    cases hdescription : h.adapter.description with
    | ok description => exact ⟨rfl, rfl⟩
    | error d' => simp [hdescription, Except.map] at hd

/-- What comes of an attempt is watched as said. -/
theorem follows_afterAcquire {total left n : Nat} (acquired : Except Error Connection)
    (hrest : ∀ last, Follows (α := α) (h.watched.tryAcquire total left (n + 1) last)
      (h.tryAcquire total left (n + 1) last) (h.Tried left (n + 1) last)) :
    Follows (α := α) (h.watched.afterAcquire total left n acquired)
      (h.afterAcquire total left n acquired) fun r s events =>
      ∀ last, h.Tried (left + 1) n last r s (waited n ++ .acquire acquired :: events) := by
  cases acquired with
  | error e =>
    cases htransient : e.isTransient with
    | true =>
      simp only [afterAcquire, htransient, if_true]
      refine (hrest (some e)).mono ?_
      intro r s events htried last
      exact .passing last htransient htried
    | false =>
      cases hordinary : e.isOrdinary with
      | true =>
        simp only [afterAcquire, htransient, hordinary, if_true]
        refine (follows_reportThenRaise h e (noConnection (some e))).mono ?_
        rintro r s events ⟨rfl, rfl⟩ last
        exact .refused left n last e s htransient hordinary
      | false =>
        simp only [afterAcquire, htransient, hordinary]
        refine (Follows.raise e).mono ?_
        rintro r s events ⟨rfl, rfl⟩ last
        exact .interrupted left n last e s hordinary
  | ok c =>
    have hdestroy : Follows (α := α)
        (do h.watched.adapter.destroy c; h.watched.tryAcquire total left (n + 1) (some deadConnection))
        (do h.adapter.destroy c; h.tryAcquire total left (n + 1) (some deadConnection))
        fun r s events => ∀ last, h.Tried (left + 1) n last r s
          (waited n ++ .acquire (.ok c) :: .ping c (.ok false) :: events) := by
      refine (Follows.recorded (.destroy c) (h.adapter.destroy c)).bind
        (fun _ => hrest (some deadConnection)) ?_ ?_
      · rintro e s events rfl last
        exact .undestroyed left n last c e s
      · rintro ⟨⟩ s r t events later rfl htried last
        exact .dead last c htried
    refine (Follows.recorded (.ping c) (h.adapter.ping c)).bind
      (Q := fun alive r s events => ∀ last, h.Tried (left + 1) n last r s
        (waited n ++ .acquire (.ok c) :: .ping c (.ok alive) :: events)) (fun alive => ?_) ?_ ?_
    · cases alive with
      | true =>
        refine (Follows.pure c).mono ?_
        rintro r s events ⟨rfl, rfl⟩ last
        exact .alive left n last c s
      | false => exact Follows.andThen (Follows.report h.adapter _ _) hdestroy
    · rintro e s events rfl last
      exact .unanswered left n last c e s
    · rintro alive s r t events later rfl htried last
      exact htried last

/-- Whatever the adapter does, trying for a connection goes in one of the ways described. -/
theorem follows_tryAcquire (total left n : Nat) (last : Option Error) :
    Follows (α := α) (h.watched.tryAcquire total left n last) (h.tryAcquire total left n last)
      (h.Tried left n last) := by
  induction left generalizing n last with
  | zero =>
    rw [tryAcquire_zero, tryAcquire_zero]
    refine (follows_reportThenRaise h _ (last.getD (noConnection none))).mono ?_
    rintro r s events ⟨rfl, rfl⟩
    exact .spent n last s
  | succ left ih =>
    rw [tryAcquire_succ, tryAcquire_succ]
    have hacquire : Follows (α := α)
        (Act.attempt h.watched.adapter.acquire >>= h.watched.afterAcquire total left n)
        (Act.attempt h.adapter.acquire >>= h.afterAcquire total left n)
        fun r s events => h.Tried (left + 1) n last r s (waited n ++ events) := by
      refine (Follows.recorded .acquire h.adapter.acquire).attemptThen
        (fun acquired => follows_afterAcquire h acquired (ih (n + 1))) ?_
      rintro acquired s r t events later rfl htried
      exact htried last
    refine (follows_waitBefore h total n last).bind (fun _ => hacquire) ?_ ?_
    · rintro e s events (⟨hr, -⟩ | ⟨k, e', rfl, hr, rfl | ⟨rfl, hpause⟩⟩)
      · exact absurd hr (by simp)
      · obtain rfl := Except.error.inj hr
        exact .unslept left k last e s
      · obtain rfl := Except.error.inj hr
        exact .unpaused left k last e s hpause
    · rintro ⟨⟩ s r t events later (⟨-, rfl⟩ | ⟨k, e', -, hr, -⟩) htried
      · exact htried
      · exact absurd hr (by simp)

/-- An acquisition is watched as said. -/
theorem follows_acquire :
    Follows (α := α) h.watched.acquire h.acquire fun r s events =>
      (∃ e, h.tries = .error e ∧ r = .error e ∧ events = []) ∨
        ∃ total, h.tries = .ok total ∧ h.Tried total 0 none r s events := by
  refine (Follows.ofExcept h.tries).bind (fun total => follows_tryAcquire h total total 0 none) ?_ ?_
  · rintro e s events ⟨htries, rfl⟩
    exact .inl ⟨e, htries.symm, rfl, rfl⟩
  · rintro total s r t events later ⟨htries, rfl⟩ htried
    exact .inr ⟨total, htries.symm, htried⟩

end Handler

end Quarry
