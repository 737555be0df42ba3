import Quarry.Proofs.Handler.Mirrored

/-!
# Transcripts

The record of a watched adapter says which operation was asked for and how it ended, and it takes
the work on a connection for one event. A transcript says more: each `Call` has its arguments, also
the seconds of a pause, and the work shows by what it does on the connection, call by call. What a
transcript tells of the events of a watched run is the relation `Tells`; by it a run with a
transcript goes in one of the ways in which runs go.
-/

set_option autoImplicit false

namespace Quarry

variable {σ α β ω : Type}

/-- A call with its arguments, and how it ended. What is done on a connection for the sake of the
work, and how that ended, is of some form of its own. -/
inductive Call (ω : Type) where
  | sleep (seconds : Value) (outcome : Except Error Unit)
  | acquire (outcome : Except Error Connection)
  | ping (c : Connection) (outcome : Except Error Bool)
  | begin (c : Connection) (outcome : Except Error Unit)
  | use (c : Connection) (deed : ω)
  | commit (c : Connection) (outcome : Except Error Unit)
  | rollback (c : Connection) (outcome : Except Error Unit)
  | release (c : Connection) (outcome : Except Error Unit)
  | destroy (c : Connection) (outcome : Except Error Unit)
  | shutdown (outcome : Except Error Unit)

/-- Whether this may be called before there is a connection to work on. -/
def Call.Preliminary : Call ω → Prop
  | .sleep _ _ => True
  | .acquire _ => True
  | .ping _ _ => True
  | .destroy _ _ => True
  | _ => False

/-- Whether this gives up a connection or what was done on it. -/
def Call.GivesUp : Call ω → Prop
  | .rollback _ _ => True
  | .release _ _ => True
  | .destroy _ _ => True
  | _ => False

/-- A state with the transcript of all calls so far. -/
structure Transcribed (σ ω : Type) where
  state : σ
  calls : List (Call ω) := []

namespace Transcribed

/-- Do something and add it to the transcript. -/
def noted (call : Except Error β → Call ω) (a : Act σ β) : Act (Transcribed σ ω) β :=
  Act.ofFunction fun t =>
    ((a.runOn t.state).1, ⟨(a.runOn t.state).2, t.calls ++ [call (a.runOn t.state).1]⟩)

/-- Work on a connection as a single call that ends like the work. -/
def work (f : Connection → Act σ α) (c : Connection) : Act (Transcribed σ (Except Error α)) α :=
  noted (.use c) (f c)

/-- An act that is noted goes on as before, and its call is added. -/
@[simp] theorem runOn_noted (call : Except Error β → Call ω) (a : Act σ β) (t : Transcribed σ ω) :
    (noted call a).runOn t =
      ((a.runOn t.state).1, ⟨(a.runOn t.state).2, t.calls ++ [call (a.runOn t.state).1]⟩) := rfl

end Transcribed

/-- An adapter that keeps a transcript. -/
def Adapter.transcribed (a : Adapter σ) : Adapter (Transcribed σ ω) where
  description := a.description
  poolStatus := fun t => a.poolStatus t.state
  keeps := fun level t => a.keeps level t.state
  log := fun level text t => { t with state := a.log level text t.state }
  strict := fun t => a.strict t.state
  sleep := fun seconds => Transcribed.noted (.sleep seconds) (a.sleep seconds)
  acquire := Transcribed.noted .acquire a.acquire
  release := fun c => Transcribed.noted (.release c) (a.release c)
  destroy := fun c => Transcribed.noted (.destroy c) (a.destroy c)
  ping := fun c => Transcribed.noted (.ping c) (a.ping c)
  begin := fun c => Transcribed.noted (.begin c) (a.begin c)
  commit := fun c => Transcribed.noted (.commit c) (a.commit c)
  rollback := fun c => Transcribed.noted (.rollback c) (a.rollback c)

/-- A handler on the adapter that keeps a transcript. -/
def Handler.transcribed (h : Handler σ) : Handler (Transcribed σ ω) :=
  ⟨h.adapter.transcribed, h.retryCount, h.retryDelay⟩

/-! ## Nothing else is changed -/

/-- An act with a transcript ends like the plain one, in the same state. -/
theorem Alike.runOn_plain {a : Act (Transcribed σ ω) β} {b : Act σ β}
    (halike : Alike (fun t s => t.state = s) a b) (s : σ) (calls : List (Call ω)) :
    b.runOn s = ((a.runOn ⟨s, calls⟩).1, (a.runOn ⟨s, calls⟩).2.state) := by
  obtain ⟨hends, hstate⟩ := halike ⟨s, calls⟩ s rfl
  exact Prod.ext hends.symm hstate.symm

/-- To note a call does not change an act. -/
theorem alike_noted_plain {call : Except Error β → Call ω} (a : Act σ β) :
    Alike (fun t s => t.state = s) (Transcribed.noted call a) a := by
  rintro ⟨s, calls⟩ _ rfl
  exact ⟨rfl, rfl⟩

/-- An adapter that keeps a transcript does what the adapter does. -/
theorem Adapter.transcribed_mirrors (a : Adapter σ) :
    (a.transcribed : Adapter (Transcribed σ ω)).Mirrors (fun t s => t.state = s) a where
  description := rfl
  poolStatus := fun _ _ hst => congrArg a.poolStatus hst
  keeps := fun level _ _ hst => congrArg (a.keeps level) hst
  log := fun level text _ _ hst => congrArg (a.log level text) hst
  strict := fun _ _ hst => congrArg a.strict hst
  sleep := fun seconds => alike_noted_plain (a.sleep seconds)
  acquire := alike_noted_plain a.acquire
  release := fun c => alike_noted_plain (a.release c)
  destroy := fun c => alike_noted_plain (a.destroy c)
  ping := fun c => alike_noted_plain (a.ping c)
  begin := fun c => alike_noted_plain (a.begin c)
  commit := fun c => alike_noted_plain (a.commit c)
  rollback := fun c => alike_noted_plain (a.rollback c)

/-- A handler with a transcript mirrors the plain one. -/
theorem Handler.transcribed_mirrors (h : Handler σ) :
    (h.transcribed : Handler (Transcribed σ ω)).Mirrors (fun t s => t.state = s) h :=
  ⟨h.adapter.transcribed_mirrors, rfl, rfl⟩

/-! ## What a transcript tells of events -/

variable {Work : Connection → Except Error α → List (Call ω) → Prop}

/-- The calls in which an event shows: one of the same name, or those of the work that ended in some
way. -/
inductive Shows (Work : Connection → Except Error α → List (Call ω) → Prop) :
    Event α → List (Call ω) → Prop
  | sleep (seconds : Value) (r : Except Error Unit) : Shows Work (.sleep r) [.sleep seconds r]
  | acquire (r : Except Error Connection) : Shows Work (.acquire r) [.acquire r]
  | ping (c : Connection) (r : Except Error Bool) : Shows Work (.ping c r) [.ping c r]
  | begin (c : Connection) (r : Except Error Unit) : Shows Work (.begin c r) [.begin c r]
  | work {c : Connection} {r : Except Error α} {calls : List (Call ω)} (hwork : Work c r calls) :
      Shows Work (.work c r) calls
  | commit (c : Connection) (r : Except Error Unit) : Shows Work (.commit c r) [.commit c r]
  | rollback (c : Connection) (r : Except Error Unit) : Shows Work (.rollback c r) [.rollback c r]
  | release (c : Connection) (r : Except Error Unit) : Shows Work (.release c r) [.release c r]
  | destroy (c : Connection) (r : Except Error Unit) : Shows Work (.destroy c r) [.destroy c r]

/-- A transcript tells of events: each of them shows in it, one after the other. -/
inductive Tells (Work : Connection → Except Error α → List (Call ω) → Prop) :
    List (Event α) → List (Call ω) → Prop
  | nil : Tells Work [] []
  | cons {event : Event α} {events : List (Event α)} {calls later : List (Call ω)}
      (hshows : Shows Work event calls) (hlater : Tells Work events later) :
      Tells Work (event :: events) (calls ++ later)

section

variable {c : Connection} {calls : List (Call ω)}

/-- A begin shows as one. -/
theorem shows_begin {r : Except Error Unit} : Shows Work (.begin c r) calls ↔ calls = [.begin c r] :=
  ⟨by rintro ⟨⟩; rfl, by rintro rfl; exact .begin c r⟩

/-- The work shows as it is said. -/
theorem shows_work {r : Except Error α} : Shows Work (.work c r) calls ↔ Work c r calls :=
  ⟨by rintro ⟨⟩; assumption, .work⟩

/-- A commit shows as one. -/
theorem shows_commit {r : Except Error Unit} :
    Shows Work (.commit c r) calls ↔ calls = [.commit c r] :=
  ⟨by rintro ⟨⟩; rfl, by rintro rfl; exact .commit c r⟩

/-- A rollback shows as one. -/
theorem shows_rollback {r : Except Error Unit} :
    Shows Work (.rollback c r) calls ↔ calls = [.rollback c r] :=
  ⟨by rintro ⟨⟩; rfl, by rintro rfl; exact .rollback c r⟩

/-- A release shows as one. -/
theorem shows_release {r : Except Error Unit} :
    Shows Work (.release c r) calls ↔ calls = [.release c r] :=
  ⟨by rintro ⟨⟩; rfl, by rintro rfl; exact .release c r⟩

end

namespace Tells

variable {events later : List (Event α)} {event : Event α} {calls : List (Call ω)}

/-- Of no events nothing is told. -/
theorem nil_iff : Tells Work [] calls ↔ calls = [] :=
  ⟨by rintro ⟨⟩; rfl, by rintro rfl; exact .nil⟩

/-- Of events the first one is told before the others. -/
theorem cons_iff : Tells Work (event :: events) calls ↔
    ∃ shown rest, calls = shown ++ rest ∧ Shows Work event shown ∧ Tells Work events rest := by
  constructor
  · rintro ⟨⟩
    exact ⟨_, _, rfl, by assumption, by assumption⟩
  · rintro ⟨shown, rest, rfl, hshows, htells⟩
    exact .cons hshows htells

/-- Of one event what it shows is told. -/
theorem single_iff : Tells Work [event] calls ↔ Shows Work event calls := by
  simp [cons_iff, nil_iff]

/-- One more event is told behind the others. -/
theorem concat {shown : List (Call ω)} (htells : Tells Work events calls)
    (hshows : Shows Work event shown) : Tells Work (events ++ [event]) (calls ++ shown) := by
  induction htells with
  | nil => simpa using Tells.cons hshows .nil
  | cons hfirst _ ih =>
    rw [List.cons_append, List.append_assoc]
    exact .cons hfirst ih

/-- The transcript of events one after the other is cut where they are. -/
theorem split (htells : Tells Work (events ++ later) calls) :
    ∃ first last, calls = first ++ last ∧ Tells Work events first ∧ Tells Work later last := by
  induction events generalizing calls with
  | nil => exact ⟨[], calls, rfl, .nil, htells⟩
  | cons event events ih =>
    cases htells with
    | cons hshows hrest =>
      obtain ⟨first, last, rfl, hfirst, hlast⟩ := ih hrest
      exact ⟨_ ++ first, last, by rw [List.append_assoc], .cons hshows hfirst, hlast⟩

/-- What holds of the calls in which events of a kind show holds of all calls told of such
events. -/
theorem forall_mem {P : Event α → Prop} {Q : Call ω → Prop}
    (hshows : ∀ {event shown}, P event → Shows Work event shown → ∀ call ∈ shown, Q call)
    (htells : Tells Work events calls) (hevents : ∀ event ∈ events, P event) :
    ∀ call ∈ calls, Q call := by
  induction htells with
  | nil => simp
  | @cons event events shown rest hfirst _ ih =>
    obtain ⟨hevent, hevents⟩ := List.forall_mem_cons.mp hevents
    intro call hmem
    obtain hmem | hmem := List.mem_append.mp hmem
    · exact hshows hevent hfirst call hmem
    · exact ih hevents call hmem

/-- Preliminary events are told by preliminary calls. -/
theorem preliminary (htells : Tells Work events calls)
    (hpreliminary : ∀ event ∈ events, event.Preliminary) : ∀ call ∈ calls, call.Preliminary := by
  refine htells.forall_mem (fun hevent hshows => ?_) hpreliminary
  cases hshows with
  | work _ => exact hevent.elim
  | _ => exact List.forall_mem_singleton.mpr hevent

/-- Events that give a connection up are told by calls that do. -/
theorem givesUp (htells : Tells Work events calls) (hgives : ∀ event ∈ events, event.GivesUp) :
    ∀ call ∈ calls, call.GivesUp := by
  refine htells.forall_mem (fun hevent hshows => ?_) hgives
  cases hshows with
  | work _ => exact hevent.elim
  | _ => exact List.forall_mem_singleton.mpr hevent

end Tells

/-- The states of a run with a transcript and of a watched run that go alike. -/
def Retells (Work : Connection → Except Error α → List (Call ω) → Prop) (t : Transcribed σ ω)
    (w : Watched σ α) : Prop :=
  t.state = w.state ∧ Tells Work w.events t.calls

/-- A call that is noted retells the event that is recorded. -/
theorem alike_noted {call : Except Error β → Call ω} {event : Except Error β → Event α}
    (hshows : ∀ r, Shows Work (event r) [call r]) (a : Act σ β) :
    Alike (Retells Work) (Transcribed.noted call a) (Watched.recorded event a) := by
  rintro ⟨s, calls⟩ ⟨_, events⟩ ⟨rfl, htells⟩
  exact ⟨rfl, rfl, htells.concat (hshows _)⟩

/-- An adapter with a transcript retells what the watched one does. -/
theorem Adapter.mirrors_watched (a : Adapter σ) :
    a.transcribed.Mirrors (Retells Work) a.watched where
  description := rfl
  poolStatus := fun _ _ hst => congrArg a.poolStatus hst.1
  keeps := fun level _ _ hst => congrArg (a.keeps level) hst.1
  log := fun level text _ _ hst => ⟨congrArg (a.log level text) hst.1, hst.2⟩
  strict := fun _ _ hst => congrArg a.strict hst.1
  sleep := fun seconds => alike_noted (.sleep seconds) _
  acquire := alike_noted .acquire _
  release := fun c => alike_noted (.release c) _
  destroy := fun c => alike_noted (.destroy c) _
  ping := fun c => alike_noted (.ping c) _
  begin := fun c => alike_noted (.begin c) _
  commit := fun c => alike_noted (.commit c) _
  rollback := fun c => alike_noted (.rollback c) _

namespace Handler

variable (h : Handler σ) {o : RunOptions} {f : Connection → Act σ α}
  {g : Connection → Act (Transcribed σ ω) α}

/-- A handler with a transcript retells what the watched one does. -/
theorem mirrors_watched : h.transcribed.Mirrors (Retells Work) h.watched :=
  ⟨h.adapter.mirrors_watched, rfl, rfl⟩

/-- A run with a transcript goes in one of the ways in which runs go, and the transcript tells in
which. -/
theorem transcribed_run (hwork : ∀ c, Alike (Retells Work) (g c) (Watched.work f c)) (s : σ) :
    let seen := (h.transcribed.run o g).runOn ⟨s, []⟩
    ∃ events x, Tells Work events seen.2.calls ∧ h.Served o x seen.2.state events ∧
      seen.1 = answer o x := by
  intro seen
  -- the watched run goes like the one with a transcript, and how that goes is known
  obtain ⟨hends, hstate, htells⟩ :=
    (h.mirrors_watched.run hwork : Alike _ (h.transcribed.run o g) _) ⟨s, []⟩ ⟨s, []⟩ ⟨rfl, .nil⟩
  obtain ⟨events, hrun, x, hserved, hanswer⟩ := follows_run h o f ⟨s, []⟩
  rw [hrun] at hends hstate htells
  have hstate : seen.2.state = ((h.run o f).runOn s).2 := hstate
  have hends : seen.1 = ((h.run o f).runOn s).1 := hends
  refine ⟨events, x, htells, ?_, ?_⟩
  · rw [hstate]
    exact hserved
  · rw [hends]
    exact hanswer

end Handler

end Quarry
