import Quarry.Proofs.Outcome
import Quarry.Handler.Run

/-!
# Watching a handler

What a handler does shows in the order of the calls between it and its outside: the operations of
the adapter and the work it was given. An adapter is watched by letting each operation add an
`Event` to a record, together with how the operation ended, and leaving everything else as it is.

`Follows` is the judgement with which runs of a handler are described. A watched act follows a plain
one when it ends like it in the same state, and it says what the act adds to the record. There is
one rule for each way to make an act of others, so the description of a stage is put together from
those of its steps.
-/

set_option autoImplicit false

namespace Quarry

/-- Something a handler has asked for, and how it ended. -/
inductive Event (α : Type) where
  | sleep (outcome : Except Error Unit)
  | acquire (outcome : Except Error Connection)
  | ping (c : Connection) (outcome : Except Error Bool)
  | begin (c : Connection) (outcome : Except Error Unit)
  | work (c : Connection) (outcome : Except Error α)
  | commit (c : Connection) (outcome : Except Error Unit)
  | rollback (c : Connection) (outcome : Except Error Unit)
  | release (c : Connection) (outcome : Except Error Unit)
  | destroy (c : Connection) (outcome : Except Error Unit)

namespace Event

variable {α : Type}

/-- Whether this may happen before there is a connection to work on. -/
def Preliminary : Event α → Prop
  | .sleep _ => True
  | .acquire _ => True
  | .ping _ _ => True
  | .destroy _ _ => True
  | _ => False

/-- Whether this belongs to the work and the transaction around it. -/
def OfBody : Event α → Prop
  | .begin _ _ => True
  | .work _ _ => True
  | .commit _ _ => True
  | _ => False

/-- What comes before is not part of the work. -/
theorem Preliminary.not_ofBody {event : Event α} (hpreliminary : event.Preliminary) :
    ¬event.OfBody := by
  intro hbody
  cases event <;> first | exact hpreliminary | exact hbody

/-- Whether this gives up a connection or what was done on it. -/
def GivesUp : Event α → Prop
  | .rollback _ _ => True
  | .release _ _ => True
  | .destroy _ _ => True
  | _ => False

/-- What gives a connection up is not part of the work. -/
theorem GivesUp.not_ofBody {event : Event α} (hgives : event.GivesUp) : ¬event.OfBody := by
  intro hbody
  cases event <;> first | exact hgives | exact hbody

end Event

/-- Where something happens that happens only once. -/
theorem split_unique {β : Type} {p : β → Prop} {xs ys pre post : List β} {x y : β}
    (h : xs ++ x :: ys = pre ++ y :: post) (hxs : ∀ z ∈ xs, ¬p z) (hys : ∀ z ∈ ys, ¬p z) (hy : p y) :
    xs = pre ∧ x = y ∧ ys = post := by
  obtain ⟨between, rfl, hrest⟩ | ⟨between, rfl, hrest⟩ := List.append_eq_append_iff.mp h
  · cases between with
    | nil => simpa using hrest
    | cons z rest =>
      obtain ⟨rfl, rfl⟩ : x = z ∧ ys = rest ++ y :: post := by simpa using hrest
      exact absurd hy (hys y (by simp))
  · cases between with
    | nil => simpa [eq_comm] using hrest
    | cons z rest =>
      obtain ⟨rfl, -⟩ : y = z ∧ post = rest ++ x :: ys := by simpa using hrest
      exact absurd hy (hxs y (by simp))

/-- A state with the record of what has happened. -/
structure Watched (σ α : Type) where
  state : σ
  events : List (Event α) := []

variable {σ α β γ : Type}

namespace Watched

/-- Do something and add it to the record. -/
def recorded (event : Except Error β → Event α) (a : Act σ β) : Act (Watched σ α) β :=
  Act.ofFunction fun w =>
    ((a.runOn w.state).1, ⟨(a.runOn w.state).2, w.events ++ [event (a.runOn w.state).1]⟩)

/-- Work on a connection, watched. -/
def work (f : Connection → Act σ α) (c : Connection) : Act (Watched σ α) α :=
  recorded (.work c) (f c)

end Watched

/-- An adapter that is watched. -/
def Adapter.watched (a : Adapter σ) : Adapter (Watched σ α) where
  description := a.description
  poolStatus := fun w => a.poolStatus w.state
  keeps := fun level w => a.keeps level w.state
  log := fun level text w => { w with state := a.log level text w.state }
  strict := fun w => a.strict w.state
  sleep := fun seconds => Watched.recorded .sleep (a.sleep seconds)
  acquire := Watched.recorded .acquire a.acquire
  release := fun c => Watched.recorded (.release c) (a.release c)
  destroy := fun c => Watched.recorded (.destroy c) (a.destroy c)
  ping := fun c => Watched.recorded (.ping c) (a.ping c)
  begin := fun c => Watched.recorded (.begin c) (a.begin c)
  commit := fun c => Watched.recorded (.commit c) (a.commit c)
  rollback := fun c => Watched.recorded (.rollback c) (a.rollback c)

/-- A handler on the watched adapter. -/
def Handler.watched (h : Handler σ) : Handler (Watched σ α) :=
  ⟨h.adapter.watched, h.retryCount, h.retryDelay⟩

/-- What is said about an act: how it ends, in which state, and with which events. -/
abbrev Account (σ α β : Type) := Except Error β → σ → List (Event α) → Prop

/-- A watched act ends like a plain one, and what it adds to the record is as said. -/
def Follows (a : Act (Watched σ α) β) (b : Act σ β) (P : Account σ α β) : Prop :=
  ∀ w, ∃ events, a.runOn w = ((b.runOn w.state).1, ⟨(b.runOn w.state).2, w.events ++ events⟩) ∧
    P (b.runOn w.state).1 (b.runOn w.state).2 events

namespace Follows

variable {a : Act (Watched σ α) β} {b : Act σ β} {P : Account σ α β}

/-- An account may be weakened. -/
theorem mono {Q : Account σ α β} (h : Follows a b P)
    (hPQ : ∀ r s events, P r s events → Q r s events) : Follows a b Q := by
  intro w
  obtain ⟨events, hrun, hP⟩ := h w
  exact ⟨events, hrun, hPQ _ _ _ hP⟩

/-- A result is followed by itself. -/
theorem pure (x : β) :
    Follows (α := α) (σ := σ) (Pure.pure x) (Pure.pure x) fun r _ events => r = .ok x ∧ events = [] := by
  intro w
  exact ⟨[], by simp, by simp⟩

/-- An error is followed by itself. -/
theorem raise (e : Error) :
    Follows (α := α) (σ := σ) (β := β) (throw e) (throw e)
      fun r _ events => r = .error e ∧ events = [] := by
  intro w
  exact ⟨[], by simp, by simp⟩

/-- Steps follow steps: the events of the second are added to those of the first, unless the first
fails. -/
theorem bind {f : β → Act (Watched σ α) γ} {g : β → Act σ γ} {Q : β → Account σ α γ}
    {R : Account σ α γ} (ha : Follows a b P) (hf : ∀ x, Follows (f x) (g x) (Q x))
    (herror : ∀ e s events, P (.error e) s events → R (.error e) s events)
    (hok : ∀ x s r t events later, P (.ok x) s events → Q x r t later → R r t (events ++ later)) :
    Follows (a >>= f) (b >>= g) R := by
  intro w
  obtain ⟨events, hrun, hP⟩ := ha w
  cases hb : b.runOn w.state with
  | mk r s =>
    rw [hb] at hrun hP
    cases r with
    | error e =>
      rw [Act.runOn_bind_error hb, Act.runOn_bind_error hrun]
      exact ⟨events, rfl, herror e s events hP⟩
    | ok x =>
      rw [Act.runOn_bind_ok hb, Act.runOn_bind_ok hrun]
      obtain ⟨later, hlater, hQ⟩ := hf x ⟨s, w.events ++ events⟩
      exact ⟨events ++ later, by rw [hlater, List.append_assoc], hok x s _ _ events later hP hQ⟩

/-- A step that goes without saying is passed over. -/
theorem andThen {f : β → Act (Watched σ α) γ} {g : β → Act σ γ} {R : Account σ α γ} {x : β}
    (ha : Follows a b fun r _ events => r = .ok x ∧ events = []) (hf : Follows (f x) (g x) R) :
    Follows (a >>= f) (b >>= g) R := by
  intro w
  obtain ⟨events, hrun, hx, rfl⟩ := ha w
  have hb : b.runOn w.state = (.ok x, (b.runOn w.state).2) := Prod.ext hx rfl
  rw [hx, List.append_nil] at hrun
  rw [Act.runOn_bind_ok hb, Act.runOn_bind_ok hrun]
  exact hf ⟨_, w.events⟩

/-- An attempt is followed by the attempt. -/
theorem attempt (h : Follows a b P) :
    Follows (Act.attempt a) (Act.attempt b) fun r s events => ∃ x, r = .ok x ∧ P x s events := by
  intro w
  obtain ⟨events, hrun, hP⟩ := h w
  exact ⟨events, by simp [hrun], _, rfl, hP⟩

/-- After an attempt it goes on in any case. -/
theorem attemptThen {f : Except Error β → Act (Watched σ α) γ} {g : Except Error β → Act σ γ}
    {Q : Except Error β → Account σ α γ} {R : Account σ α γ} (ha : Follows a b P)
    (hf : ∀ x, Follows (f x) (g x) (Q x))
    (hok : ∀ x s r t events later, P x s events → Q x r t later → R r t (events ++ later)) :
    Follows (Act.attempt a >>= f) (Act.attempt b >>= g) R := by
  refine ha.attempt.bind hf ?_ ?_
  · rintro e s events ⟨x, hx, -⟩
    exact absurd hx (by simp)
  · rintro x s r t events later ⟨y, hy, hP⟩ hQ
    obtain rfl := Except.ok.inj hy
    exact hok x s r t events later hP hQ

/-- An outcome is followed by itself. -/
theorem ofExcept (outcome : Except Error β) :
    Follows (α := α) (σ := σ) (Act.ofExcept outcome) (Act.ofExcept outcome)
      fun r _ events => r = outcome ∧ events = [] := by
  intro w
  exact ⟨[], by simp, by simp⟩

/-- What is made of an outcome at last changes neither the state nor the record. -/
theorem settle (ha : Follows a b P) (g : β → Except Error γ) :
    Follows (a >>= fun x => Act.ofExcept (g x)) (b >>= fun x => Act.ofExcept (g x))
      fun r s events => ∃ y, P y s events ∧ r = y.bind g := by
  intro w
  obtain ⟨events, hrun, hP⟩ := ha w
  cases hb : b.runOn w.state with
  | mk r s =>
    rw [hb] at hrun hP
    cases r with
    | error e =>
      rw [Act.runOn_bind_error hb, Act.runOn_bind_error hrun]
      exact ⟨events, rfl, _, hP, rfl⟩
    | ok x =>
      rw [Act.runOn_bind_ok hb, Act.runOn_bind_ok hrun]
      exact ⟨events, rfl, _, hP, rfl⟩

/-- A look is followed by the look. -/
theorem read (f : σ → β) :
    Follows (α := α) (Act.read fun w => f w.state) (Act.read f)
      fun r s events => r = .ok (f s) ∧ events = [] := by
  intro w
  exact ⟨[], by simp, by simp⟩

/-- A look at the state is passed over when what follows does not depend on it. -/
theorem readThen {f : β → Act (Watched σ α) γ} {g : β → Act σ γ} {R : Account σ α γ} (look : σ → β)
    (hf : ∀ x, Follows (f x) (g x) R) :
    Follows (Act.read (fun w => look w.state) >>= f) (Act.read look >>= g) R := by
  refine (read look).bind hf ?_ ?_
  · rintro e s events ⟨hr, -⟩
    exact absurd hr (by simp)
  · rintro x s r t events later ⟨-, rfl⟩ hR
    exact hR

/-- A log record is not watched. -/
theorem report (h : Adapter σ) (level : Level) (text : String) :
    Follows (α := α) (h.watched.report level text) (h.report level text)
      fun r _ events => r = .ok () ∧ events = [] := by
  intro w
  exact ⟨[], by simp [Adapter.report, Adapter.watched], by simp [Adapter.report]⟩

/-- What is recorded is one event. -/
theorem recorded (event : Except Error β → Event α) (a : Act σ β) :
    Follows (Watched.recorded event a) a fun r _ events => events = [event r] := by
  intro w
  exact ⟨[event (a.runOn w.state).1], by simp [Watched.recorded], rfl⟩

end Follows

end Quarry
