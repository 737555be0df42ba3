import Quarry.Database.Basic
import Quarry.Proofs.Outcome

/-!
# Exchanges over a wire

What an operation of a database asks the outside for shows in the exchanges over its wire, when the
wire is recorded (`Wire.recorded`). Everything else goes on as before: an operation over the
recorded wire ends like the same operation over the plain one, in the same world but for the record.

`Asks` is the judgement for this. It says of an operation, begun in some world, what it asks for and
how that goes with its end. There is one rule for each way to make an act of others.
-/

set_option autoImplicit false

namespace Quarry

variable {α β δ : Type}

/-- What is said about an operation: how it ends, and with which exchanges. -/
abbrev Report (β : Type) := Except Error β → List Exchange → Prop

/-- Begun in a world, an act over a recorded wire ends like one over the plain wire, and what it
adds to the record is as said. -/
def Asks (a : Act (World (δ × List Exchange)) β) (b : Act (World δ) β) (s : World δ) (P : Report β) : Prop :=
  ∀ before, ∃ exchanges,
    a.runOn (s.recording before) = ((b.runOn s).1, (b.runOn s).2.recording (before ++ exchanges)) ∧
      P (b.runOn s).1 exchanges

namespace Asks

variable {a : Act (World (δ × List Exchange)) β} {b : Act (World δ) β} {s : World δ} {P : Report β}

/-- What is said may be weakened. -/
theorem mono {Q : Report β} (h : Asks a b s P) (hPQ : ∀ r exchanges, P r exchanges → Q r exchanges) :
    Asks a b s Q := by
  intro before
  obtain ⟨exchanges, hrun, hP⟩ := h before
  exact ⟨exchanges, hrun, hPQ _ _ hP⟩

/-- A given outcome asks for nothing. -/
theorem ofExcept (outcome : Except Error β) :
    Asks (Act.ofExcept outcome) (Act.ofExcept outcome) s fun r exchanges => r = outcome ∧ exchanges = [] := by
  intro before
  exact ⟨[], by simp, rfl, rfl⟩

/-- A request asks for itself. -/
theorem send (w : Wire δ) (r : Request) :
    Asks (World.send w.recorded r) (World.send w r) s fun outcome exchanges =>
      exchanges = [⟨r, outcome⟩] := by
  intro before
  exact ⟨[⟨r, ((World.send w r).runOn s).1⟩], rfl, rfl⟩

/-- Steps follow steps: what the second asks for comes after what the first has asked for, unless
the first fails. -/
theorem bind {f : β → Act (World (δ × List Exchange)) α} {g : β → Act (World δ) α} {Q : β → Report α}
    {R : Report α} (ha : Asks a b s P) (hf : ∀ x t, Asks (f x) (g x) t (Q x))
    (herror : ∀ e exchanges, P (.error e) exchanges → R (.error e) exchanges)
    (hok : ∀ x r exchanges later, P (.ok x) exchanges → Q x r later → R r (exchanges ++ later)) :
    Asks (a >>= f) (b >>= g) s R := by
  intro before
  obtain ⟨exchanges, hrun, hP⟩ := ha before
  cases hb : b.runOn s with
  | mk r t =>
    rw [hb] at hrun hP
    cases r with
    | error e =>
      rw [Act.runOn_bind_error hb, Act.runOn_bind_error hrun]
      exact ⟨exchanges, rfl, herror e exchanges hP⟩
    | ok x =>
      rw [Act.runOn_bind_ok hb, Act.runOn_bind_ok hrun]
      obtain ⟨later, hlater, hQ⟩ := hf x t (before ++ exchanges)
      exact ⟨exchanges ++ later, by rw [hlater, List.append_assoc], hok x _ exchanges later hP hQ⟩

/-- A step that asks for nothing and leaves the world as it is. -/
theorem andThen {f : β → Act (World (δ × List Exchange)) α} {g : β → Act (World δ) α} {R : Report α} {x : β}
    (ha : ∀ before, a.runOn (s.recording before) = (.ok x, s.recording before))
    (hb : b.runOn s = (.ok x, s)) (hf : Asks (f x) (g x) s R) : Asks (a >>= f) (b >>= g) s R := by
  intro before
  rw [Act.runOn_bind_ok hb, Act.runOn_bind_ok (ha before)]
  exact hf before

/-- After an attempt it goes on in any case. -/
theorem attemptThen {f : Except Error β → Act (World (δ × List Exchange)) α}
    {g : Except Error β → Act (World δ) α} {Q : Except Error β → Report α} (ha : Asks a b s P)
    (hf : ∀ x t, Asks (f x) (g x) t (Q x)) :
    Asks (Act.attempt a >>= f) (Act.attempt b >>= g) s fun r exchanges =>
      ∃ x first later, P x first ∧ Q x r later ∧ exchanges = first ++ later := by
  have hattempt : Asks (Act.attempt a) (Act.attempt b) s fun r exchanges =>
      ∃ x, r = .ok x ∧ P x exchanges := by
    intro before
    obtain ⟨exchanges, hrun, hP⟩ := ha before
    exact ⟨exchanges, by simp [hrun], _, rfl, hP⟩
  refine hattempt.bind hf ?_ ?_
  · rintro e exchanges ⟨x, hx, -⟩
    exact absurd hx (by simp)
  · rintro x r exchanges later ⟨y, hy, hP⟩ hQ
    obtain rfl := Except.ok.inj hy
    exact ⟨x, exchanges, later, hP, hQ, rfl⟩

/-- What is made of a result at last asks for nothing. -/
theorem settle (ha : Asks a b s P) (g : β → Except Error α) :
    Asks (a >>= fun x => Act.ofExcept (g x)) (b >>= fun x => Act.ofExcept (g x)) s
      fun r exchanges => ∃ y, P y exchanges ∧ r = y.bind g := by
  refine ha.bind (fun x t => ofExcept (g x)) ?_ ?_
  · intro e exchanges hP
    exact ⟨_, hP, rfl⟩
  · rintro x r exchanges later hP ⟨rfl, rfl⟩
    exact ⟨_, by simpa using hP, rfl⟩

/-- A change of what is known about a connection asks for nothing. -/
theorem note (c : Connection) (change : Handle → Handle) :
    Asks (World.note c change) (World.note c change) s fun r exchanges => r = .ok () ∧ exchanges = [] := by
  intro before
  exact ⟨[], by rw [List.append_nil]; rfl, rfl, rfl⟩

/-- An outcome in which the faults that `wrap` knows are errors of the library. -/
def wrapped (wrap : Fault → Option Error) : Except Error β → Except Error β
  | .error (.fault f) => .error ((wrap f).getD (.fault f))
  | r => r

/-- Other words for faults ask for nothing. -/
theorem wrapping (wrap : Fault → Option Error) (ha : Asks a b s P) :
    Asks (wrapping wrap a) (wrapping wrap b) s fun r exchanges =>
      ∃ y, P y exchanges ∧ r = wrapped wrap y := by
  refine mono
    (ha.attemptThen (Q := fun x r exchanges => r = wrapped wrap x ∧ exchanges = []) fun x t => ?_) ?_
  · cases x with
    | ok result => exact ofExcept (.ok result)
    | error e => cases e <;> exact ofExcept (.error _)
  · rintro r exchanges ⟨y, first, later, hP, ⟨rfl, rfl⟩, rfl⟩
    exact ⟨y, by simpa using hP, rfl⟩

/-- The cursor of some work is closed after it in any case, and if that fails it is all that is
known. -/
theorem overCursor (w : Wire δ) (c : Connection) (ha : Asks a b s P) :
    Asks (World.overCursor w.recorded c a) (World.overCursor w c b) s fun r exchanges =>
      ∃ y during closing, P y during ∧ exchanges = during ++ [⟨.closeCursor c, closing⟩] ∧
        r = closing.bind fun _ => y := by
  have hclose (x : Except Error β) (t : World δ) :=
    (send (s := t) w (.closeCursor c)).settle fun _ => x
  refine (ha.attemptThen hclose).mono ?_
  rintro r exchanges ⟨y, during, later, hP, ⟨closing, rfl, rfl⟩, rfl⟩
  exact ⟨y, during, closing, hP, rfl, rfl⟩

end Asks

end Quarry
