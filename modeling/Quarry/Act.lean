import Quarry.Error

/-!
# Acts

An act changes a state and ends with a result or an error. What it has changed before an error stays
changed. `Act.attempt` turns an error into a value, so that what must happen in any case can be
written after it.
-/

set_option autoImplicit false

namespace Quarry

/-- An act on a state. -/
abbrev Act (σ α : Type) := ExceptT Error (StateM σ) α

namespace Act

variable {σ α β : Type}

/-- The outcome of an act as a value; this act itself does not fail. -/
def attempt (a : Act σ α) : Act σ (Except Error α) := ExceptT.mk (do return .ok (← a.run))

/-- End with an outcome. -/
def ofExcept (outcome : Except Error α) : Act σ α := ExceptT.mk (pure outcome)

/-- Look at the state. -/
def read (f : σ → α) : Act σ α := do return f (← get)

/-- Change the state. -/
def update (f : σ → σ) : Act σ Unit := modify f

/-- Run an act on a state. -/
def runOn (a : Act σ α) (s : σ) : Except Error α × σ := a.run.run s

/-- An act that lists its outcome and the state after it as a function of the state before. -/
def ofFunction (f : σ → Except Error α × σ) : Act σ α := ExceptT.mk f

/-! ## Runs -/

/-- A result alone leaves the state as it is. -/
@[simp] theorem runOn_pure (a : α) (s : σ) : (pure a : Act σ α).runOn s = (.ok a, s) := rfl

/-- So does an error. -/
@[simp] theorem runOn_throw (e : Error) (s : σ) : (throw e : Act σ α).runOn s = (.error e, s) := rfl

/-- After an act that succeeds, the next one goes on with its result. -/
theorem runOn_bind_ok {a : Act σ α} {f : α → Act σ β} {s t : σ} {x : α}
    (h : a.runOn s = (.ok x, t)) : (a >>= f).runOn s = (f x).runOn t := by
  have hrun : a.run.run s = (.ok x, t) := h
  simp only [runOn, ExceptT.run_bind, StateT.run_bind, hrun]
  rfl

/-- After an act that fails, nothing else is done. -/
theorem runOn_bind_error {a : Act σ α} {f : α → Act σ β} {s t : σ} {e : Error}
    (h : a.runOn s = (.error e, t)) : (a >>= f).runOn s = (.error e, t) := by
  have hrun : a.run.run s = (.error e, t) := h
  simp only [runOn, ExceptT.run_bind, StateT.run_bind, hrun]
  rfl

/-- An attempt succeeds, with the outcome. -/
@[simp] theorem runOn_attempt (a : Act σ α) (s : σ) :
    (attempt a).runOn s = (.ok (a.runOn s).1, (a.runOn s).2) := rfl

/-- A given outcome leaves the state as it is. -/
@[simp] theorem runOn_ofExcept (outcome : Except Error α) (s : σ) :
    (ofExcept outcome).runOn s = (outcome, s) := rfl

/-- To look at the state does not change it. -/
@[simp] theorem runOn_read (f : σ → α) (s : σ) : (read f).runOn s = (.ok (f s), s) := rfl

/-- A change of the state succeeds. -/
@[simp] theorem runOn_update (f : σ → σ) (s : σ) : (update f).runOn s = (.ok (), f s) := rfl

/-- The run of an act that is listed as a function. -/
@[simp] theorem runOn_ofFunction (f : σ → Except Error α × σ) (s : σ) :
    (ofFunction f).runOn s = f s := rfl

/-- What is made of a result at last does not change the state. -/
theorem runOn_settle (a : Act σ α) (g : α → Except Error β) (s : σ) :
    (a >>= fun x => ofExcept (g x)).runOn s = ((a.runOn s).1.bind g, (a.runOn s).2) := by
  cases ha : a.runOn s with
  | mk r t =>
    cases r with
    | error e => exact runOn_bind_error ha
    | ok x => exact runOn_bind_ok ha

/-- A result may be changed at last. -/
theorem runOn_bind_pure (a : Act σ α) (g : α → β) (s : σ) :
    (a >>= fun x => pure (g x)).runOn s = ((a.runOn s).1.map g, (a.runOn s).2) :=
  runOn_settle a (fun x => .ok (g x)) s

/-- Acts are equal if all their runs are. -/
theorem ext {a b : Act σ α} (h : ∀ s, a.runOn s = b.runOn s) : a = b := funext h

end Act

end Quarry
