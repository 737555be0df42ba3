import Quarry.Proofs.Handler.Acquiring
import Quarry.Proofs.Handler.Stages

/-!
# Whole runs

A run acquires a connection and works on it. A transaction goes through its stages by itself, and
they turn out to be those of a run that logs no failure (`transaction_eq_within`); what is left is
what the two make of the outcome. So `Served` describes both, by the descriptions of the stages they
go through.
-/

set_option autoImplicit false

namespace Quarry

variable {σ α : Type}

namespace Handler

/-- How it may go when a connection is acquired and worked on. The outcome is an error if there is
no connection, and else whatever `Handler.within` ends with. -/
inductive Served (h : Handler σ) (o : RunOptions) :
    Except Error (Except Error (Except Error α)) → σ → List (Event α) → Prop
  | uncounted (e : Error) (s : σ) (htries : h.tries = .error e) : Served h o (.error e) s []
  | unserved {total : Nat} {e : Error} {s : σ} {events : List (Event α)}
      (htries : h.tries = .ok total) (htried : h.Tried total 0 none (.error e) s events) :
      Served h o (.error e) s events
  | served {total : Nat} {c : Connection} {t s : σ} {b : Except Error α}
      {r : Except Error (Except Error α)} {acquiring body last : List (Event α)}
      (htries : h.tries = .ok total) (htried : h.Tried total 0 none (.ok c) t acquiring)
      (hbody : Worked o c b body) (hlast : Closed o c b r last) :
      Served h o (.ok r) s (acquiring ++ (body ++ last))

/-- What a run makes of the outcome. -/
def answer (o : RunOptions) : Except Error (Except Error (Except Error α)) → Except Error (Option α)
  | .error e => if e.isPool && !o.raiseErrors then .ok none else .error e
  | .ok (.error e) => .error e
  | .ok (.ok (.ok x)) => .ok (some x)
  | .ok (.ok (.error e)) => if o.raiseErrors then .error e else .ok none

variable (h : Handler σ) (o : RunOptions) (f : Connection → Act σ α)

/-- Work on a connection if there is one. -/
def serveOn (acquired : Except Error Connection) :
    Act σ (Except Error (Except Error (Except Error α))) :=
  match acquired with
  | .error e => return .error e
  | .ok c => do return .ok (← Act.attempt (h.within o c f))

/-- Acquire a connection and work on it; all that may happen is in the outcome. -/
def serve : Act σ (Except Error (Except Error (Except Error α))) :=
  Act.attempt h.acquire >>= h.serveOn o f

/-- A run serves the work and answers as the options say. -/
theorem run_eq : h.run o f = h.serve o f >>= fun x => Act.ofExcept (answer o x) := by
  unfold run serve
  rw [bind_assoc]
  refine bind_congr fun acquired => Act.ext fun s => ?_
  cases acquired with
  | error e =>
    simp only [serveOn, answer, pure_bind, Act.runOn_ofExcept]
    split <;> rfl
  | ok c =>
    cases hwithin : (h.within o c f).runOn s with
    | mk r t =>
      have hattempt : (Act.attempt (h.within o c f)).runOn s = (.ok r, t) := by simp [hwithin]
      simp only [serveOn, bind_assoc, pure_bind]
      rw [Act.runOn_bind_ok hattempt]
      cases r with
      | error e => exact Act.runOn_bind_error hwithin
      | ok b =>
        rw [Act.runOn_bind_ok hwithin]
        cases b with
        | ok x => rfl
        | error e =>
          simp only [answer, Act.runOn_ofExcept]
          split <;> rfl

/-- Where failures are not logged, cleaning up is taking back the transaction. -/
theorem cleanUp_of_unlogged (c : Connection) (e : Error) :
    h.cleanUp { printSqlError := false } c e = h.rollbackQuietly c e := by
  simp [cleanUp]

/-- What a transaction does on its connection is what a run does on it that logs no failure: each of
the places where it may fail, in the transaction, in the work or while it is taken back, leads to
the same. -/
theorem transaction_eq_within :
    h.transaction f = h.acquire >>= fun c =>
      h.within { printSqlError := false } c f >>= Act.ofExcept := by
  unfold transaction within
  refine bind_congr fun c => ?_
  rw [body_of_transaction h { printSqlError := false } c f rfl, bind_assoc]
  refine bind_congr fun done => ?_
  cases done with
  | ok x =>
    -- the work and the commit have succeeded
    simp only [bind_assoc, pure_bind]
    rfl
  | error e =>
    dsimp only
    split
    · -- taking the transaction back may end well or be interrupted; the connection is given up either way
      simp only [bind_assoc, cleanUp_of_unlogged]
      refine bind_congr fun takenBack => bind_congr fun _ => ?_
      cases takenBack <;> rfl
    · rw [bind_assoc]
      rfl

/-- A transaction serves the work with the usual options, but for the log. -/
theorem transaction_eq :
    h.transaction f = h.serve { printSqlError := false } f >>= fun x =>
      Act.ofExcept (x.bind fun r => r.bind id) := by
  rw [transaction_eq_within]
  unfold serve
  rw [bind_assoc]
  refine Act.ext fun s => ?_
  cases hacquire : h.acquire.runOn s with
  | mk acquired t =>
    have hattempt : (Act.attempt h.acquire).runOn s = (.ok acquired, t) := by simp [hacquire]
    rw [Act.runOn_bind_ok hattempt]
    cases acquired with
    | error e => exact Act.runOn_bind_error hacquire
    | ok c =>
      rw [Act.runOn_bind_ok hacquire]
      cases hwithin : (h.within { printSqlError := false } c f).runOn t with
      | mk r u =>
        have hserved : (Act.attempt (h.within { printSqlError := false } c f)).runOn t =
            (.ok r, u) := by simp [hwithin]
        simp only [serveOn, bind_assoc, pure_bind]
        rw [Act.runOn_bind_ok hserved]
        cases r with
        | error e => exact Act.runOn_bind_error hwithin
        | ok b =>
          rw [Act.runOn_bind_ok hwithin]
          rfl

/-- A served connection is worked on and closed. -/
theorem follows_serveOn (c : Connection) :
    Follows (h.watched.serveOn o (Watched.work f) (.ok c)) (h.serveOn o f (.ok c)) fun r _ events =>
      ∃ b x body last, r = .ok (.ok x) ∧ Worked o c b body ∧ Closed o c b x last ∧
        events = body ++ last := by
  refine (follows_within h o c f).attemptThen (fun x => Follows.pure (Except.ok x)) ?_
  rintro r s r' t events later ⟨b, body, last, hbody, hlast, rfl⟩ ⟨rfl, rfl⟩
  exact ⟨b, r, body, last, rfl, hbody, hlast, List.append_nil _⟩

/-- Serving is followed by the watched serving. -/
theorem follows_serve :
    Follows (h.watched.serve o (Watched.work f)) (h.serve o f) fun r s events =>
      ∃ x, r = .ok x ∧ h.Served o x s events := by
  intro w
  obtain ⟨events, hrun, hacquired⟩ := follows_acquire (α := α) h w
  -- `Follows.bind` would lose that the state stays as it is when there is no connection
  cases hacquire : h.acquire.runOn w.state with
  | mk acquired s =>
    rw [hacquire] at hrun hacquired
    have hplain : (Act.attempt h.acquire).runOn w.state = (.ok acquired, s) := by simp [hacquire]
    have hwatched : (Act.attempt h.watched.acquire).runOn w =
        (.ok acquired, ⟨s, w.events ++ events⟩) := by simp [hrun]
    unfold serve
    rw [Act.runOn_bind_ok hplain, Act.runOn_bind_ok hwatched]
    cases acquired with
    | error e =>
      refine ⟨events, rfl, .error e, rfl, ?_⟩
      obtain ⟨e', htries, he, rfl⟩ | ⟨total, htries, htried⟩ := hacquired
      · obtain rfl := Except.error.inj he
        exact .uncounted e s htries
      · exact .unserved htries htried
    | ok c =>
      obtain ⟨later, hlater, b, x, body, last, hx, hbody, hlast, rfl⟩ :=
        follows_serveOn h o f c ⟨s, w.events ++ events⟩
      refine ⟨events ++ (body ++ last), by rw [hlater, List.append_assoc], .ok x, hx, ?_⟩
      obtain ⟨e', -, he, -⟩ | ⟨total, htries, htried⟩ := hacquired
      · exact absurd he (by simp)
      · exact .served htries htried hbody hlast

/-- What there is to know about a run. -/
theorem follows_run :
    Follows (h.watched.run o (Watched.work f)) (h.run o f) fun r s events =>
      ∃ x, h.Served o x s events ∧ r = answer o x := by
  rw [run_eq, run_eq]
  refine ((follows_serve h o f).settle (answer o)).mono ?_
  rintro r s events ⟨y, ⟨x, rfl, hserved⟩, rfl⟩
  exact ⟨x, hserved, rfl⟩

/-- What there is to know about a transaction. -/
theorem follows_transaction :
    Follows (h.watched.transaction (Watched.work f)) (h.transaction f) fun r s events =>
      ∃ x, h.Served { printSqlError := false } x s events ∧ r = x.bind fun y => y.bind id := by
  rw [transaction_eq, transaction_eq]
  refine ((follows_serve h _ f).settle fun x => x.bind fun r => r.bind id).mono ?_
  rintro r s events ⟨y, ⟨x, rfl, hserved⟩, rfl⟩
  exact ⟨x, hserved, rfl⟩

end Handler

/-- An adapter whose operations end each time in the same way. -/
def Adapter.steady (acquired : Except Error Connection) (rolledBack : Except Error Unit) :
    Adapter Unit where
  description := .ok []
  poolStatus := fun _ => []
  keeps := fun _ _ => false
  log := fun _ _ s => s
  strict := fun _ => false
  sleep := fun _ => pure ()
  acquire := Act.ofExcept acquired
  release := fun _ => pure ()
  destroy := fun _ => pure ()
  ping := fun _ => pure true
  begin := fun _ => pure ()
  commit := fun _ => pure ()
  rollback := fun _ => Act.ofExcept rolledBack

end Quarry
