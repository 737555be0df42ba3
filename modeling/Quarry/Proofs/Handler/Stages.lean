import Quarry.Proofs.Handler.Watched

/-!
# Stages of work on a connection

What happens to a connection from the moment it was acquired, whatever the adapter does: the work
with the transaction around it (`Worked`), and what follows when the work has ended (`Closed`).
These two say which calls are made in which order, and how each stage ends.
-/

set_option autoImplicit false

namespace Quarry

variable {σ α : Type}

/-! ## The work -/

/-- The events before the work. -/
def opening (o : RunOptions) (c : Connection) : List (Event α) :=
  if o.useTransaction then [.begin c (.ok ())] else []

/-- The events after work that succeeded. -/
def closing (o : RunOptions) (c : Connection) : List (Event α) :=
  if o.useTransaction then [.commit c (.ok ())] else []

/-- How the work with the transaction around it may go. -/
inductive Worked (o : RunOptions) (c : Connection) : Except Error α → List (Event α) → Prop
  | unbegun (htransaction : o.useTransaction = true) (e : Error) :
      Worked o c (.error e) [.begin c (.error e)]
  | undone (e : Error) : Worked o c (.error e) (opening o c ++ [.work c (.error e)])
  | uncommitted (htransaction : o.useTransaction = true) (x : α) (e : Error) :
      Worked o c (.error e) [.begin c (.ok ()), .work c (.ok x), .commit c (.error e)]
  | done (x : α) : Worked o c (.ok x) (opening o c ++ [.work c (.ok x)] ++ closing o c)

/-- All that is done on a connection is part of its body. -/
theorem Worked.ofBody {o : RunOptions} {c : Connection} {b : Except Error α} {body : List (Event α)}
    (hworked : Worked o c b body) : ∀ event ∈ body, event.OfBody := by
  cases hworked with
  | unbegun htransaction e => simp [Event.OfBody]
  | undone e =>
    unfold opening
    split <;> simp [Event.OfBody]
  | uncommitted htransaction x e => simp [Event.OfBody]
  | done x =>
    unfold opening closing
    split <;> simp [Event.OfBody]

namespace Handler

variable (h : Handler σ) (o : RunOptions) (c : Connection) (f : Connection → Act σ α)

/-- Without a transaction the body is the work. -/
theorem body_of_plain (htransaction : o.useTransaction = false) : h.body o c f = f c := by
  simp [body, htransaction]

/-- With a transaction the work stands between a begin and a commit. -/
theorem body_of_transaction (htransaction : o.useTransaction = true) :
    h.body o c f = do
      h.adapter.begin c
      let x ← f c
      h.adapter.commit c
      return x := by
  simp [body, htransaction]

/-- The watched body follows the plain one. -/
theorem follows_body :
    Follows (h.watched.body o c (Watched.work f)) (h.body o c f) fun r _ events =>
      Worked o c r events := by
  have hundone : ∀ e, Worked o c (.error e : Except Error α) (opening o c ++ [.work c (.error e)]) :=
    .undone
  have hdone : ∀ x : α, Worked o c (.ok x) (opening o c ++ [.work c (.ok x)] ++ closing o c) := .done
  cases htransaction : o.useTransaction with
  | false =>
    simp only [opening, closing, htransaction] at hundone hdone
    rw [body_of_plain _ _ _ _ htransaction, body_of_plain _ _ _ _ htransaction]
    refine (Follows.recorded (.work c) (f c)).mono ?_
    rintro r s events rfl
    cases r with
    | error e => exact hundone e
    | ok x => exact hdone x
  | true =>
    simp only [opening, closing, htransaction] at hundone hdone
    rw [body_of_transaction _ _ _ _ htransaction, body_of_transaction _ _ _ _ htransaction]
    have hcommit : ∀ x : α, Follows
        (do h.watched.adapter.commit c; return x : Act (Watched σ α) α)
        (do h.adapter.commit c; return x)
        fun r _ events => ∃ rc, events = [Event.commit c rc] ∧ r = rc.map fun _ => x := by
      intro x
      refine (Follows.recorded (.commit c) (h.adapter.commit c)).bind (fun _ => Follows.pure x) ?_ ?_
      · rintro e s events rfl
        exact ⟨.error e, rfl, rfl⟩
      · rintro ⟨⟩ s r t events later rfl ⟨rfl, rfl⟩
        exact ⟨.ok (), rfl, rfl⟩
    have hwork : Follows
        (do let x ← Watched.work f c; h.watched.adapter.commit c; return x)
        (do let x ← f c; h.adapter.commit c; return x)
        fun r _ events => (∃ e, r = .error e ∧ events = [Event.work c (.error e)]) ∨
          ∃ x rc, events = [Event.work c (.ok x), .commit c rc] ∧ r = rc.map fun _ => x := by
      refine (Follows.recorded (.work c) (f c)).bind hcommit ?_ ?_
      · rintro e s events rfl
        exact .inl ⟨e, rfl, rfl⟩
      · rintro x s r t events later rfl ⟨rc, rfl, rfl⟩
        exact .inr ⟨x, rc, rfl, rfl⟩
    refine (Follows.recorded (.begin c) (h.adapter.begin c)).bind (fun _ => hwork) ?_ ?_
    · rintro e s events rfl
      exact .unbegun htransaction e
    · rintro ⟨⟩ s r t events later rfl (⟨e, rfl, rfl⟩ | ⟨x, rc, rfl, rfl⟩)
      · exact hundone e
      · cases rc with
        | error e => exact .uncommitted htransaction x e
        | ok u => exact hdone x

end Handler

/-! ## What follows the work -/

/-- Whether a failure takes back the transaction. -/
def rollsBack (o : RunOptions) (e : Error) : Bool :=
  o.useTransaction && o.rollbackIfError && !e.isLost

/-- What is left of the outcome of taking back a transaction: only interruptions are passed on. -/
def quiet : Except Error Unit → Except Error Unit
  | .ok _ => .ok ()
  | .error e => if e.isOrdinary then .ok () else .error e

/-- The event that a connection is given up after a failure. -/
def disposal (c : Connection) (e : Error) (outcome : Except Error Unit) : Event α :=
  if e.isLost then .destroy c outcome else .release c outcome

/-- How work that ended in some way is followed, and what becomes of its outcome. -/
inductive Closed (o : RunOptions) (c : Connection) :
    Except Error α → Except Error (Except Error α) → List (Event α) → Prop
  | succeeded (x : α) (r : Except Error Unit) :
      Closed o c (.ok x) (r.map fun _ => .ok x) [.release c r]
  | interrupted (e : Error) (hordinary : e.isOrdinary = false) (r : Except Error Unit) :
      Closed o c (.error e) (r.bind fun _ => .error e) [.release c r]
  | failed (e : Error) (hordinary : e.isOrdinary = true) (hrolls : rollsBack o e = false)
      (r : Except Error Unit) :
      Closed o c (.error e) (r.map fun _ => .error e) [disposal c e r]
  | rolledBack (e : Error) (hordinary : e.isOrdinary = true) (hrolls : rollsBack o e = true)
      (b r : Except Error Unit) :
      Closed o c (.error e) (r.bind fun _ => (quiet b).map fun _ => .error e)
        [.rollback c b, .release c r]

/-- What closes gives a connection up. -/
theorem Closed.givesUp {o : RunOptions} {c : Connection} {b : Except Error α}
    {r : Except Error (Except Error α)} {last : List (Event α)} (hclosed : Closed o c b r last) :
    ∀ event ∈ last, event.GivesUp := by
  cases hclosed with
  | failed e hordinary hrolls given =>
    unfold disposal
    split <;> simp [Event.GivesUp]
  | _ => simp [Event.GivesUp]

namespace Handler

variable (h : Handler σ) (o : RunOptions) (c : Connection) (f : Connection → Act σ α)

/-- Reporting an error is not watched. -/
theorem follows_reportError (e : Error) :
    Follows (α := α) (reportError h.watched.adapter e) (reportError h.adapter e)
      fun r _ events => r = .ok () ∧ events = [] := by
  cases e <;> exact Follows.report h.adapter _ _

/-- A disposal is watched. -/
theorem follows_dispose (failure : Option Error) :
    Follows (α := α) (h.watched.dispose c failure) (h.dispose c failure) fun r _ events =>
      events = [match failure with | some e => disposal c e r | none => .release c r] := by
  cases failure with
  | none => exact Follows.recorded (.release c) (h.adapter.release c)
  | some e =>
    cases hlost : e.isLost with
    | false =>
      simp only [dispose, disposal, hlost]
      exact Follows.recorded (.release c) (h.adapter.release c)
    | true =>
      simp only [dispose, disposal, hlost]
      exact Follows.recorded (.destroy c) (h.adapter.destroy c)

/-- A rollback is watched, unless the connection is lost. -/
theorem follows_rollbackQuietly {e : Error} (hlost : e.isLost = false) :
    Follows (α := α) (h.watched.rollbackQuietly c e) (h.rollbackQuietly c e) fun r _ events =>
      ∃ b, events = [.rollback c b] ∧ r = quiet b := by
  unfold rollbackQuietly
  simp only [hlost]
  have hrest : ∀ b : Except Error Unit, Follows (α := α)
      (match b with
        | .ok _ => return ()
        | .error e' =>
          if e'.isOrdinary then
            h.watched.adapter.report .error ("Rollback failed after " ++ e.label ++ ": " ++ e'.message)
          else throw e')
      (match b with
        | .ok _ => return ()
        | .error e' =>
          if e'.isOrdinary then
            h.adapter.report .error ("Rollback failed after " ++ e.label ++ ": " ++ e'.message)
          else throw e')
      fun r _ events => r = quiet b ∧ events = [] := by
    intro b
    cases b with
    | ok u => exact Follows.pure ()
    | error e' =>
      cases hordinary : e'.isOrdinary with
      | true =>
        simp only [quiet, hordinary, if_true]
        exact Follows.report h.adapter _ _
      | false =>
        simp only [quiet, hordinary]
        exact Follows.raise e'
  refine (Follows.recorded (.rollback c) (h.adapter.rollback c)).attemptThen hrest ?_
  rintro b s r t events later rfl ⟨rfl, rfl⟩
  exact ⟨b, rfl, rfl⟩

/-- To clean up is to roll back and to report, as far as that is wanted. -/
theorem cleanUp_eq (e : Error) :
    h.cleanUp o c e = (do
      (if o.useTransaction && o.rollbackIfError then h.rollbackQuietly c e else pure ())
      (if o.printSqlError then reportError h.adapter e else pure ())) := by
  unfold cleanUp
  cases o.useTransaction && o.rollbackIfError <;> cases o.printSqlError <;> simp

/-- Cleaning up is watched. -/
theorem follows_cleanUp (e : Error) :
    Follows (α := α) (h.watched.cleanUp o c e) (h.cleanUp o c e) fun r _ events =>
      (rollsBack o e = false ∧ r = .ok () ∧ events = []) ∨
        (rollsBack o e = true ∧ ∃ b, events = [.rollback c b] ∧ r = quiet b) := by
  have hroll : Follows (α := α)
      (if o.useTransaction && o.rollbackIfError then h.watched.rollbackQuietly c e else pure ())
      (if o.useTransaction && o.rollbackIfError then h.rollbackQuietly c e else pure ())
      fun r _ events => (rollsBack o e = false ∧ r = .ok () ∧ events = []) ∨
        (rollsBack o e = true ∧ ∃ b, events = [.rollback c b] ∧ r = quiet b) := by
    unfold rollsBack
    cases o.useTransaction && o.rollbackIfError with
    | false => exact (Follows.pure ()).mono fun r s events h => .inl ⟨rfl, h⟩
    | true =>
      cases hlost : e.isLost with
      | false => exact (follows_rollbackQuietly h c hlost).mono fun r s events h => .inr ⟨rfl, h⟩
      | true =>
        simp only [rollbackQuietly, hlost, if_true]
        exact (Follows.pure ()).mono fun r s events h => .inl ⟨rfl, h⟩
  have hreport : Follows (α := α)
      (if o.printSqlError then reportError h.watched.adapter e else pure ())
      (if o.printSqlError then reportError h.adapter e else pure ())
      fun r _ events => r = .ok () ∧ events = [] := by
    cases o.printSqlError with
    | false => exact Follows.pure ()
    | true => exact follows_reportError h e
  rw [cleanUp_eq, cleanUp_eq]
  refine hroll.bind (fun _ => hreport) ?_ ?_
  · intro e' s events hP
    exact hP
  · rintro ⟨⟩ s r t events later hP ⟨rfl, rfl⟩
    simpa using hP

/-- What `within` does after a failure that was cleaned up, or should have been. -/
def giveUp (e : Error) (cleaned : Except Error Unit) : Act σ (Except Error α) := do
  h.dispose c (some e)
  match cleaned with
  | .ok _ => return .error e
  | .error interruption => throw interruption

/-- What `within` does when the work has ended. -/
def finish (b : Except Error α) : Act σ (Except Error α) :=
  match b with
  | .ok x => do
    h.dispose c none
    return .ok x
  | .error e =>
    if e.isOrdinary then Act.attempt (h.cleanUp o c e) >>= h.giveUp c e
    else do
      h.dispose c none
      throw e

/-- To go through the stages is to attempt the body and to finish. -/
theorem within_eq : h.within o c f = Act.attempt (h.body o c f) >>= h.finish o c := rfl

/-- Giving up is watched. -/
theorem follows_giveUp (e : Error) (cleaned : Except Error Unit) :
    Follows (α := α) (h.watched.giveUp c e cleaned) (h.giveUp c e cleaned)
      fun (r : Except Error (Except Error α)) _ events => ∃ d : Except Error Unit,
        events = [disposal c e d] ∧ r = d.bind fun _ => cleaned.map fun _ => .error e := by
  have hlast : Follows (α := α)
      (match cleaned with
        | .ok _ => return .error e
        | .error interruption => throw interruption : Act (Watched σ α) (Except Error α))
      (match cleaned with
        | .ok _ => return .error e
        | .error interruption => throw interruption)
      fun r _ events => r = (cleaned.map fun _ => .error e) ∧ events = [] := by
    cases cleaned with
    | ok u => exact Follows.pure _
    | error interruption => exact Follows.raise interruption
  refine (follows_dispose h c (some e)).bind (fun _ => hlast) ?_ ?_
  · rintro e' s events rfl
    exact ⟨.error e', rfl, rfl⟩
  · rintro ⟨⟩ s r t events later rfl ⟨rfl, rfl⟩
    exact ⟨.ok (), rfl, rfl⟩

/-- The watched finish follows the plain one. -/
theorem follows_finish (b : Except Error α) :
    Follows (h.watched.finish o c b) (h.finish o c b) fun r _ events => Closed o c b r events := by
  cases b with
  | ok x =>
    refine (follows_dispose h c none).bind (fun _ => Follows.pure (Except.ok x)) ?_ ?_
    · rintro e s events rfl
      exact .succeeded x (.error e)
    · rintro ⟨⟩ s r t events later rfl ⟨rfl, rfl⟩
      exact .succeeded x (.ok ())
  | error e =>
    cases hordinary : e.isOrdinary with
    | false =>
      simp only [finish, hordinary]
      refine (follows_dispose h c none).bind (fun _ => Follows.raise e) ?_ ?_
      · rintro e' s events rfl
        exact .interrupted e hordinary (.error e')
      · rintro ⟨⟩ s r t events later rfl ⟨rfl, rfl⟩
        exact .interrupted e hordinary (.ok ())
    | true =>
      simp only [finish, hordinary, if_true]
      refine (follows_cleanUp h o c e).attemptThen (follows_giveUp h c e) ?_
      rintro cleaned s r t events later hclean ⟨d, rfl, rfl⟩
      obtain ⟨hrolls, rfl, rfl⟩ | ⟨hrolls, b, rfl, rfl⟩ := hclean
      · exact .failed e hordinary hrolls d
      · have hlost : e.isLost = false := by
          simp only [rollsBack, Bool.and_eq_true, Bool.not_eq_true'] at hrolls
          exact hrolls.2
        have hrelease : disposal (α := α) c e d = .release c d := by simp [disposal, hlost]
        rw [hrelease]
        exact .rolledBack e hordinary hrolls b d

/-- Work on a connection goes through the work itself and what follows it. -/
theorem follows_within :
    Follows (h.watched.within o c (Watched.work f)) (h.within o c f) fun r _ events =>
      ∃ b body last, Worked o c b body ∧ Closed o c b r last ∧ events = body ++ last := by
  rw [within_eq, within_eq]
  refine (follows_body h o c f).attemptThen (follows_finish h o c) ?_
  intro b s r t events later hbody hlast
  exact ⟨b, events, later, hbody, hlast, rfl⟩

end Handler

end Quarry
