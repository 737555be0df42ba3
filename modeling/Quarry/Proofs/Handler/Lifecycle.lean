import Quarry.Proofs.Handler.Custody
import Quarry.Proofs.Handler.Runs

/-!
# The lifecycle of a run

On an adapter that behaves every connection that a run acquires is used and then disposed of once,
the work is done at most once and at its place, and transactions are committed and taken back
exactly when they should be.

What a run ends with is right, too (`Answers`), but for one thing. A run that should have no result
for want of a connection raises an error instead if it is overrun by its pauses.
-/

set_option autoImplicit false

namespace Quarry

variable {σ α : Type}

namespace Event

/-- Whether work is done on some connection. -/
def IsWork : Event α → Prop
  | .work _ _ => True
  | _ => False

/-- The work is part of what is done on a connection. -/
theorem IsWork.ofBody {event : Event α} (hwork : event.IsWork) : event.OfBody := by
  cases event with
  | work c r => trivial
  | _ => exact False.elim hwork

end Event

/-! ## Working -/

/-- An error of the work on a connection, or of the transaction around it. -/
def FailsOn (c : Connection) (events : List (Event α)) (e : Error) : Prop :=
  .begin c (.error e) ∈ events ∨ .work c (.error e) ∈ events ∨ .commit c (.error e) ∈ events

/-- The work has a result, and nothing has failed. -/
def Succeeds (events : List (Event α)) (x : α) : Prop :=
  (∃ c, .work c (.ok x) ∈ events) ∧ ∀ c e, ¬FailsOn c events e

/-- The events with which a transaction is taken back. -/
def takenBack (o : RunOptions) (c : Connection) (b : Except Error α) (r : Except Error Unit) :
    List (Event α) :=
  match b with
  | .ok _ => []
  | .error e => if rollsBack o e then [.rollback c r] else []

variable {o : RunOptions} {c : Connection} {b : Except Error α} {body last : List (Event α)}

namespace Worked

/-- All that is done on a connection uses it. -/
theorem uses (hworked : Worked o c b body) : ∀ event ∈ body, event.Uses c := by
  cases hworked with
  | unbegun htransaction e => simp [Event.Uses]
  | undone e =>
    unfold opening
    split <;> simp [Event.Uses]
  | uncommitted htransaction x e => simp [Event.Uses]
  | done x =>
    unfold opening closing
    split <;> simp [Event.Uses]

/-- An error of what is done on a connection is how it ends. -/
theorem failsOn_iff (hworked : Worked o c b body) (d : Connection) (e : Error) :
    FailsOn d body e ↔ d = c ∧ b = .error e := by
  unfold FailsOn
  cases hworked with
  | unbegun htransaction e' => simp [eq_comm]
  | undone e' =>
    unfold opening
    split <;> simp [eq_comm]
  | uncommitted htransaction x e' => simp [eq_comm]
  | done x =>
    unfold opening closing
    split <;> simp

/-- A result of what is done on a connection is how it ends. -/
theorem succeeds_iff (hworked : Worked o c b body) (x : α) : Succeeds body x ↔ b = .ok x := by
  unfold Succeeds
  simp only [hworked.failsOn_iff]
  cases hworked with
  | unbegun htransaction e => simp
  | undone e => simp
  | uncommitted htransaction y e => simp
  | done y =>
    unfold opening closing
    split <;> simp [eq_comm]

/-- There is a commit exactly if there is to be a transaction and the work has succeeded. -/
theorem commit_iff (hworked : Worked o c b body) (d : Connection) :
    (∃ r, .commit d r ∈ body) ↔ o.useTransaction = true ∧ ∃ x, .work d (.ok x) ∈ body := by
  cases hworked with
  | unbegun htransaction e => simp
  | undone e =>
    unfold opening
    split <;> simp
  | uncommitted htransaction x e => simp [htransaction]
  | done x =>
    unfold opening closing
    split <;> simp [*]

/-- There is at most one piece of work, and it comes right after the opening. -/
theorem work_at (hworked : Worked o c b body) :
    (∀ event ∈ body, ¬event.IsWork) ∨ ∃ r later, body = opening o c ++ .work c r :: later ∧
      ∀ event ∈ later, ¬event.IsWork := by
  cases hworked with
  | unbegun htransaction e => exact .inl (by simp [Event.IsWork])
  | undone e => exact .inr ⟨_, [], rfl, by simp⟩
  | uncommitted htransaction x e =>
    exact .inr ⟨.ok x, [.commit c (.error e)], by simp [opening, htransaction], by simp [Event.IsWork]⟩
  | done x =>
    refine .inr ⟨.ok x, closing o c, by simp, ?_⟩
    unfold closing
    split <;> simp [Event.IsWork]

end Worked

/-- Where all goes orderly, a connection is closed by taking back and disposing, and the outcome is
kept. -/
theorem Closed.orderly {r : Except Error (Except Error α)} (hclosed : Closed o c b r last)
    (horderly : ∀ event ∈ last, event.Orderly) (hordinary : ∀ e, b = .error e → e.isOrdinary = true) :
    r = .ok b ∧ ∃ taken disposal, last = takenBack o c b taken ++ [disposal] ∧ disposal.Disposes c := by
  cases hclosed with
  | succeeded x d =>
    obtain rfl : d = .ok () := horderly (.release c d) (by simp)
    exact ⟨rfl, .ok (), .release c (.ok ()), rfl, rfl⟩
  | interrupted e hinterrupted d => exact absurd (hordinary e rfl) (by simp [hinterrupted])
  | failed e _ hrolls d =>
    have hdisposal : d = .ok () ∧ (disposal (α := α) c e d).Disposes c := by
      have hd := horderly (disposal c e d) (by simp)
      unfold disposal at hd ⊢
      split at hd <;> exact ⟨hd, by simp [*, Event.Disposes]⟩
    obtain ⟨rfl, hdisposes⟩ := hdisposal
    exact ⟨rfl, .ok (), _, by simp [takenBack, hrolls], hdisposes⟩
  | rolledBack e _ hrolls taken d =>
    obtain rfl : d = .ok () := horderly (.release c d) (by simp)
    have htaken : quiet taken = .ok () := by
      cases taken with
      | ok u => rfl
      | error e' =>
        have hquiet : e'.isOrdinary = true := horderly (.rollback c (.error e')) (by simp) e' rfl
        simp [quiet, hquiet]
    rw [htaken]
    exact ⟨rfl, taken, .release c (.ok ()), by simp [takenBack, hrolls], rfl⟩

/-! ## Runs -/

/-- The record of a run that got a connection, worked on it and disposed of it. -/
def visit (o : RunOptions) (c : Connection) (b : Except Error α) (taken : Except Error Unit)
    (disposal : Event α) (earlier body : List (Event α)) : List (Event α) :=
  earlier ++ .acquire (.ok c) :: .ping c (.ok true) :: (body ++ (takenBack o c b taken ++ [disposal]))

/-- What is left of `Handler.Served` when the adapter behaves. -/
inductive Attended (h : Handler σ) (o : RunOptions) (total : Nat) :
    Except Error (Except Error (Except Error α)) → σ → List (Event α) → Prop
  | unserved {e : Error} {s : σ} {events : List (Event α)} (hcustody : Custody events)
      (hpreliminary : ∀ event ∈ events, event.Preliminary)
      (hends : h.Ends total 0 none s events (.error e)) : Attended h o total (.error e) s events
  | served {c : Connection} {b : Except Error α} {taken : Except Error Unit} {disposal : Event α}
      {s : σ} {earlier body : List (Event α)} (hcustody : Custody earlier)
      (hpreliminary : ∀ event ∈ earlier, event.Preliminary) (hworked : Worked o c b body)
      (hdisposes : disposal.Disposes c) :
      Attended h o total (.ok (.ok b)) s (visit o c b taken disposal earlier body)

/-- A run in which all goes orderly is attended. -/
theorem Handler.Served.attended {h : Handler σ} {total : Nat} {s : σ} {events : List (Event α)}
    {x : Except Error (Except Error (Except Error α))} {d : Record} (hserved : h.Served o x s events)
    (horderly : ∀ event ∈ events, event.Orderly) (htotal : h.tries = .ok total)
    (hdescription : h.adapter.description = .ok d) : Attended h o total x s events := by
  cases hserved with
  | uncounted e s htries => exact absurd (htries.symm.trans htotal) (by simp)
  | unserved htries htried =>
    obtain rfl := Except.ok.inj (htries.symm.trans htotal)
    exact .unserved (htried.handsOver horderly) htried.preliminary (htried.ends horderly hdescription)
  | @served total' c t s b r acquiring body last htries htried hworked hclosed =>
    have hacquiring : ∀ event ∈ acquiring, event.Orderly := fun event hevent =>
      horderly event (by simp [hevent])
    have hordinary : ∀ e, b = .error e → e.isOrdinary = true := by
      intro e he
      have hbody : ∀ event ∈ body, event.Orderly := fun event hevent => horderly event (by simp [hevent])
      obtain hfails | hfails | hfails := (hworked.failsOn_iff c e).mpr ⟨rfl, he⟩
      · exact hbody _ hfails e rfl
      · exact hbody _ hfails e rfl
      · exact hbody _ hfails e rfl
    obtain ⟨earlier, hcustody, rfl⟩ := htried.handsOver hacquiring
    obtain ⟨rfl, taken, disposal, rfl, hdisposes⟩ :=
      hclosed.orderly (fun event hevent => horderly event (by simp [hevent])) hordinary
    have hpreliminary : ∀ event ∈ earlier, event.Preliminary := fun event hevent =>
      htried.preliminary event (by simp [hevent])
    have hattended : Attended h o total (.ok (.ok b)) s (visit o c b taken disposal earlier body) :=
      .served hcustody hpreliminary hworked hdisposes
    simpa [visit] using hattended

/-- The only event that takes back is a rollback. -/
theorem eq_rollback_of_mem {r : Except Error Unit} {event : Event α}
    (hevent : event ∈ takenBack o c b r) : event = .rollback c r := by
  unfold takenBack at hevent
  split at hevent
  · exact absurd hevent (by simp)
  · split at hevent
    · exact List.mem_singleton.mp hevent
    · exact absurd hevent (by simp)

namespace Attended

variable {h : Handler σ} {total : Nat} {s : σ} {events : List (Event α)}
  {x : Except Error (Except Error (Except Error α))}

/-- In an attended run connections are in custody. -/
theorem custody (hattended : Attended h o total x s events) : Custody events := by
  cases hattended with
  | unserved hcustody => exact hcustody
  | @served c b taken disposal s earlier body hcustody hpreliminary hworked hdisposes =>
    have htaken : ∀ event ∈ takenBack o c b taken, event.Uses c := by
      intro event hevent
      rw [eq_rollback_of_mem hevent]
      rfl
    have huses : ∀ event ∈ .ping c (.ok true) :: (body ++ takenBack o c b taken), event.Uses c := by
      have hbody := hworked.uses
      simpa [or_imp, forall_and, Event.Uses] using And.intro hbody htaken
    simpa [visit] using hcustody.append (.held c huses hdisposes .nil)

/-- What disposes of a connection is not part of what is done on it. -/
theorem not_ofBody_of_disposes {event : Event α} (hdisposes : event.Disposes c) : ¬event.OfBody := by
  intro hbody
  cases event <;> first | exact hdisposes | exact hbody

/-- The work with the transaction around it is found in the record of a run. -/
theorem mem_visit_iff {earlier : List (Event α)} {taken : Except Error Unit} {disposal event : Event α}
    (hpreliminary : ∀ event ∈ earlier, event.Preliminary) (hdisposes : disposal.Disposes c)
    (hevent : event.OfBody) : event ∈ visit o c b taken disposal earlier body ↔ event ∈ body := by
  have hearlier : event ∉ earlier := fun hmem =>
    (hpreliminary event hmem).not_ofBody hevent
  have htaken : event ∉ takenBack o c b taken := by
    intro hmem
    rw [eq_rollback_of_mem hmem] at hevent
    exact hevent
  have hdisposal : event ≠ disposal := by
    rintro rfl
    exact not_ofBody_of_disposes hdisposes hevent
  have hacquire : event ≠ .acquire (.ok c) := by
    rintro rfl
    exact hevent
  have hping : event ≠ .ping c (.ok true) := by
    rintro rfl
    exact hevent
  simp [visit, hearlier, htaken, hdisposal, hacquire, hping]

/-- A run comes to do some work with the transaction around it, or to nothing. -/
theorem exists_body (hattended : Attended h o total x s events) :
    ∃ body : List (Event α), (∀ event, event.OfBody → (event ∈ events ↔ event ∈ body)) ∧
      ((body = [] ∧ ∃ e, x = .error e) ∨ ∃ c b, x = .ok (.ok b) ∧ Worked o c b body) := by
  cases hattended with
  | @unserved e s events hcustody hpreliminary hends =>
    have hnone : ∀ event : Event α, event.OfBody → event ∉ events := fun event hevent hmem =>
      (hpreliminary event hmem).not_ofBody hevent
    exact ⟨[], fun event hevent => by simp [hnone event hevent], .inl ⟨rfl, e, rfl⟩⟩
  | @served c b taken disposal s earlier body hcustody hpreliminary hworked hdisposes =>
    exact ⟨body, fun event => mem_visit_iff hpreliminary hdisposes, .inr ⟨c, b, rfl, hworked⟩⟩

/-- Whether something failed on a connection depends on what was done there. -/
theorem failsOn_iff {body : List (Event α)}
    (hmem : ∀ event, event.OfBody → (event ∈ events ↔ event ∈ body)) (d : Connection) (e : Error) :
    FailsOn d events e ↔ FailsOn d body e := by
  unfold FailsOn
  rw [hmem (.begin d (.error e)) trivial, hmem (.work d (.error e)) trivial,
    hmem (.commit d (.error e)) trivial]

/-- Whether something succeeded depends on what was done on the connection. -/
theorem succeeds_iff {body : List (Event α)}
    (hmem : ∀ event, event.OfBody → (event ∈ events ↔ event ∈ body)) (y : α) :
    Succeeds events y ↔ Succeeds body y := by
  have hwork : ∀ c, .work c (.ok y) ∈ events ↔ .work c (.ok y) ∈ body := fun c => hmem _ trivial
  unfold Succeeds
  simp only [failsOn_iff hmem, hwork]

/-- In an attended run there is a commit exactly if the work has succeeded in a transaction. -/
theorem commit_iff (hattended : Attended h o total x s events) (d : Connection) :
    (∃ r, .commit d r ∈ events) ↔ o.useTransaction = true ∧ ∃ y, .work d (.ok y) ∈ events := by
  obtain ⟨body, hmem, hbody⟩ := hattended.exists_body
  have hcommit : ∀ r, .commit d r ∈ events ↔ .commit d r ∈ body := fun r => hmem _ trivial
  have hwork : ∀ y, .work d (.ok y) ∈ events ↔ .work d (.ok y) ∈ body := fun y => hmem _ trivial
  simp only [hcommit, hwork]
  obtain ⟨rfl, -⟩ | ⟨c, b, -, hworked⟩ := hbody
  · simp
  · exact hworked.commit_iff d

/-- In an attended run there is a rollback exactly if something failed in a transaction and the
connection is not lost. -/
theorem rollback_iff (hattended : Attended h o total x s events) (d : Connection) :
    (∃ r, .rollback d r ∈ events) ↔ o.useTransaction = true ∧ o.rollbackIfError = true ∧
      ∃ e, e.isLost = false ∧ FailsOn d events e := by
  cases hattended with
  | unserved hcustody hpreliminary hends =>
    constructor
    · rintro ⟨r, hmem⟩
      exact (hpreliminary _ hmem).elim
    · rintro ⟨-, -, e, -, hmem | hmem | hmem⟩ <;> exact (hpreliminary _ hmem).elim
  | @served c b taken disposal s earlier body hcustody hpreliminary hworked hdisposes =>
    have hfails : ∀ e, FailsOn d (visit o c b taken disposal earlier body) e ↔ d = c ∧ b = .error e := by
      intro e
      rw [failsOn_iff (fun event => mem_visit_iff hpreliminary hdisposes) d e]
      exact hworked.failsOn_iff d e
    have hrollback : ∀ r, .rollback d r ∈ visit o c b taken disposal earlier body ↔
        .rollback d r ∈ takenBack o c b taken := by
      intro r
      have hearlier : .rollback d r ∉ earlier := fun hmem => hpreliminary _ hmem
      have hbody : .rollback d r ∉ body := fun hmem => hworked.ofBody _ hmem
      have hdisposal : .rollback d r ≠ disposal := by
        rintro rfl
        exact hdisposes
      simp [visit, hearlier, hbody, hdisposal]
    simp only [hfails, hrollback]
    cases b with
    | ok y => simp [takenBack]
    | error e =>
      constructor
      · rintro ⟨r, hmem⟩
        obtain ⟨hrolls, rfl, -⟩ : rollsBack o e = true ∧ d = c ∧ r = taken := by
          simpa [takenBack] using hmem
        obtain ⟨⟨htransaction, hundo⟩, hlost⟩ :
            (o.useTransaction = true ∧ o.rollbackIfError = true) ∧ e.isLost = false := by
          simpa [rollsBack] using hrolls
        exact ⟨htransaction, hundo, e, hlost, rfl, rfl⟩
      · rintro ⟨htransaction, hundo, e', hlost, rfl, he⟩
        obtain rfl := Except.error.inj he
        exact ⟨taken, by simp [takenBack, rollsBack, htransaction, hundo, hlost]⟩

/-- Before the work there is the acquisition of its connection, and no other work before or
after. -/
theorem work_at (hattended : Attended h o total x s events) {pre post : List (Event α)} {d : Connection}
    {r : Except Error α} (hevents : events = pre ++ .work d r :: post) :
    (∀ event ∈ pre ++ post, ¬event.IsWork) ∧
      ∃ earlier, pre = earlier ++ .acquire (.ok d) :: .ping d (.ok true) :: opening o d := by
  cases hattended with
  | unserved hcustody hpreliminary hends =>
    exact (hpreliminary (.work d r) (by simp [hevents])).elim
  | @served c b taken disposal s earlier body hcustody hpreliminary hworked hdisposes =>
    have hearlier : ∀ event ∈ earlier, ¬event.IsWork := fun event hmem hwork =>
      (hpreliminary event hmem).not_ofBody hwork.ofBody
    have hlast : ∀ event ∈ takenBack o c b taken ++ [disposal], ¬event.IsWork := by
      intro event hmem hwork
      obtain htaken | rfl : event ∈ takenBack o c b taken ∨ event = disposal := by simpa using hmem
      · rw [eq_rollback_of_mem htaken] at hwork
        exact hwork
      · exact not_ofBody_of_disposes hdisposes hwork.ofBody
    obtain hnone | ⟨r', later, rfl, hlater⟩ := hworked.work_at
    · have hmem : .work d r ∈ body := by
        rw [← mem_visit_iff hpreliminary hdisposes (by exact trivial), hevents]
        simp
      exact absurd trivial (hnone _ hmem)
    · have hbefore : ∀ event ∈ earlier ++ .acquire (.ok c) :: .ping c (.ok true) :: opening o c,
          ¬event.IsWork := by
        have hopening : ∀ event ∈ opening o c, ¬event.IsWork (α := α) := by
          unfold opening
          split <;> simp [Event.IsWork]
        simpa [or_imp, forall_and, Event.IsWork] using And.intro hearlier hopening
      have hafter : ∀ event ∈ later ++ (takenBack o c b taken ++ [disposal]), ¬event.IsWork := by
        intro event hmem
        obtain hmem | hmem := List.mem_append.mp hmem
        · exact hlater event hmem
        · exact hlast event hmem
      have hsplit : (earlier ++ .acquire (.ok c) :: .ping c (.ok true) :: opening o c) ++ .work c r' ::
          (later ++ (takenBack o c b taken ++ [disposal])) = pre ++ .work d r :: post := by
        rw [← hevents]
        simp [visit]
      obtain ⟨rfl, hwork, rfl⟩ := split_unique hsplit hbefore hafter trivial
      obtain ⟨rfl, -⟩ := Event.work.inj hwork
      refine ⟨fun event hmem => ?_, earlier, rfl⟩
      obtain hmem | hmem := List.mem_append.mp hmem
      · exact hbefore event hmem
      · exact hafter event hmem

end Attended

/-- What a run that raises an error raises: the error of what was done with the connection, or that
there was none. -/
def Failure (h : Handler σ) (total : Nat) (t : σ) (events : List (Event α)) (e : Error) : Prop :=
  (∃ c, FailsOn c events e) ∨ ((∀ event ∈ events, event.Preliminary) ∧
    (e = Handler.lastFailure none events ∨ h.Overrun total t events e))

/-- A run ends with the result of the work if everything went well, and otherwise as the options
say. -/
def Answers (h : Handler σ) (o : RunOptions) (total : Nat) (t : σ) (events : List (Event α))
    (outcome : Except Error (Option α)) : Prop :=
  (∀ y, Succeeds events y → outcome = .ok (some y)) ∧
    ((∀ y, ¬Succeeds events y) → if o.raiseErrors then ∃ e, outcome = .error e ∧
      Failure h total t events e else outcome = .ok none)

/-- An attended run answers as it is to, unless its acquisition ended with an overrun that was to be
silent.
-/
theorem Attended.answers_iff {h : Handler σ} {total : Nat} {t : σ} {events : List (Event α)}
    {x : Except Error (Except Error (Except Error α))} (hattended : Attended h o total x t events) :
    Answers h o total t events (Handler.answer o x) ↔
      ¬(o.raiseErrors = false ∧ ∃ e, h.Overrun total t events e) := by
  cases hattended with
  | @unserved e t events hcustody hpreliminary hends =>
    have hnothing : ∀ y, ¬Succeeds events y := by
      rintro y ⟨⟨c, hmem⟩, -⟩
      exact hpreliminary _ hmem
    obtain ⟨rfl, hall⟩ | ⟨hpasses, hleft, k, hk, hpause⟩ := hends
    · have hpool : (Handler.lastFailure none events).isPool = true :=
        Handler.isPool_lastFailure (by simp) events
      have hover : ∀ e, ¬h.Overrun total t events e := by
        rintro e ⟨hpasses, k, hk, hleft, -⟩
        have hspent := hall hpasses
        omega
      have hanswers : Answers h o total t events
          (Handler.answer o (.error (Handler.lastFailure none events))) := by
        refine ⟨fun y hy => absurd hy (hnothing y), fun _ => ?_⟩
        cases hraise : o.raiseErrors with
        | false => simp [Handler.answer, hpool, hraise]
        | true =>
          simp only [Handler.answer, hraise, if_true]
          exact ⟨_, by simp, .inr ⟨hpreliminary, .inl rfl⟩⟩
      exact iff_of_true hanswers fun hover' => hover'.2.elim hover
    · have hover : h.Overrun total t events e := ⟨hpasses, k, by omega, by omega, hpause⟩
      have hraised : Handler.answer o (.error e : Except Error (Except Error (Except Error α))) =
          .error e := by simp [Handler.answer, hpause.not_isPool]
      rw [hraised]
      cases hraise : o.raiseErrors with
      | false =>
        refine iff_of_false (fun hanswers => ?_) fun hnot => hnot ⟨rfl, e, hover⟩
        have hnone := hanswers.2 hnothing
        simp [hraise] at hnone
      | true =>
        refine iff_of_true ⟨fun y hy => absurd hy (hnothing y), fun _ => ?_⟩ fun hover' => by simp at hover'
        rw [if_pos hraise]
        exact ⟨e, rfl, .inr ⟨hpreliminary, .inr hover⟩⟩
  | @served c b taken disposal t earlier body hcustody hpreliminary hworked hdisposes =>
    have hmem : ∀ event, event.OfBody →
        (event ∈ visit o c b taken disposal earlier body ↔ event ∈ body) :=
      fun event => mem_visit_iff hpreliminary hdisposes
    have hover : ∀ e, ¬h.Overrun total t (visit o c b taken disposal earlier body) e := by
      rintro e ⟨hpasses, -⟩
      have hping : (.ok true : Except Error Bool) = .ok false :=
        hpasses (.ping c (.ok true)) (by simp [visit])
      simp at hping
    refine iff_of_true ?_ fun hover' => hover'.2.elim hover
    unfold Answers
    simp only [succeeds_iff hmem, hworked.succeeds_iff]
    cases b with
    | ok y =>
      refine ⟨fun y' hy => ?_, fun hnot => absurd rfl (hnot y)⟩
      obtain rfl := Except.ok.inj hy
      rfl
    | error e =>
      refine ⟨fun y hy => absurd hy (by simp), fun _ => ?_⟩
      have hfails := (failsOn_iff hmem c e).mpr ((hworked.failsOn_iff c e).mpr ⟨rfl, rfl⟩)
      cases hraise : o.raiseErrors with
      | false => simp [Handler.answer, hraise]
      | true =>
        rw [if_pos rfl]
        exact ⟨e, by simp [Handler.answer, hraise], .inl ⟨c, hfails⟩⟩

/-! ## The whole lifecycle -/

namespace Handler

/-- A run on an adapter that behaves. The four parts of the conclusion after the first, which says
that watching changes nothing, are about what becomes of connections, about the work, about
transactions, and about what the run ends with. -/
theorem run_lifecycle (h : Handler σ) (o : RunOptions) (work : Connection → Act σ α) (s : σ) {n : Int}
    {d : Record} {seen : Except Error (Option α) × Watched σ α} (hretries : h.retryCount = .int n)
    (hdescription : h.adapter.description = .ok d)
    (hseen : seen = (h.watched.run o (Watched.work work)).runOn ⟨s, []⟩)
    (horderly : ∀ event ∈ seen.2.events, event.Orderly) :
    (h.run o work).runOn s = (seen.1, seen.2.state) ∧
    Custody seen.2.events ∧
    (∀ pre c r post, seen.2.events = pre ++ .work c r :: post →
      (∀ event ∈ pre ++ post, ¬event.IsWork) ∧
        ∃ earlier, pre = earlier ++ .acquire (.ok c) :: .ping c (.ok true) :: opening o c) ∧
    (∀ c, ((∃ r, .commit c r ∈ seen.2.events) ↔
        o.useTransaction = true ∧ ∃ x, .work c (.ok x) ∈ seen.2.events) ∧
      ((∃ r, .rollback c r ∈ seen.2.events) ↔
        o.useTransaction = true ∧ o.rollbackIfError = true ∧
          ∃ e, e.isLost = false ∧ FailsOn c seen.2.events e)) ∧
    (Answers h o (n + 1).toNat seen.2.state seen.2.events seen.1 ↔
      ¬(o.raiseErrors = false ∧ ∃ e, h.Overrun (n + 1).toNat seen.2.state seen.2.events e)) := by
  obtain ⟨events, hrun, x, hserved, hanswer⟩ := follows_run h o work ⟨s, []⟩
  rw [hrun, List.nil_append] at hseen
  subst hseen
  have htotal : h.tries = .ok (n + 1).toNat := by simp [tries, hretries]
  have hattended := hserved.attended horderly htotal hdescription
  refine ⟨rfl, hattended.custody, ?_, ?_, ?_⟩
  · intro pre c r post hevents
    exact hattended.work_at hevents
  · intro c
    exact ⟨hattended.commit_iff c, hattended.rollback_iff c⟩
  · simp only [hanswer]
    exact hattended.answers_iff

/-- Failing work, after which the transaction cannot be taken back either. -/
theorem run_lifecycle_failing_work :
    let h : Handler Unit := ⟨.steady (.ok ⟨"conn"⟩) (.error (.general [.text "gone"] [])), .int 3,
      .real (Number.Binary64.zero false)⟩
    let work : Connection → Act Unit Unit := fun _ => throw (.general [.text "no such table"] [])
    let seen := (h.watched.run {} (Watched.work work)).runOn ⟨(), []⟩
    seen.2.events.length = 6 ∧ Custody seen.2.events ∧ Answers h {} 4 () seen.2.events seen.1 := by
  intro h work seen
  have horderly : ∀ event ∈ seen.2.events, event.Orderly := by
    have hevents : seen.2.events = [.acquire (.ok ⟨"conn"⟩), .ping ⟨"conn"⟩ (.ok true),
        .begin ⟨"conn"⟩ (.ok ()), .work ⟨"conn"⟩ (.error (.general [.text "no such table"] [])),
        .rollback ⟨"conn"⟩ (.error (.general [.text "gone"] [])), .release ⟨"conn"⟩ (.ok ())] := rfl
    rw [hevents]
    simp [Event.Orderly, Error.isOrdinary]
  obtain ⟨-, hcustody, -, -, hanswers⟩ := run_lifecycle h {} work () rfl rfl rfl horderly
  exact ⟨rfl, hcustody, hanswers.mpr fun hnot => by simp at hnot⟩

/-- The failure that no connection is free. -/
def noneFree : Error := .pool .exhausted Error.poolDefault [] none

/-- The failure that a pause cannot be computed. -/
def pauseOverflow : Error := .misfit (.range .largeInteger)

/-- A handler that never gets a connection and tries for one so often. -/
def patient (n : Int) : Handler Unit :=
  ⟨.steady (.error noneFree) (.ok ()), .int n, .real (Number.Binary64.zero false)⟩

/-- From any try before the 1025th, the patient handler goes on until the pause overflows. -/
theorem tryAcquire_patient {n : Int} (total m k : Nat) (hk : k + m = 1024) (last : Option Error)
    (w : Watched Unit α) : ∃ events,
      ((patient n).watched.tryAcquire total (m + 1) (k + 1) last).runOn w =
        (.error pauseOverflow, ⟨(), w.events ++ events⟩) ∧
      ∀ event ∈ events, event = .sleep (.ok ()) ∨ event = .acquire (.error noneFree) := by
  induction m generalizing k last w with
  | zero =>
    obtain rfl : k = 1024 := by omega
    have hpause : ((patient n).watched.waitBefore total (1024 + 1) last).runOn w =
        (.error pauseOverflow, w) := by
      rw [waitBefore_succ]
      exact Act.runOn_bind_error (congrArg (·, w) (timesNat_two_pow _ 1024))
    rw [tryAcquire_succ]
    exact ⟨[], (Act.runOn_bind_error hpause).trans (by simp), by simp⟩
  | succ m ih =>
    have hpause : ((patient n).watched.waitBefore total (k + 1) last).runOn w =
        (.ok (), ⟨(), w.events ++ [.sleep (.ok ())]⟩) := by
      rw [waitBefore_succ]
      have hdelay := timesNat_two_pow (Number.Binary64.zero false) k
      rw [if_pos (by omega)] at hdelay
      exact Act.runOn_bind_ok (congrArg (·, w) hdelay)
    rw [tryAcquire_succ, Act.runOn_bind_ok hpause]
    obtain ⟨events, hrun, hevents⟩ := ih (k + 1) (by omega) (some noneFree)
      ⟨(), w.events ++ [.sleep (.ok ())] ++ [.acquire (.error noneFree)]⟩
    refine ⟨[.sleep (.ok ()), .acquire (.error noneFree)] ++ events, ?_, ?_⟩
    · have hacquire : (Act.attempt (patient n).watched.adapter.acquire).runOn
          ⟨(), w.events ++ [.sleep (.ok ())]⟩ = (.ok (.error noneFree),
            ⟨(), w.events ++ [.sleep (.ok ())] ++ [.acquire (.error noneFree)]⟩) := rfl
      rw [Act.runOn_bind_ok hacquire]
      exact hrun.trans (by simp)
    · simpa [or_imp, forall_and] using hevents

/-- With 1025 retries the patient handler never gets a connection, and the pause overflows in the
end. -/
theorem acquire_patient : ∃ events : List (Event α),
    (patient 1025).watched.acquire.runOn ⟨(), []⟩ = (.error pauseOverflow, ⟨(), events⟩) ∧
      ∀ event ∈ events, event = .sleep (.ok ()) ∨ event = .acquire (.error noneFree) := by
  obtain ⟨events, hrun, hevents⟩ := tryAcquire_patient (α := α) (n := 1025) 1026 1024 0 rfl
    (some noneFree) ⟨(), [.acquire (.error noneFree)]⟩
  have htries : (Act.ofExcept ((patient 1025).watched (α := α)).tries).runOn (⟨(), []⟩ : Watched Unit α) =
      (.ok 1026, ⟨(), []⟩) := rfl
  have hwait : (((patient 1025).watched (α := α)).waitBefore 1026 0 none).runOn ⟨(), []⟩ =
      (.ok (), ⟨(), []⟩) := rfl
  have hfirst : (Act.attempt ((patient 1025).watched (α := α)).adapter.acquire).runOn ⟨(), []⟩ =
      (.ok (.error noneFree), ⟨(), [.acquire (.error noneFree)]⟩) := rfl
  refine ⟨.acquire (.error noneFree) :: events, ?_, by simpa using hevents⟩
  unfold acquire
  rw [Act.runOn_bind_ok htries, tryAcquire_succ _ 1026 1025, Act.runOn_bind_ok hwait,
    Act.runOn_bind_ok hfirst]
  exact hrun

/-- After so many tries a run that should have no result raises an error. -/
theorem run_patient_not_none :
    let seen := ((patient 1025).watched.run { raiseErrors := false }
      (Watched.work fun _ => (pure () : Act Unit Unit))).runOn ⟨(), []⟩
    (∀ event ∈ seen.2.events, event.Orderly) ∧ (∀ y, ¬Succeeds seen.2.events y) ∧
      seen.1 = .error pauseOverflow := by
  intro seen
  obtain ⟨events, hacquire, hevents⟩ := acquire_patient (α := Unit)
  have hattempt : (Act.attempt ((patient 1025).watched (α := Unit)).acquire).runOn ⟨(), []⟩ =
      (.ok (.error pauseOverflow), ⟨(), events⟩) := by
    rw [Act.runOn_attempt, hacquire]
  have hseen : seen = (.error pauseOverflow, ⟨(), events⟩) := Act.runOn_bind_ok hattempt
  rw [hseen]
  refine ⟨fun event hmem => ?_, fun y hy => ?_, rfl⟩
  · obtain rfl | rfl := hevents event hmem
    · rfl
    · intro e he
      obtain rfl := Except.error.inj he
      rfl
  · obtain ⟨c, hmem⟩ := hy.1
    obtain hsleep | hacquire := hevents _ hmem
    · exact absurd hsleep (by simp)
    · exact absurd hacquire (by simp)

end Handler

end Quarry
