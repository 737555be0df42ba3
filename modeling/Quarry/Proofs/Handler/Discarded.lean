import Quarry.Proofs.Handler.Clean
import Quarry.Proofs.Handler.Lifecycle

/-!
# Lost connections are not given back

A connection that was lost is of no use to anybody, so it must be destroyed and not be given back
(`DiscardsLost`). A handler sees to that when the connection is lost at the beginning of a
transaction, in the work, or in the commit, whatever its options say. What it overlooks is a loss
while a transaction is taken back: that failure is logged and forgotten, and the dead connection is
given back.
-/

set_option autoImplicit false

namespace Quarry

variable {σ α : Type}

/-- Whether the connection was lost in what was done with it. -/
def Event.Loses (c : Connection) : Event α → Prop
  | .begin d (.error e) => d = c ∧ e.isLost = true
  | .work d (.error e) => d = c ∧ e.isLost = true
  | .commit d (.error e) => d = c ∧ e.isLost = true
  | .rollback d (.error e) => d = c ∧ e.isLost = true
  | _ => False

/-- A connection that was lost is destroyed after that, and it is never given back. -/
def DiscardsLost (events : List (Event α)) : Prop :=
  ∀ pre event post c, events = pre ++ event :: post → event.Loses c →
    (∃ r, .destroy c r ∈ post) ∧ ∀ r, .release c r ∉ events

/-- No connection was lost while a transaction was taken back. -/
def RollbacksKeep (events : List (Event α)) : Prop :=
  ∀ c e, .rollback c (.error e) ∈ events → e.isLost = false

/-- The loss of a connection is an ordinary error. -/
theorem isOrdinary_of_isLost {e : Error} (hlost : e.isLost = true) : e.isOrdinary = true := by
  cases e with
  | cancelled args => exact absurd hlost (by simp [Error.isLost])
  | _ => rfl

/-- Before there is a connection none is lost. -/
theorem Event.Preliminary.not_loses {event : Event α} (hpreliminary : event.Preliminary)
    (c : Connection) : ¬event.Loses c := by
  intro hloses
  cases event <;> first | exact hpreliminary | exact hloses

/-- Where no connection is lost, all lost ones are discarded. -/
theorem discardsLost_of_forall {events : List (Event α)}
    (hnone : ∀ event ∈ events, ∀ c, ¬event.Loses c) : DiscardsLost events := by
  rintro pre event post c rfl hloses
  exact absurd hloses (hnone event (by simp) c)

/-- Where no connection is lost, none is lost by a rollback. -/
theorem rollbacksKeep_of_forall {events : List (Event α)}
    (hnone : ∀ event ∈ events, ∀ c, ¬event.Loses c) : RollbacksKeep events := by
  intro c e hmem
  cases hlost : e.isLost with
  | false => rfl
  | true => exact absurd ⟨rfl, hlost⟩ (hnone _ hmem c)

variable {o : RunOptions} {c : Connection} {b : Except Error α} {r : Except Error (Except Error α)}
  {acquiring body last : List (Event α)}

/-- A loss in the work with the transaction around it is how that has ended. -/
theorem Worked.of_loses {event : Event α} {d : Connection} (hworked : Worked o c b body)
    (hmem : event ∈ body) (hloses : event.Loses d) : d = c ∧ ∃ e, b = .error e ∧ e.isLost = true := by
  have hfails : ∃ e, e.isLost = true ∧ FailsOn d body e := by
    have hbody := hworked.ofBody event hmem
    unfold Event.Loses at hloses
    split at hloses
    · obtain ⟨rfl, hlost⟩ := hloses
      exact ⟨_, hlost, .inl hmem⟩
    · obtain ⟨rfl, hlost⟩ := hloses
      exact ⟨_, hlost, .inr (.inl hmem)⟩
    · obtain ⟨rfl, hlost⟩ := hloses
      exact ⟨_, hlost, .inr (.inr hmem)⟩
    · exact hbody.elim
    · exact hloses.elim
  obtain ⟨e, hlost, hfails⟩ := hfails
  obtain ⟨rfl, hb⟩ := (hworked.failsOn_iff d e).mp hfails
  exact ⟨rfl, e, hb, hlost⟩

/-- After work that has not ended with the loss of the connection, it may only be lost later. -/
theorem Worked.not_loses (hworked : Worked o c b body)
    (hacquiring : ∀ event ∈ acquiring, event.Preliminary)
    (hkept : ∀ e, b = .error e → e.isLost = false) :
    ∀ event ∈ acquiring ++ body, ∀ d, ¬event.Loses d := by
  intro event hmem d hloses
  obtain hmem | hmem := List.mem_append.mp hmem
  · exact (hacquiring event hmem).not_loses d hloses
  · obtain ⟨-, e, hb, hlost⟩ := hworked.of_loses hmem hloses
    simp [hkept e hb] at hlost

/-- The work releases no connection. -/
theorem not_isRelease_of_worked (hacquiring : ∀ event ∈ acquiring, event.Preliminary)
    (hworked : Worked o c b body) : ∀ event ∈ acquiring ++ body, ¬event.IsRelease := by
  intro event hmem
  obtain hmem | hmem := List.mem_append.mp hmem
  · exact not_isRelease_of_preliminary (hacquiring event hmem)
  · exact not_isRelease_of_ofBody (hworked.ofBody event hmem)

/-- A connection that was lost in the work is destroyed last. -/
theorem Worked.discardsLost {e : Error} (hacquiring : ∀ event ∈ acquiring, event.Preliminary)
    (hworked : Worked o c (.error e : Except Error α) body) (rc : Except Error Unit) :
    DiscardsLost (acquiring ++ body ++ [.destroy c rc]) := by
  intro pre event post d hevents hloses
  have hne : .destroy c rc ≠ event := by
    rintro rfl
    exact hloses
  have hmem : event ∈ acquiring ++ body := by
    have hall : event ∈ acquiring ++ body ++ [.destroy c rc] := by simp [hevents]
    obtain hmem | hmem := List.mem_append.mp hall
    · exact hmem
    · exact absurd (List.mem_singleton.mp hmem).symm hne
  have hd : d = c := by
    obtain hmem | hmem := List.mem_append.mp hmem
    · exact absurd hloses ((hacquiring event hmem).not_loses d)
    · exact (hworked.of_loses hmem hloses).1
  subst hd
  refine ⟨⟨rc, mem_after hevents hne⟩, fun r hrelease => ?_⟩
  obtain hrelease | hrelease := List.mem_append.mp hrelease
  · exact not_isRelease_of_worked hacquiring hworked _ hrelease trivial
  · simp at hrelease

/-- Giving a connection up after the work on it. -/
theorem Closed.discardsLost_iff (hacquiring : ∀ event ∈ acquiring, event.Preliminary)
    (hworked : Worked o c b body) (hclosed : Closed o c b r last) :
    DiscardsLost (acquiring ++ body ++ last) ↔ RollbacksKeep (acquiring ++ body ++ last) := by
  -- where nothing is lost both sides hold
  have hkept : ∀ {last : List (Event α)}, (∀ e, b = .error e → e.isLost = false) →
      (∀ event ∈ last, ∀ d, ¬event.Loses d) →
      (DiscardsLost (acquiring ++ body ++ last) ↔ RollbacksKeep (acquiring ++ body ++ last)) := by
    intro last hb hlast
    have hnone : ∀ event ∈ acquiring ++ body ++ last, ∀ d, ¬event.Loses d := by
      intro event hmem
      obtain hmem | hmem := List.mem_append.mp hmem
      · exact hworked.not_loses hacquiring hb event hmem
      · exact hlast event hmem
    exact iff_of_true (discardsLost_of_forall hnone) (rollbacksKeep_of_forall hnone)
  cases hclosed with
  | succeeded x rc => exact hkept (by simp) (by simp [Event.Loses])
  | interrupted e hinterrupted rc =>
    refine hkept (fun e' he => ?_) (by simp [Event.Loses])
    obtain rfl := Except.error.inj he
    cases hlost : e.isLost with
    | false => rfl
    | true => simp [isOrdinary_of_isLost hlost] at hinterrupted
  | failed e hordinary hrolls rc =>
    cases hlost : e.isLost with
    | false =>
      have hrelease : disposal (α := α) c e rc = .release c rc := by simp [disposal, hlost]
      rw [hrelease]
      exact hkept (by simp [hlost]) (by simp [Event.Loses])
    | true =>
      have hdestroy : disposal (α := α) c e rc = .destroy c rc := by simp [disposal, hlost]
      rw [hdestroy]
      refine iff_of_true (hworked.discardsLost hacquiring rc) fun d e' hmem => ?_
      have hnone : .rollback d (.error e') ∉ acquiring ++ body := by
        intro hmem
        obtain hmem | hmem := List.mem_append.mp hmem
        · exact hacquiring _ hmem
        · exact hworked.ofBody _ hmem
      obtain hmem | hmem := List.mem_append.mp hmem
      · exact absurd hmem hnone
      · simp at hmem
  | rolledBack e hordinary hrolls rb rc =>
    have hlost : e.isLost = false := by
      simp only [rollsBack, Bool.and_eq_true, Bool.not_eq_true'] at hrolls
      exact hrolls.2
    by_cases hloses : (Event.rollback (α := α) c rb).Loses c
    · refine iff_of_false (fun hdiscards => ?_) fun hkeep => ?_
      · obtain ⟨⟨rd, hmem⟩, -⟩ := hdiscards (acquiring ++ body) _ [.release c rc] c (by simp) hloses
        simp at hmem
      · cases rb with
        | ok u => exact hloses
        | error e' =>
          have hkept := hkeep c e' (by simp)
          simp [hloses.2] at hkept
    · refine hkept (by simp [hlost]) ?_
      have hrollback : ∀ d, ¬(Event.rollback (α := α) c rb).Loses d := by
        intro d hd
        cases rb with
        | ok u => exact hd
        | error e' => exact hloses ⟨rfl, hd.2⟩
      simpa [Event.Loses] using hrollback

namespace Handler

variable {h : Handler σ}

/-- A served run discards lost connections exactly if no rollback loses one. -/
theorem Served.discardsLost_iff {x : Except Error (Except Error (Except Error α))} {s : σ}
    {events : List (Event α)} (hserved : h.Served o x s events) :
    DiscardsLost events ↔ RollbacksKeep events := by
  have hpreliminary : ∀ {events : List (Event α)}, (∀ event ∈ events, event.Preliminary) →
      (DiscardsLost events ↔ RollbacksKeep events) := by
    intro events hall
    have hnone : ∀ event ∈ events, ∀ c, ¬event.Loses c := fun event hmem =>
      (hall event hmem).not_loses
    exact iff_of_true (discardsLost_of_forall hnone) (rollbacksKeep_of_forall hnone)
  cases hserved with
  | uncounted e s htries => exact hpreliminary (by simp)
  | unserved htries htried => exact hpreliminary htried.preliminary
  | served htries htried hworked hclosed =>
    rw [← List.append_assoc]
    exact hclosed.discardsLost_iff htried.preliminary hworked

/-- On every adapter and for all work and options, a connection that was lost is destroyed and not
given back, exactly if none was lost while a transaction was taken back. -/
theorem run_discardsLost_iff (h : Handler σ) (work : Connection → Act σ α) (s : σ) :
    (∀ o : RunOptions,
      let seen := (h.watched.run o (Watched.work work)).runOn ⟨s, []⟩
      (h.run o work).runOn s = (seen.1, seen.2.state) ∧
        (DiscardsLost seen.2.events ↔ RollbacksKeep seen.2.events)) ∧
    let seen := (h.watched.transaction (Watched.work work)).runOn ⟨s, []⟩
    (h.transaction work).runOn s = (seen.1, seen.2.state) ∧
      (DiscardsLost seen.2.events ↔ RollbacksKeep seen.2.events) := by
  constructor
  · intro o
    obtain ⟨events, hrun, x, hserved, -⟩ := follows_run h o work ⟨s, []⟩
    rw [hrun]
    exact ⟨rfl, by simpa using hserved.discardsLost_iff⟩
  · obtain ⟨events, hrun, x, hserved, -⟩ := follows_transaction h work ⟨s, []⟩
    rw [hrun]
    exact ⟨rfl, by simpa using hserved.discardsLost_iff⟩

/-- The failure that the connection is gone. -/
def goneAway : Error := .pool .lost (.text "gone away") [] none

/-- A handler on whose adapter taking back a transaction always ends in some way. -/
def rollingBack (outcome : Except Error Unit) : Handler Unit :=
  ⟨.steady (.ok ⟨"conn"⟩) outcome, .int 3, .real (Number.Binary64.zero false)⟩

/-- Where taking back a transaction loses nothing, a connection that is lost in the work is
destroyed. -/
theorem run_discardsLost_goneAway :
    let seen := ((rollingBack (.ok ())).watched.run {} (Watched.work (failing goneAway))).runOn ⟨(), []⟩
    RollbacksKeep seen.2.events ∧ .work ⟨"conn"⟩ (.error goneAway) ∈ seen.2.events ∧
      DiscardsLost seen.2.events := by
  intro seen
  have hevents : seen.2.events = [.acquire (.ok ⟨"conn"⟩), .ping ⟨"conn"⟩ (.ok true),
      .begin ⟨"conn"⟩ (.ok ()), .work ⟨"conn"⟩ (.error goneAway), .destroy ⟨"conn"⟩ (.ok ())] := rfl
  have hkeep : RollbacksKeep seen.2.events := by
    rw [hevents]
    intro c e hmem
    simp at hmem
  refine ⟨hkeep, by simp [hevents], ?_⟩
  exact (((run_discardsLost_iff (rollingBack (.ok ())) (failing goneAway) ()).1 {}).2).mpr hkeep

/-- A connection that is lost while a transaction is taken back is given back. -/
theorem run_not_discardsLost :
    let seen := ((rollingBack (.error goneAway)).watched.run {}
      (Watched.work (failing (.general [.text "bad"] [])))).runOn ⟨(), []⟩
    ¬DiscardsLost seen.2.events ∧ .release ⟨"conn"⟩ (.ok ()) ∈ seen.2.events := by
  intro seen
  have hevents : seen.2.events = [.acquire (.ok ⟨"conn"⟩), .ping ⟨"conn"⟩ (.ok true),
      .begin ⟨"conn"⟩ (.ok ()), .work ⟨"conn"⟩ (.error (.general [.text "bad"] [])),
      .rollback ⟨"conn"⟩ (.error goneAway), .release ⟨"conn"⟩ (.ok ())] := rfl
  have hreleased : .release ⟨"conn"⟩ (.ok ()) ∈ seen.2.events := by simp [hevents]
  refine ⟨fun hdiscards => ?_, hreleased⟩
  have hlost := hdiscards [.acquire (.ok ⟨"conn"⟩), .ping ⟨"conn"⟩ (.ok true),
    .begin ⟨"conn"⟩ (.ok ()), .work ⟨"conn"⟩ (.error (.general [.text "bad"] []))]
    (.rollback ⟨"conn"⟩ (.error goneAway)) [.release ⟨"conn"⟩ (.ok ())] ⟨"conn"⟩ hevents ⟨rfl, rfl⟩
  exact hlost.2 _ hreleased

end Handler

end Quarry
