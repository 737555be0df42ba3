import Quarry.Proofs.Handler.Runs

/-!
# Transactions are over when a connection is given back

Whoever gets a connection next must not find a transaction open on it. So a connection on which one
has begun is given back only when the transaction was committed, or at least the database was told
to take it back (`ClosedOff`). That it is over (`Over`) cannot be promised: taking back may fail,
and the connection is given back all the same.

Nothing is said about interruptions of the work, which take another way.
-/

set_option autoImplicit false

namespace Quarry

variable {σ α : Type}

namespace Event

/-- Whether a connection is given back. -/
def IsRelease : Event α → Prop
  | .release _ _ => True
  | _ => False

/-- Whether the transaction on a connection was committed or told to be taken back. -/
def Closes (c : Connection) : Event α → Prop
  | .commit d r => d = c ∧ r = .ok ()
  | .rollback d _ => d = c
  | _ => False

end Event

/-- Neither the work on the connection nor the commit was interrupted. -/
def Uninterrupted (c : Connection) (events : List (Event α)) : Prop :=
  ∀ e, .work c (.error e) ∈ events ∨ .commit c (.error e) ∈ events → e.isOrdinary = true

/-- A transaction that has begun on a connection is closed before the connection is given back. -/
def ClosedOff (events : List (Event α)) : Prop :=
  ∀ pre c r post, events = pre ++ .release c r :: post → Uninterrupted c pre →
    ∀ earlier rest, pre = earlier ++ .begin c (.ok ()) :: rest → ∃ event ∈ rest, event.Closes c

/-- The transaction is over before the connection is given back. -/
def Over (events : List (Event α)) : Prop :=
  ∀ pre c r post, events = pre ++ .release c r :: post →
    ∀ earlier rest, pre = earlier ++ .begin c (.ok ()) :: rest →
      .commit c (.ok ()) ∈ rest ∨ .rollback c (.ok ()) ∈ rest

/-- What comes last comes after everything else. -/
theorem mem_after {β : Type} {xs earlier rest : List β} {x y : β} (h : xs ++ [x] = earlier ++ y :: rest)
    (hne : x ≠ y) : x ∈ rest := by
  obtain rfl | ⟨front, z, rfl⟩ := List.eq_nil_or_concat rest
  · obtain ⟨-, hxy⟩ := List.append_inj' h rfl
    exact absurd (List.singleton_inj.mp hxy) hne
  · rw [List.concat_eq_append, ← List.cons_append, ← List.append_assoc] at h
    obtain ⟨-, hxz⟩ := List.append_inj' h rfl
    obtain rfl := List.singleton_inj.mp hxz
    simp

variable {o : RunOptions} {c : Connection} {b : Except Error α} {r : Except Error (Except Error α)}
  {body last : List (Event α)}

/-- Before there is a connection none is released. -/
theorem not_isRelease_of_preliminary {event : Event α} (hpreliminary : event.Preliminary) :
    ¬event.IsRelease := by
  intro hrelease
  cases event <;> first | exact hpreliminary | exact hrelease

/-- What is done on a connection does not release it. -/
theorem not_isRelease_of_ofBody {event : Event α} (hbody : event.OfBody) : ¬event.IsRelease := by
  intro hrelease
  cases event <;> first | exact hbody | exact hrelease

/-- A connection that is given back last is the only one that is. -/
theorem release_at {front pre post : List (Event α)} {d : Connection} {rc rd : Except Error Unit}
    (hfront : ∀ event ∈ front, ¬event.IsRelease)
    (h : front ++ [.release c rc] = pre ++ .release d rd :: post) : front = pre ∧ c = d := by
  obtain ⟨hpre, hrelease, -⟩ := split_unique h hfront (by simp) trivial
  exact ⟨hpre, (Event.release.inj hrelease).1⟩

/-- Giving a connection back after the work on it. -/
theorem Closed.closedOff {acquiring : List (Event α)} (htransaction : o.useTransaction = true)
    (hrollback : o.rollbackIfError = true) (hacquiring : ∀ event ∈ acquiring, event.Preliminary)
    (hworked : Worked o c b body) (hclosed : Closed o c b r last) :
    ClosedOff (acquiring ++ (body ++ last)) := by
  intro pre d rd post hevents huninterrupted earlier rest hpre
  have hfront : ∀ event ∈ acquiring ++ body, ¬event.IsRelease := by
    intro event hmem
    obtain hmem | hmem := List.mem_append.mp hmem
    · exact not_isRelease_of_preliminary (hacquiring event hmem)
    · exact not_isRelease_of_ofBody (hworked.ofBody event hmem)
  rw [← List.append_assoc] at hevents
  cases hclosed with
  | succeeded x rc =>
    obtain ⟨rfl, rfl⟩ := release_at hfront hevents
    have hcommit : ∃ front, acquiring ++ body = front ++ [.commit c (.ok ())] := by
      cases hworked
      exact ⟨acquiring ++ (opening o c ++ [.work c (.ok x)]), by simp [closing, htransaction]⟩
    obtain ⟨front, hcommit⟩ := hcommit
    exact ⟨_, mem_after (hcommit.symm.trans hpre) (by simp), rfl, rfl⟩
  | interrupted e hinterrupted rc =>
    obtain ⟨rfl, rfl⟩ := release_at hfront hevents
    cases hworked with
    | unbegun _ =>
      have hmem : .begin c (.ok ()) ∈ acquiring ++ [.begin c (.error e)] := by
        rw [hpre]
        simp
      obtain hmem | hmem := List.mem_append.mp hmem
      · exact (hacquiring _ hmem).elim
      · exact absurd hmem (by simp)
    | undone =>
      have hordinary := huninterrupted e (.inl (by simp))
      simp [hinterrupted] at hordinary
    | uncommitted _ x =>
      have hordinary := huninterrupted e (.inr (by simp))
      simp [hinterrupted] at hordinary
  | failed e hordinary hrolls rc =>
    have hlost : e.isLost = true := by simpa [rollsBack, htransaction, hrollback] using hrolls
    have hmem : .release d rd ∈ acquiring ++ body ++ [disposal c e rc] := by
      rw [hevents]
      simp
    obtain hmem | hmem := List.mem_append.mp hmem
    · exact absurd trivial (hfront _ hmem)
    · simp [disposal, hlost] at hmem
  | rolledBack e hordinary hrolls rb rc =>
    have hfront' : ∀ event ∈ acquiring ++ body ++ [.rollback c rb], ¬event.IsRelease := by
      intro event hmem
      obtain hmem | hmem := List.mem_append.mp hmem
      · exact hfront event hmem
      · rw [List.mem_singleton.mp hmem]
        exact id
    have hevents' : acquiring ++ body ++ [.rollback c rb] ++ [.release c rc] =
        pre ++ .release d rd :: post := by simpa using hevents
    obtain ⟨rfl, rfl⟩ := release_at hfront' hevents'
    exact ⟨_, mem_after hpre (by simp), rfl⟩

namespace Handler

variable {h : Handler σ}

/-- A served run in transactions is closed off. -/
theorem Served.closedOff {x : Except Error (Except Error (Except Error α))} {s : σ}
    {events : List (Event α)} (hserved : h.Served o x s events) (htransaction : o.useTransaction = true)
    (hrollback : o.rollbackIfError = true) : ClosedOff events := by
  have hpreliminary : ∀ events : List (Event α), (∀ event ∈ events, event.Preliminary) →
      ClosedOff events := by
    intro events hall pre c r post hevents
    exact (hall (.release c r) (by simp [hevents])).elim
  cases hserved with
  | uncounted e s htries => exact hpreliminary [] (by simp)
  | unserved htries htried => exact hpreliminary _ htried.preliminary
  | served htries htried hworked hclosed =>
    exact hclosed.closedOff htransaction hrollback htried.preliminary hworked

/-- On no adapter and for no work a connection is given back with a transaction on it that nobody
has tried to close. -/
theorem run_closedOff (h : Handler σ) (work : Connection → Act σ α) (s : σ) :
    (∀ o : RunOptions, o.useTransaction = true → o.rollbackIfError = true →
      let seen := (h.watched.run o (Watched.work work)).runOn ⟨s, []⟩
      (h.run o work).runOn s = (seen.1, seen.2.state) ∧ ClosedOff seen.2.events) ∧
    let seen := (h.watched.transaction (Watched.work work)).runOn ⟨s, []⟩
    (h.transaction work).runOn s = (seen.1, seen.2.state) ∧ ClosedOff seen.2.events := by
  constructor
  · intro o htransaction hrollback
    obtain ⟨events, hrun, x, hserved, -⟩ := follows_run h o work ⟨s, []⟩
    rw [hrun]
    exact ⟨rfl, by simpa using hserved.closedOff htransaction hrollback⟩
  · obtain ⟨events, hrun, x, hserved, -⟩ := follows_transaction h work ⟨s, []⟩
    rw [hrun]
    exact ⟨rfl, by simpa using hserved.closedOff rfl rfl⟩

/-- A handler on whose adapter no transaction can be taken back. -/
def stuck : Handler Unit :=
  ⟨.steady (.ok ⟨"conn"⟩) (.error (.general [.text "socket closed"] [])),
    .int 3, .real (Number.Binary64.zero false)⟩

/-- Work that ends with an error. -/
def failing (e : Error) : Connection → Act Unit Unit := fun _ => throw e

/-- A run whose rollback fails is closed off as well. -/
theorem run_closedOff_stuck :
    let seen := (stuck.watched.run {} (Watched.work (failing (.general [.text "bad"] [])))).runOn ⟨(), []⟩
    (stuck.run {} (failing (.general [.text "bad"] []))).runOn () = (seen.1, seen.2.state) ∧
      ClosedOff seen.2.events :=
  (run_closedOff stuck (failing (.general [.text "bad"] [])) ()).1 {} rfl rfl

/-- The transaction is not over where it cannot be taken back, nor after work that was cancelled. -/
theorem run_not_over :
    ¬Over ((stuck.watched.run {} (Watched.work (failing (.general [.text "bad"] [])))).runOn
      ⟨(), []⟩).2.events ∧
    ¬Over ((stuck.watched.transaction (Watched.work (failing (.cancelled [])))).runOn ⟨(), []⟩).2.events := by
  constructor
  · intro hover
    have hlast := hover [.acquire (.ok ⟨"conn"⟩), .ping ⟨"conn"⟩ (.ok true), .begin ⟨"conn"⟩ (.ok ()),
      .work ⟨"conn"⟩ (.error (.general [.text "bad"] [])),
      .rollback ⟨"conn"⟩ (.error (.general [.text "socket closed"] []))] ⟨"conn"⟩ (.ok ()) [] rfl
      [.acquire (.ok ⟨"conn"⟩), .ping ⟨"conn"⟩ (.ok true)] _ rfl
    simp at hlast
  · intro hover
    have hlast := hover [.acquire (.ok ⟨"conn"⟩), .ping ⟨"conn"⟩ (.ok true), .begin ⟨"conn"⟩ (.ok ()),
      .work ⟨"conn"⟩ (.error (.cancelled []))] ⟨"conn"⟩ (.ok ()) [] rfl
      [.acquire (.ok ⟨"conn"⟩), .ping ⟨"conn"⟩ (.ok true)] _ rfl
    simp at hlast

end Handler

end Quarry
