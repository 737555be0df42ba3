import Quarry.Proofs.Handler.Lifecycle

/-!
# Errors that escape

A run whose options say that errors are not raised has no result where the work fails, or where
there is no connection. But it stands guard only over a part of what it does: an error of asking a
connection whether it lives, of destroying one or of giving one back is raised all the same.
`run_raises_iff` says exactly which errors a run raises on an adapter that may fail everywhere, if
only in ordinary ways.
-/

set_option autoImplicit false

namespace Quarry

variable {σ α : Type}

namespace Event

/-- Operations may fail in ordinary ways, and waiting does not fail. -/
def FailsOrdinarily : Event α → Prop
  | .sleep r => r = .ok ()
  | .acquire r => ∀ e, r = .error e → e.isOrdinary = true
  | .ping _ r => ∀ e, r = .error e → e.isOrdinary = true
  | .begin _ r => ∀ e, r = .error e → e.isOrdinary = true
  | .work _ r => ∀ e, r = .error e → e.isOrdinary = true
  | .commit _ r => ∀ e, r = .error e → e.isOrdinary = true
  | .rollback _ r => ∀ e, r = .error e → e.isOrdinary = true
  | .release _ r => ∀ e, r = .error e → e.isOrdinary = true
  | .destroy _ r => ∀ e, r = .error e → e.isOrdinary = true

/-- Whether this fails with an error where no one stands guard. -/
def Unguarded (e : Error) : Event α → Prop
  | .ping _ r => r = .error e
  | .release _ r => r = .error e
  | .destroy _ r => r = .error e
  | _ => False

/-- What fails in an ordinary way, and not unguarded, is orderly. -/
theorem orderly_of_guarded {event : Event α} (hordinary : event.FailsOrdinarily)
    (hguarded : ∀ e, ¬event.Unguarded e) : event.Orderly := by
  cases event with
  | ping c r =>
    cases r with
    | ok alive => exact ⟨alive, rfl⟩
    | error e => exact (hguarded e rfl).elim
  | release c r =>
    cases r with
    | ok u => rfl
    | error e => exact (hguarded e rfl).elim
  | destroy c r =>
    cases r with
    | ok u => rfl
    | error e => exact (hguarded e rfl).elim
  | _ => exact hordinary

/-- What is orderly does not fail unguarded. -/
theorem Orderly.guarded {event : Event α} (horderly : event.Orderly) (e : Error) :
    ¬event.Unguarded e := by
  intro hunguarded
  cases event with
  | ping c r =>
    obtain ⟨alive, rfl⟩ := horderly
    exact absurd hunguarded (by simp [Unguarded])
  | release c r =>
    obtain rfl : r = .ok () := horderly
    exact absurd hunguarded (by simp [Unguarded])
  | destroy c r =>
    obtain rfl : r = .ok () := horderly
    exact absurd hunguarded (by simp [Unguarded])
  | _ => exact hunguarded

end Event

/-- An error that no one stood guard over. -/
def Unguarded (events : List (Event α)) (e : Error) : Prop :=
  ∃ event ∈ events, event.Unguarded e

/-- An error that a run raises whatever its options say: no one stood guard over it. But for want of
a connection there is no result, if there was none. -/
def Escapes (events : List (Event α)) (e : Error) : Prop :=
  Unguarded events e ∧ (e.isPool = true → ∃ event ∈ events, event.OfBody)

namespace Unguarded

variable {events later : List (Event α)} {event : Event α} {e : Error}

/-- Nothing fails unguarded where nothing happens. -/
@[simp] theorem nil_iff : ¬Unguarded ([] : List (Event α)) e := by simp [Unguarded]

/-- Something fails unguarded first or later. -/
@[simp] theorem cons_iff :
    Unguarded (event :: events) e ↔ event.Unguarded e ∨ Unguarded events e := by
  simp [Unguarded]

/-- Something fails unguarded before or after. -/
@[simp] theorem append_iff :
    Unguarded (events ++ later) e ↔ Unguarded events e ∨ Unguarded later e := by
  simp [Unguarded, or_and_right, exists_or]

/-- Waiting does not fail unguarded. -/
@[simp] theorem waited_iff (n : Nat) : ¬Unguarded (Handler.waited n : List (Event α)) e := by
  rintro ⟨event, hmem, hunguarded⟩
  rw [Handler.mem_waited hmem] at hunguarded
  exact hunguarded

end Unguarded

/-! ## Where errors escape -/

namespace Handler

variable {h : Handler σ} {o : RunOptions}

/-- While a connection is tried for, an unguarded error is the last thing that happens. -/
theorem Tried.unguarded_iff {left n : Nat} {last : Option Error} {r : Except Error Connection} {s : σ}
    {events : List (Event α)} (htried : h.Tried left n last r s events) :
    (∀ e, ¬Unguarded events e) ∨ ∃ e, r = .error e ∧ ∀ e', Unguarded events e' ↔ e' = e := by
  induction htried with
  | spent | unpaused | unslept | refused | interrupted | alive =>
    exact .inl fun e => by simp [Event.Unguarded]
  | passing last htransient hrest ih => simpa [Event.Unguarded] using ih
  | unanswered left n last c e s => exact .inr ⟨e, rfl, by simp [Event.Unguarded, eq_comm]⟩
  | undestroyed left n last c e s => exact .inr ⟨e, rfl, by simp [Event.Unguarded, eq_comm]⟩
  | dead last c hrest ih => simpa [Event.Unguarded] using ih

end Handler

section

variable {o : RunOptions} {c : Connection} {b : Except Error α} {body last : List (Event α)}
  {r : Except Error (Except Error α)}

/-- What is done on a connection is guarded. -/
theorem Worked.guarded (hworked : Worked o c b body) (e : Error) : ¬Unguarded body e := by
  rintro ⟨event, hmem, hunguarded⟩
  have hbody := hworked.ofBody event hmem
  cases event <;> first | exact hunguarded | exact hbody

/-- Something is done on a connection. -/
theorem Worked.exists_ofBody (hworked : Worked o c b body) : ∃ event ∈ body, event.OfBody := by
  cases hworked with
  | unbegun htransaction e => exact ⟨.begin c (.error e), by simp, trivial⟩
  | undone e => exact ⟨.work c (.error e), by simp, trivial⟩
  | uncommitted htransaction x e => exact ⟨.commit c (.error e), by simp, trivial⟩
  | done x => exact ⟨.work c (.ok x), by simp, trivial⟩

/-- If all that is done fails in ordinary ways, so does the whole. -/
theorem Worked.isOrdinary (hworked : Worked o c b body)
    (hordinary : ∀ event ∈ body, event.FailsOrdinarily) (e : Error) (hb : b = .error e) :
    e.isOrdinary = true := by
  obtain hmem | hmem | hmem := (hworked.failsOn_iff c e).mpr ⟨rfl, hb⟩
  · exact hordinary (.begin c (.error e)) hmem e rfl
  · exact hordinary (.work c (.error e)) hmem e rfl
  · exact hordinary (.commit c (.error e)) hmem e rfl

/-- After the work it is giving up the connection that is unguarded, and a run without errors has
the result of the work or none. -/
theorem Closed.exists_disposal (hraise : o.raiseErrors = false) (hclosed : Closed o c b r last)
    (hwork : ∀ e, b = .error e → e.isOrdinary = true)
    (hlast : ∀ event ∈ last, event.FailsOrdinarily) :
    ∃ given : Except Error Unit, (∀ e, Unguarded last e ↔ given = .error e) ∧
      Handler.answer o (.ok r) = given.map fun _ => b.toOption := by
  cases hclosed with
  | succeeded x given =>
    refine ⟨given, by simp [Event.Unguarded], ?_⟩
    cases given <;> rfl
  | interrupted e hinterrupted given => exact absurd (hwork e rfl) (by simp [hinterrupted])
  | failed e hordinary hrolls given =>
    refine ⟨given, ?_, ?_⟩
    · unfold disposal
      split <;> simp [Event.Unguarded]
    · cases given <;> simp [Handler.answer, Except.map, Except.toOption, hraise]
  | rolledBack e hordinary hrolls rolled given =>
    have hquiet : quiet rolled = .ok () := by
      cases rolled with
      | ok u => rfl
      | error e' => simp [quiet, hlast (.rollback c (.error e')) (by simp) e' rfl]
    refine ⟨given, by simp [Event.Unguarded], ?_⟩
    cases given <;> simp [Handler.answer, Except.map, Except.bind, Except.toOption, hraise, hquiet]

end

namespace Handler

variable {h : Handler σ} {o : RunOptions}

/-- A pause fails with one error. -/
theorem PauseFails.unique {s : σ} {k : Nat} {e e' : Error} (hpause : h.PauseFails s k e)
    (hpause' : h.PauseFails s k e') : e = e' := by
  obtain herror | ⟨delay, hdelay, -, -, herror⟩ := hpause <;>
    obtain herror' | ⟨delay', hdelay', -, -, herror'⟩ := hpause'
  · exact Except.error.inj (herror.symm.trans herror')
  · exact absurd (herror.symm.trans hdelay') (by simp)
  · exact absurd (hdelay.symm.trans herror') (by simp)
  · obtain rfl := Except.ok.inj (hdelay.symm.trans hdelay')
    exact Except.error.inj (herror.symm.trans herror')

/-- An overrun has one error. -/
theorem Overrun.unique {total : Nat} {s : σ} {events : List (Event α)} {e e' : Error}
    (hover : h.Overrun total s events e) (hover' : h.Overrun total s events e') : e = e' := by
  obtain ⟨-, k, hk, -, hpause⟩ := hover
  obtain ⟨-, k', hk', -, hpause'⟩ := hover'
  obtain rfl : k = k' := by omega
  exact hpause.unique hpause'

/-- An error that a run raises although its options say that it raises none: it escapes, or nothing
else fails and it is that a pause cannot be computed. -/
def Raised (h : Handler σ) (total : Nat) (s : σ) (events : List (Event α)) (e : Error) : Prop :=
  Escapes events e ∨ ((∀ event ∈ events, event.Orderly) ∧ h.Overrun total s events e)

/-- What a run without errors ends with after all. -/
structure Quiet (h : Handler σ) (total : Nat) (s : σ) (events : List (Event α))
    (outcome : Except Error (Option α)) : Prop where
  /-- The errors that are raised nevertheless. -/
  raises : ∀ e, outcome = .error e ↔ h.Raised total s events e
  /-- The result of work that succeeds. -/
  result : (∀ e, outcome ≠ .error e) → ∀ y, Succeeds events y → outcome = .ok (some y)
  /-- There is none where nothing succeeds. -/
  nothing : (∀ e, outcome ≠ .error e) → (∀ y, ¬Succeeds events y) → outcome = .ok none

section

variable {total : Nat} {s : σ} {events : List (Event α)} {e : Error}

/-- A single raised error is the outcome. -/
theorem Quiet.of_raised (hraised : ∀ e', h.Raised total s events e' ↔ e' = e) :
    h.Quiet total s events (.error e) where
  raises e' := by simp [hraised, eq_comm]
  result hreturns := absurd rfl (hreturns e)
  nothing hreturns := absurd rfl (hreturns e)

/-- Where nothing is raised, the outcome is that of the work. -/
theorem Quiet.of_not_raised {y : Option α} (hraised : ∀ e, ¬h.Raised total s events e)
    (hsucceeds : ∀ x, Succeeds events x ↔ y = some x) : h.Quiet total s events (.ok y) where
  raises e := by simp [hraised]
  result _ x hx := by rw [(hsucceeds x).mp hx]
  nothing _ hfails := by
    cases y with
    | none => rfl
    | some x => exact absurd ((hsucceeds x).mpr rfl) (hfails x)

/-- Where there is no connection the one error to be raised is that of asking for one, if that is
not that there is none. The two ways to fail exclude each other: what escapes is not orderly. -/
theorem Tried.raised_iff {d : Record} (hdescription : h.adapter.description = .ok d)
    (htried : h.Tried total 0 none (.error e) s events)
    (hordinary : ∀ event ∈ events, event.FailsOrdinarily) (e' : Error) :
    h.Raised total s events e' ↔ e' = e ∧ e.isPool = false := by
  have hnone : ¬∃ event ∈ events, event.OfBody := by
    rintro ⟨event, hmem, hbody⟩
    exact (htried.preliminary event hmem).not_ofBody hbody
  obtain hguarded | ⟨_, he, hunguarded⟩ := htried.unguarded_iff
  · have horderly : ∀ event ∈ events, event.Orderly := fun event hmem =>
      Event.orderly_of_guarded (hordinary event hmem) fun e hevent => hguarded e ⟨event, hmem, hevent⟩
    have hraised : h.Raised total s events e' ↔ h.Overrun total s events e' := by
      simp [Raised, Escapes, hguarded e', and_iff_right horderly]
    rw [hraised]
    obtain ⟨rfl, hcount⟩ | ⟨hpasses, hleft, k, hk, hpause⟩ := htried.ends horderly hdescription
    · -- all tries are spent, so that it is the last failure, and none of them was overrun
      have hpool : (lastFailure none events).isPool = true := isPool_lastFailure (by simp) events
      refine iff_of_false ?_ (by simp [hpool])
      rintro ⟨hpasses, k, hk, hleft, -⟩
      have hspent := hcount hpasses
      omega
    · have hover : h.Overrun total s events e := ⟨hpasses, k, by omega, by omega, hpause⟩
      rw [and_iff_left hpause.not_isPool]
      constructor
      · exact fun hover' => hover'.unique hover
      · rintro rfl
        exact hover
  · obtain rfl := Except.error.inj he
    have hdisorderly : ¬∀ event ∈ events, event.Orderly := by
      intro horderly
      obtain ⟨event, hmem, hevent⟩ := (hunguarded e).mpr rfl
      exact (horderly event hmem).guarded e hevent
    have hescapes : Escapes events e' ↔ e' = e ∧ e'.isPool = false := by
      simp [Escapes, hunguarded, hnone]
    rw [Raised, hescapes, or_iff_left fun hover => hdisorderly hover.1]
    exact and_congr_right fun heq => by rw [heq]

/-- Without a connection the outcome is quiet. -/
theorem quiet_of_unserved {d : Record} (hraise : o.raiseErrors = false)
    (hdescription : h.adapter.description = .ok d) (htried : h.Tried total 0 none (.error e) s events)
    (hordinary : ∀ event ∈ events, event.FailsOrdinarily) :
    h.Quiet total s events (answer o (.error e)) := by
  have hraised := htried.raised_iff hdescription hordinary
  cases hpool : e.isPool with
  | true =>
    have hfails : ∀ y, ¬Succeeds events y := by
      rintro y ⟨⟨c, hmem⟩, -⟩
      exact (htried.preliminary _ hmem).not_ofBody trivial
    have hanswer : answer o (.error e : Except Error (Except Error (Except Error α))) = .ok none := by
      simp [answer, hpool, hraise]
    rw [hanswer]
    exact .of_not_raised (fun e' => by simp [hraised, hpool]) fun y => by simp [hfails]
  | false =>
    have hanswer : answer o (.error e : Except Error (Except Error (Except Error α))) = .error e := by
      simp [answer, hpool]
    rw [hanswer]
    exact .of_raised fun e' => by simp [hraised, hpool]

end

section

variable {total : Nat} {c : Connection} {t s : σ} {b : Except Error α} {r : Except Error (Except Error α)}
  {acquiring body last : List (Event α)}

/-- With a connection there was no overrun. -/
theorem not_overrun_of_served (htried : h.Tried total 0 none (.ok c) t acquiring) (e : Error) :
    ¬h.Overrun total s (acquiring ++ (body ++ last)) e := by
  rintro ⟨hpasses, -⟩
  obtain ⟨⟨earlier, -, hearlier⟩, -⟩ | ⟨earlier, c', e', -, hr, -⟩ := htried.handsOver_or_abandons
  · have hping : (.ok true : Except Error Bool) = .ok false :=
      hpasses (.ping c (.ok true)) (by simp [hearlier])
    exact absurd hping (by simp)
  · exact absurd hr (by simp)

/-- With a connection the work succeeds exactly if what is done on it does. -/
theorem succeeds_iff_of_served (htried : h.Tried total 0 none (.ok c) t acquiring)
    (hbody : Worked o c b body) (hlast : Closed o c b r last) (y : α) :
    Succeeds (acquiring ++ (body ++ last)) y ↔ b = .ok y := by
  rw [← hbody.succeeds_iff y]
  refine Attended.succeeds_iff (fun event hevent => ?_) y
  have hfirst : event ∉ acquiring := fun hmem => (htried.preliminary event hmem).not_ofBody hevent
  have hbehind : event ∉ last := fun hmem => (hlast.givesUp event hmem).not_ofBody hevent
  simp [hfirst, hbehind]

/-- A run that comes to have a connection raises what giving it up raises. -/
theorem quiet_of_served (hraise : o.raiseErrors = false)
    (htried : h.Tried total 0 none (.ok c) t acquiring) (hbody : Worked o c b body)
    (hlast : Closed o c b r last)
    (hordinary : ∀ event ∈ acquiring ++ (body ++ last), event.FailsOrdinarily) :
    h.Quiet total s (acquiring ++ (body ++ last)) (answer o (.ok r)) := by
  have hguarded : ∀ e, ¬Unguarded acquiring e := by
    obtain hguarded | ⟨e, he, -⟩ := htried.unguarded_iff
    · exact hguarded
    · exact absurd he (by simp)
  have hwork := hbody.isOrdinary fun event hmem => hordinary event (by simp [hmem])
  obtain ⟨given, hgiven, hanswer⟩ := hlast.exists_disposal hraise hwork fun event hmem =>
    hordinary event (by simp [hmem])
  have hworked : ∃ event ∈ acquiring ++ (body ++ last), event.OfBody := by
    obtain ⟨event, hmem, hevent⟩ := hbody.exists_ofBody
    exact ⟨event, by simp [hmem], hevent⟩
  have hraised : ∀ e, h.Raised total s (acquiring ++ (body ++ last)) e ↔ given = .error e := by
    intro e
    have hunguarded : Unguarded (acquiring ++ (body ++ last)) e ↔ given = .error e := by
      simp [hguarded e, hbody.guarded e, hgiven e]
    rw [Raised, Escapes, hunguarded, and_iff_left fun _ => hworked]
    exact or_iff_left fun hover => not_overrun_of_served htried e hover.2
  rw [hanswer]
  cases given with
  | error e => exact .of_raised fun e' => by simp [hraised, eq_comm]
  | ok u =>
    refine .of_not_raised (fun e => by simp [hraised]) fun y => ?_
    rw [succeeds_iff_of_served htried hbody hlast y]
    cases b <;> simp [Except.toOption]

end

/-- The errors that a run raises although its options say that it raises none. If operations and the
work fail only in ordinary ways these are the errors no one stands guard over and, where nothing
else fails, the one that a pause cannot be computed. A run that raises none has the result of the
work, or none if the work fails or there is no connection. -/
theorem run_raises_iff (h : Handler σ) (o : RunOptions) (work : Connection → Act σ α) (s : σ) {n : Int}
    {d : Record} {seen : Except Error (Option α) × Watched σ α} (hraise : o.raiseErrors = false)
    (hretries : h.retryCount = .int n) (hdescription : h.adapter.description = .ok d)
    (hseen : seen = (h.watched.run o (Watched.work work)).runOn ⟨s, []⟩)
    (hordinary : ∀ event ∈ seen.2.events, event.FailsOrdinarily) :
    (h.run o work).runOn s = (seen.1, seen.2.state) ∧
      h.Quiet (n + 1).toNat seen.2.state seen.2.events seen.1 := by
  obtain ⟨events, hrun, x, hserved, hanswer⟩ := follows_run h o work ⟨s, []⟩
  rw [hrun, List.nil_append] at hseen
  subst hseen
  have htotal : h.tries = .ok (n + 1).toNat := by simp [tries, hretries]
  refine ⟨rfl, ?_⟩
  show h.Quiet _ _ _ (((h.run o work).runOn s).1)
  rw [hanswer]
  cases hserved with
  | uncounted e t htries => exact absurd (htotal.symm.trans htries) (by simp)
  | unserved htries htried =>
    obtain rfl := Except.ok.inj (htotal.symm.trans htries)
    exact quiet_of_unserved hraise hdescription htried hordinary
  | served htries htried hbody hlast =>
    obtain rfl := Except.ok.inj (htotal.symm.trans htries)
    exact quiet_of_served hraise htried hbody hlast hordinary

/-- The failure of an operation on a connection that has gone away. -/
def socketClosed : Error := .fault ⟨.program, "RuntimeError", [.text "socket closed"], [], []⟩

/-- A handler whose connections cannot be given back. -/
def unreleasing : Handler Unit :=
  ⟨{ Adapter.steady (.ok ⟨"conn"⟩) (.ok ()) with release := fun _ => throw socketClosed }, .int 3,
    .real (Number.Binary64.zero false)⟩

/-- A handler whose connections fail when they are asked whether they live. -/
def unanswering : Handler Unit :=
  ⟨{ Adapter.steady (.ok ⟨"conn"⟩) (.ok ()) with ping := fun _ => throw socketClosed }, .int 3,
    .real (Number.Binary64.zero false)⟩

/-- Work that was done and committed, on a connection that cannot be given back. -/
theorem run_raises_iff_unreleasing :
    let seen := (unreleasing.watched.run { raiseErrors := false }
      (Watched.work fun _ => (pure 1 : Act Unit Nat))).runOn ⟨(), []⟩
    Succeeds seen.2.events 1 ∧ Escapes seen.2.events socketClosed ∧ seen.1 = .error socketClosed := by
  intro seen
  have hevents : seen.2.events = [.acquire (.ok ⟨"conn"⟩), .ping ⟨"conn"⟩ (.ok true),
      .begin ⟨"conn"⟩ (.ok ()), .work ⟨"conn"⟩ (.ok 1), .commit ⟨"conn"⟩ (.ok ()),
      .release ⟨"conn"⟩ (.error socketClosed)] := rfl
  have hordinary : ∀ event ∈ seen.2.events, event.FailsOrdinarily := by
    rw [hevents]
    simp [Event.FailsOrdinarily, socketClosed, Error.isOrdinary]
  have hescapes : Escapes seen.2.events socketClosed := by
    rw [hevents]
    simp [Escapes, Event.Unguarded, socketClosed, Error.isPool]
  obtain ⟨-, hquiet⟩ := run_raises_iff unreleasing { raiseErrors := false } _ () rfl rfl rfl rfl hordinary
  refine ⟨?_, hescapes, (hquiet.raises socketClosed).mpr (.inl hescapes)⟩
  rw [hevents]
  simp [Succeeds, FailsOn]

/-- A run that should raise nothing does, after work that was done and before any. -/
theorem run_not_quiet :
    ((unreleasing.run { raiseErrors := false } fun _ => (pure 1 : Act Unit Nat)).runOn ()).1 =
        .error socketClosed ∧
      ((unanswering.run { raiseErrors := false } fun _ => (pure 1 : Act Unit Nat)).runOn ()).1 =
        .error socketClosed ∧
      socketClosed.isOrdinary = true :=
  ⟨rfl, rfl, rfl⟩

end Handler

end Quarry
