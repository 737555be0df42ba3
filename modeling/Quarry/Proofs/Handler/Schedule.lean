import Quarry.Proofs.Handler.Backoff

/-!
# The schedule of acquisition

An adapter on which everything goes as it was determined beforehand: how each attempt to get a
connection ends does not depend on anything that the handler does. A handler on it makes attempts
one after the other, with a pause in front of each but the first, until there is a connection that
answers or an error that does not pass. The pauses double.

With integers for the number of retries and for the first pause nothing comes between
(`acquire_followsSchedule`), if sleeping ends well as destroying a connection does. A pause is written
to the log before it is made, and there may be no text of it, when it is beyond all floating-point
numbers; but a log leaves out a record of which there is no text, unless it is kept to check the
records themselves.
-/

set_option autoImplicit false

namespace Quarry

namespace Handler

/-! ## Attempts -/

/-- How an attempt to get a connection goes. -/
inductive Attempt where
  /-- There is none now, for a reason that may pass. -/
  | passing (e : Error) (htransient : e.isTransient = true)
  /-- There is one that does not answer. -/
  | dead (c : Connection)
  /-- There is one that answers. -/
  | live (c : Connection)
  /-- There is none, for any other reason. -/
  | failing (e : Error) (htransient : e.isTransient = false) (hordinary : e.isOrdinary = true)

/-- What a handler asks for while it acquires a connection. -/
inductive Asked where
  | sleep (pause : Value)
  | acquire
  | ping (c : Connection)
  | destroy (c : Connection)

namespace Attempt

/-- The error that is kept in mind when another attempt may follow. -/
def retried? : Attempt → Option Error
  | .passing e _ => some e
  | .dead _ => some deadConnection
  | _ => none

/-- What comes of acquisition when this attempt is the last. -/
def verdict : Attempt → Except Error Connection
  | .passing e _ => .error e
  | .dead _ => .error deadConnection
  | .live c => .ok c
  | .failing e _ _ => .error (noConnection (some e))

/-- What is asked for in the attempt. -/
def calls : Attempt → List Asked
  | .passing _ _ => [.acquire]
  | .dead c => [.acquire, .ping c, .destroy c]
  | .live c => [.acquire, .ping c]
  | .failing _ _ _ => [.acquire]

/-- What the adapter gives in the attempt. -/
def acquired : Attempt → Except Error Connection
  | .passing e _ => .error e
  | .dead c => .ok c
  | .live c => .ok c
  | .failing e _ _ => .error e

/-- Whether the connection answers. -/
def isLive : Attempt → Bool
  | .live _ => true
  | _ => false

end Attempt

/-- What is determined before acquisition begins. -/
structure Plan where
  attempts : Nat → Attempt
  retries : Int
  /-- The first pause. -/
  delay : Int
  settings : Record
  status : Record
  /-- The levels of which log records are kept. -/
  keeps : Level → Bool

namespace Plan

/-! ## The schedule -/

/-- How many attempts are allowed. -/
def allowed (p : Plan) : Nat := (p.retries + 1).toNat

/-- The pause behind an attempt, if there is another one. -/
def pause (p : Plan) (k : Nat) : Int := p.delay * 2 ^ k

/-- The calls of an attempt and of the pause in front of it. -/
def callsOf (p : Plan) : Nat → List Asked
  | 0 => (p.attempts 0).calls
  | k + 1 => .sleep (.int (p.pause k)) :: (p.attempts (k + 1)).calls

/-- The calls of so many attempts. -/
def callsUntil (p : Plan) (made : Nat) : List Asked := (List.range made).flatMap p.callsOf

/-- What comes of so many attempts. -/
def verdictAfter (p : Plan) : Nat → Except Error Connection
  | 0 => .error (noConnection none)
  | k + 1 => (p.attempts k).verdict

/-- That acquisition keeps to its schedule: attempts are made until one leaves nothing to be
retried, or none is allowed any more. -/
def IsFollowed (p : Plan) (result : Except Error Connection) (calls : List Asked) : Prop :=
  ∃ made ≤ p.allowed,
    (∀ k, k + 1 < made → (p.attempts k).retried?.isSome = true) ∧
    (made < p.allowed → ∃ k, made = k + 1 ∧ (p.attempts k).retried? = none) ∧
    calls = p.callsUntil made ∧ result = p.verdictAfter made

/-! ## An adapter that keeps to the plan -/

end Plan

/-- How far acquisition has come. -/
structure Course where
  made : Nat := 0
  calls : List Asked := []

/-- A call is made. -/
def Course.note (call : Asked) (s : Course) : Course := { s with calls := s.calls ++ [call] }

namespace Plan

open Course (note)

/-- The adapter on which attempts go as they must, and on which sleeping and destroying end well. Its
log does not matter, except for the levels that it keeps; a record of which there is no text is left
out. -/
def adapter (p : Plan) : Adapter Course where
  description := .ok p.settings
  poolStatus := fun _ => p.status
  keeps := fun level _ => p.keeps level
  log := fun _ _ s => s
  strict := fun _ => false
  sleep := fun pause => Act.update (note (.sleep pause))
  acquire := Act.ofFunction fun s =>
    ((p.attempts s.made).acquired, { note .acquire s with made := s.made + 1 })
  release := fun _ => pure ()
  destroy := fun c => Act.update (note (.destroy c))
  ping := fun c => Act.ofFunction fun s => (.ok (p.attempts (s.made - 1)).isLive, note (.ping c) s)
  begin := fun _ => pure ()
  commit := fun _ => pure ()
  rollback := fun _ => pure ()

/-- The handler with the number of retries and the first pause of the plan. -/
def handler (p : Plan) : Handler Course := ⟨p.adapter, .int p.retries, .int p.delay⟩

/-- How far acquisition has come after so many attempts. -/
def courseAfter (p : Plan) (made : Nat) : Course := ⟨made, p.callsUntil made⟩

/-- The error that is kept in mind after so many attempts. -/
def lastError (p : Plan) : Nat → Option Error
  | 0 => none
  | k + 1 => (p.attempts k).retried?

variable {p : Plan} {total left made k : Nat} {last : Option Error} {s : Course}

/-- The calls until one more attempt are those before and those of the attempt. -/
theorem callsUntil_succ (p : Plan) (made : Nat) :
    p.callsUntil (made + 1) = p.callsUntil made ++ p.callsOf made := by
  simp [callsUntil, List.range_succ]

/-! ### Pauses -/

/-- Whether or not a pause can be written to the log, nothing comes of it. -/
theorem runOn_showPause (p : Plan) (total n : Nat) (last : Option Error) (pause : Value) (s : Course) :
    (p.handler.showPause total n last pause).runOn s = (.ok (), s) := by
  have hkept : (Act.read (p.handler.adapter.keeps .debug)).runOn s = (.ok (p.keeps .debug), s) := rfl
  unfold showPause
  rw [Act.runOn_bind_ok hkept]
  cases p.keeps .debug with
  | false => rfl
  | true =>
    cases pause.thousandths with
    | ok shown => rfl
    | error e => exact runOn_reportWritten_error p.handler.adapter .debug e s

/-- Before a further attempt the handler shows the pause and sleeps. -/
theorem waitBefore_eq (p : Plan) (total k : Nat) (last : Option Error) :
    p.handler.waitBefore total (k + 1) last = (do
      p.handler.showPause total (k + 1) last (.int (p.pause k))
      p.handler.adapter.sleep (.int (p.pause k))) := by
  have hpause : p.handler.retryDelay.timesNat (Nat.pow 2 k) = .ok (.int (p.pause k)) := by
    have hpower : ((Nat.pow 2 k : Nat) : Int) = 2 ^ k := Int.natCast_pow 2 k
    show Except.ok (Value.int (p.delay * (Nat.pow 2 k : Nat))) = _
    rw [hpower]
    rfl
  rw [waitBefore_succ, hpause]
  rfl

/-- Before a further attempt there is one sleep. -/
theorem runOn_waitBefore (p : Plan) (total k : Nat) (last : Option Error) (s : Course) :
    (p.handler.waitBefore total (k + 1) last).runOn s =
      (.ok (), s.note (.sleep (.int (p.pause k)))) := by
  rw [waitBefore_eq, Act.runOn_bind_ok (p.runOn_showPause total (k + 1) last _ s)]
  rfl

/-! ### Attempts -/

/-- What is done with what the adapter gave in an attempt. -/
theorem runOn_afterAcquire (p : Plan) (total left made : Nat) (calls : List Asked) :
    (Act.attempt p.handler.adapter.acquire >>= p.handler.afterAcquire total left made).runOn
        ⟨made, calls⟩ =
      match (p.attempts made).retried? with
      | some e => (p.handler.tryAcquire total left (made + 1) (some e)).runOn
          ⟨made + 1, calls ++ (p.attempts made).calls⟩
      | none => ((p.attempts made).verdict, ⟨made + 1, calls ++ (p.attempts made).calls⟩) := by
  have hacquire : (Act.attempt p.handler.adapter.acquire).runOn ⟨made, calls⟩ =
      (.ok (p.attempts made).acquired, ⟨made + 1, calls ++ [.acquire]⟩) := rfl
  have hping (c : Connection) : (p.handler.adapter.ping c).runOn ⟨made + 1, calls ++ [.acquire]⟩ =
      (.ok (p.attempts made).isLive, ⟨made + 1, calls ++ [.acquire] ++ [.ping c]⟩) := rfl
  rw [Act.runOn_bind_ok hacquire]
  cases hattempt : p.attempts made with
  | passing e htransient =>
    simp only [Attempt.acquired, afterAcquire, htransient, if_true]
    rfl
  | failing e htransient hordinary =>
    simp only [Attempt.acquired, afterAcquire, htransient, hordinary, if_true]
    rfl
  | live c =>
    rw [hattempt] at hping
    simp only [Attempt.acquired, afterAcquire, Act.runOn_bind_ok (hping c), Attempt.isLive, if_true]
    simp [Attempt.retried?, Attempt.verdict, Attempt.calls]
  | dead c =>
    have hreport (t : Course) (level : Level) (text : String) :
        (p.handler.adapter.report level text).runOn t = (.ok (), t) := rfl
    have hdestroy (t : Course) : (p.handler.adapter.destroy c).runOn t = (.ok (), t.note (.destroy c)) :=
      rfl
    rw [hattempt] at hping
    simp only [Attempt.acquired, afterAcquire, Act.runOn_bind_ok (hping c), Attempt.isLive,
      Bool.false_eq_true, if_false, Act.runOn_bind_ok (hreport _ _ _), Act.runOn_bind_ok (hdestroy _)]
    simp [Course.note, Attempt.calls, Attempt.retried?]

/-- An attempt, with the pause in front of it. -/
theorem runOn_tryAcquire_succ (p : Plan) (total left made : Nat) (last : Option Error) :
    (p.handler.tryAcquire total (left + 1) made last).runOn (p.courseAfter made) =
      match (p.attempts made).retried? with
      | some e =>
        (p.handler.tryAcquire total left (made + 1) (some e)).runOn (p.courseAfter (made + 1))
      | none => ((p.attempts made).verdict, p.courseAfter (made + 1)) := by
  rw [tryAcquire_succ, courseAfter, courseAfter, callsUntil_succ]
  cases made with
  | zero =>
    have hwait : (p.handler.waitBefore total 0 last).runOn ⟨0, p.callsUntil 0⟩ =
        (.ok (), ⟨0, p.callsUntil 0⟩) := rfl
    rw [Act.runOn_bind_ok hwait, runOn_afterAcquire]
    rfl
  | succ k =>
    have hslept (calls : List Asked) : note (.sleep (.int (p.pause k))) ⟨k + 1, calls⟩ =
        ⟨k + 1, calls ++ [.sleep (.int (p.pause k))]⟩ := rfl
    rw [Act.runOn_bind_ok (p.runOn_waitBefore total k last _), hslept, runOn_afterAcquire]
    simp only [callsOf, List.append_assoc, List.singleton_append]

/-- As long as attempts are retried, one follows the other. -/
theorem runOn_acquire_eq (hmade : made ≤ p.allowed)
    (hretried : ∀ k < made, (p.attempts k).retried?.isSome = true) :
    p.handler.acquire.runOn {} = (p.handler.tryAcquire p.allowed (p.allowed - made) made
      (p.lastError made)).runOn (p.courseAfter made) := by
  induction made with
  | zero => rfl
  | succ made ih =>
    have hleft : p.allowed - made = (p.allowed - (made + 1)) + 1 := by omega
    obtain ⟨e, he⟩ := Option.isSome_iff_exists.mp (hretried made (Nat.lt_succ_self made))
    rw [ih (by omega) (fun k hk => hretried k (by omega)), hleft, runOn_tryAcquire_succ, lastError, he]

/-! ### The whole course -/

/-- There is a first attempt that leaves nothing to be retried, if there is any until the end. -/
theorem exists_retried_until (p : Plan) (total : Nat) :
    ∃ made ≤ total, (∀ k < made, (p.attempts k).retried?.isSome = true) ∧
      (made = total ∨ (p.attempts made).retried? = none) := by
  induction total with
  | zero => exact ⟨0, Nat.le_refl 0, nofun, .inl rfl⟩
  | succ total ih =>
    obtain ⟨made, hmade, hretried, rfl | hsettled⟩ := ih
    · cases hnext : (p.attempts made).retried? with
      | none => exact ⟨made, Nat.le_succ made, hretried, .inr hnext⟩
      | some e =>
        refine ⟨made + 1, Nat.le_refl _, fun k hk => ?_, .inl rfl⟩
        obtain hlt | rfl := Nat.lt_succ_iff_lt_or_eq.mp hk
        · exact hretried k hlt
        · exact Option.isSome_iff_exists.mpr ⟨e, hnext⟩
    · exact ⟨made, Nat.le_succ_of_le hmade, hretried, .inr hsettled⟩

/-- An attempt that is tried again has its error for a verdict. -/
theorem verdict_of_retried {attempt : Attempt} {e : Error} (h : attempt.retried? = some e) :
    attempt.verdict = .error e := by
  cases attempt with
  | passing e' htransient =>
    obtain rfl := Option.some.inj h
    rfl
  | dead c =>
    obtain rfl := Option.some.inj h
    rfl
  | _ => exact nomatch h

/-- All attempts that are allowed are made. -/
theorem runOn_acquire_spent (hretried : ∀ k < p.allowed, (p.attempts k).retried?.isSome = true) :
    p.handler.acquire.runOn {} = (p.verdictAfter p.allowed, p.courseAfter p.allowed) := by
  rw [runOn_acquire_eq (Nat.le_refl _) hretried, Nat.sub_self, tryAcquire_zero]
  have hverdict : p.verdictAfter p.allowed =
      .error ((p.lastError p.allowed).getD (noConnection none)) := by
    cases hallowed : p.allowed with
    | zero => rfl
    | succ k =>
      obtain ⟨e, he⟩ := Option.isSome_iff_exists.mp (hretried k (by omega))
      rw [verdictAfter, verdict_of_retried he, lastError, he, Option.getD_some]
  rw [hverdict]
  rfl

/-- An attempt leaves nothing to be retried. -/
theorem runOn_acquire_settled (hmade : made < p.allowed)
    (hretried : ∀ k < made, (p.attempts k).retried?.isSome = true)
    (hsettled : (p.attempts made).retried? = none) :
    p.handler.acquire.runOn {} = (p.verdictAfter (made + 1), p.courseAfter (made + 1)) := by
  have hleft : p.allowed - made = (p.allowed - (made + 1)) + 1 := by omega
  rw [runOn_acquire_eq (Nat.le_of_lt hmade) hretried, hleft, runOn_tryAcquire_succ, hsettled]
  rfl

/-- The handler keeps to the schedule, whatever the plan. -/
theorem acquire_followsSchedule (p : Plan) :
    p.IsFollowed (p.handler.acquire.runOn {}).1 (p.handler.acquire.runOn {}).2.calls := by
  obtain ⟨made, hmade, hretried, hend⟩ := p.exists_retried_until p.allowed
  by_cases hspent : made = p.allowed
  · subst hspent
    rw [runOn_acquire_spent hretried]
    exact ⟨p.allowed, Nat.le_refl _, fun k hk => hretried k (Nat.lt_of_succ_lt hk),
      fun h => absurd h (Nat.lt_irrefl _), rfl, rfl⟩
  · have hless : made < p.allowed := Nat.lt_of_le_of_ne hmade hspent
    have hsettled := hend.resolve_left hspent
    rw [runOn_acquire_settled hless hretried hsettled]
    exact ⟨made + 1, hless, fun k hk => hretried k (Nat.lt_of_succ_lt_succ hk),
      fun _ => ⟨made, rfl, hsettled⟩, rfl, rfl⟩

/-- The third of five attempts succeeds, after two pauses. The connection that does not answer is
destroyed before the second one. -/
theorem acquire_followsSchedule_thirdAttempt :
    let full : Error := .pool .exhausted (.text "full") [] none
    let attempts : Nat → Attempt
      | 0 => .passing full rfl
      | 1 => .dead ⟨"a"⟩
      | _ => .live ⟨"b"⟩
    let p : Plan := ⟨attempts, 4, 3, [], [], fun _ => true⟩
    (p.handler.acquire.runOn {}).1 = .ok ⟨"b"⟩ ∧
      (p.handler.acquire.runOn {}).2.calls = [.acquire, .sleep (.int 3), .acquire, .ping ⟨"a"⟩,
        .destroy ⟨"a"⟩, .sleep (.int 6), .acquire, .ping ⟨"b"⟩] := by
  intro full attempts p
  obtain ⟨made, hmade, hretried, hsettled, hcalls, hresult⟩ := p.acquire_followsSchedule
  have hthree : made = 3 := by
    have hallowed : p.allowed = 5 := rfl
    rw [hallowed] at hmade hsettled
    have hnot : ¬3 < made := fun h => Bool.false_ne_true (hretried 2 h)
    have hlast : ∀ k, made = k + 1 → (p.attempts k).retried? = none → 2 ≤ k := by
      rintro (_ | _ | k) - hnone
      · exact nomatch hnone
      · exact nomatch hnone
      · omega
    obtain ⟨k, hk, hnone⟩ := hsettled (by omega)
    have := hlast k hk hnone
    omega
  subst hthree
  exact ⟨hresult, hcalls⟩

end Plan

end Handler

end Quarry
