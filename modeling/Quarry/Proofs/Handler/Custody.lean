import Quarry.Proofs.Handler.Backoff

/-!
# Custody of connections

On an adapter that behaves (`Event.Orderly`) a handler holds one connection at a time, and none
before the old one was disposed of (`Custody`). That is so while it tries for a connection
(`Tried.handsOver`), on any adapter but for one that cannot tell whether a connection lives
(`Tried.handsOver_or_abandons`).

How the tries end is described by `Ends`. If there is no connection the failure is that of the last
try, unless the handler was overrun by its own pauses: they double each time, and after many tries
their length cannot be computed any more (`Overrun`).
-/

set_option autoImplicit false

namespace Quarry

variable {σ α : Type}

namespace Event

/-- Operations may fail in ordinary ways, and giving up a connection or waiting does not. -/
def Orderly : Event α → Prop
  | .sleep r => r = .ok ()
  | .acquire r => ∀ e, r = .error e → e.isOrdinary = true
  | .ping _ r => ∃ alive, r = .ok alive
  | .begin _ r => ∀ e, r = .error e → e.isOrdinary = true
  | .work _ r => ∀ e, r = .error e → e.isOrdinary = true
  | .commit _ r => ∀ e, r = .error e → e.isOrdinary = true
  | .rollback _ r => ∀ e, r = .error e → e.isOrdinary = true
  | .release _ r => r = .ok ()
  | .destroy _ r => r = .ok ()

/-- Whether this is a use of the connection. -/
def Uses (c : Connection) : Event α → Prop
  | .ping d _ => d = c
  | .begin d _ => d = c
  | .work d _ => d = c
  | .commit d _ => d = c
  | .rollback d _ => d = c
  | _ => False

/-- Whether the connection is given back or thrown away. -/
def Disposes (c : Connection) : Event α → Prop
  | .release d _ => d = c
  | .destroy d _ => d = c
  | _ => False

/-- Whether a connection is asked for. -/
def isTry : Event α → Bool
  | .acquire _ => true
  | _ => false

/-- Whether a new try may follow. -/
def Passes : Event α → Prop
  | .acquire (.error e) => e.isTransient = true
  | .ping _ r => r = .ok false
  | _ => True

end Event

/-- Connections are held one after the other: each is acquired, used, and disposed of once. -/
inductive Custody : List (Event α) → Prop
  | nil : Custody []
  | sleep (r : Except Error Unit) {later : List (Event α)} (hlater : Custody later) :
      Custody (.sleep r :: later)
  | refused (e : Error) {later : List (Event α)} (hlater : Custody later) :
      Custody (.acquire (.error e) :: later)
  | held (c : Connection) {uses later : List (Event α)} {disposal : Event α}
      (huses : ∀ event ∈ uses, event.Uses c) (hdisposal : disposal.Disposes c)
      (hlater : Custody later) : Custody (.acquire (.ok c) :: (uses ++ disposal :: later))

/-- Custody first and later is custody. -/
theorem Custody.append {first later : List (Event α)} (hfirst : Custody first)
    (hlater : Custody later) : Custody (first ++ later) := by
  induction hfirst with
  | nil => exact hlater
  | sleep r _ ih => exact .sleep r ih
  | refused e _ ih => exact .refused e ih
  | held c huses hdisposal _ ih =>
    rw [List.cons_append, List.append_assoc, List.cons_append]
    exact .held c huses hdisposal ih

/-- Waiting needs no custody. -/
theorem custody_waited (n : Nat) : Custody (Handler.waited n : List (Event α)) := by
  unfold Handler.waited
  split
  · exact .nil
  · exact .sleep _ .nil

namespace Handler

variable {h : Handler σ} {o : RunOptions}

/-- The failure that is remembered after an event. -/
def remembered (last : Option Error) : Event α → Option Error
  | .acquire (.error e) => some (if e.isTransient then e else noConnection (some e))
  | .ping _ (.ok false) => some deadConnection
  | _ => last

/-- The failure to get a connection: that of the last try. -/
def lastFailure (last : Option Error) (events : List (Event α)) : Error :=
  (events.foldl remembered last).getD (noConnection none)

/-- Fewer tries than possible were made, all failed in a way that may pass, and there is no pause
before the next one. -/
def Overrun (h : Handler σ) (total : Nat) (t : σ) (events : List (Event α)) (e : Error) : Prop :=
  (∀ event ∈ events, event.Passes) ∧
    ∃ k, events.countP Event.isTry = k + 1 ∧ k + 1 < total ∧ h.PauseFails t k e

/-- What may pass is an error of the pool. -/
theorem isPool_of_isTransient {e : Error} (htransient : e.isTransient = true) : e.isPool = true := by
  cases e with
  | pool => rfl
  | _ => exact absurd htransient (by simp [Error.isTransient])

/-- The last failure is one of the pool. -/
theorem isPool_lastFailure {last : Option Error} (hlast : ∀ e, last = some e → e.isPool = true)
    (events : List (Event α)) : (lastFailure last events).isPool = true := by
  have hremembered : ∀ {last : Option Error} (event : Event α), (∀ e, last = some e → e.isPool = true) →
      ∀ e, remembered last event = some e → e.isPool = true := by
    intro last event hlast e he
    unfold remembered at he
    split at he
    · rename_i cause
      obtain rfl := Option.some.inj he
      cases htransient : cause.isTransient with
      | true =>
        rw [if_pos rfl]
        exact isPool_of_isTransient htransient
      | false => rfl
    · obtain rfl := Option.some.inj he
      rfl
    · exact hlast e he
  induction events generalizing last with
  | nil =>
    cases last with
    | none => rfl
    | some e => exact hlast e rfl
  | cons event events ih => exact ih (hremembered event hlast)

/-- An acquisition is a try. -/
theorem countP_acquire (r : Except Error Connection) (events : List (Event α)) :
    (.acquire r :: events).countP Event.isTry = events.countP Event.isTry + 1 :=
  List.countP_cons_of_pos rfl

/-- No connection is held when there is none to hand over, and otherwise only that one, which
answers. -/
def HandsOver (events : List (Event α)) : Except Error Connection → Prop
  | .error _ => Custody events
  | .ok c => ∃ earlier, Custody earlier ∧ events = earlier ++ [.acquire (.ok c), .ping c (.ok true)]

/-- After custody a connection may be handed over. -/
theorem HandsOver.append {front later : List (Event α)} {r : Except Error Connection}
    (hfront : Custody front) (hlater : HandsOver later r) : HandsOver (front ++ later) r := by
  cases r with
  | error e => exact hfront.append hlater
  | ok c =>
    obtain ⟨earlier, hearlier, rfl⟩ := hlater
    exact ⟨front ++ earlier, hfront.append hearlier, by simp⟩

/-- The last connection was asked whether it lives, answered with an error, and nothing more was
done with it. -/
def Abandons (events : List (Event α)) (r : Except Error Connection) : Prop :=
  ∃ earlier c e, (Custody earlier ∧ ∀ d e, .ping d (.error e) ∉ earlier) ∧ r = .error e ∧
    events = earlier ++ [.acquire (.ok c), .ping c (.error e)]

/-- Waiting asks no connection. -/
theorem ping_not_mem_waited (c : Connection) (r : Except Error Bool) (n : Nat) :
    .ping c r ∉ (waited n : List (Event α)) := by
  intro hmem
  simpa using mem_waited hmem

/-- A connection that does not answer is destroyed. -/
theorem custody_destroyed (c : Connection) (r : Except Error Unit) :
    Custody ([.acquire (.ok c), .ping c (.ok false), .destroy c r] : List (Event α)) := by
  have huses : ∀ event ∈ [Event.ping c (.ok false)], event.Uses (α := α) c := by simp [Event.Uses]
  have hdisposes : (Event.destroy c r).Disposes (α := α) c := rfl
  exact .held c huses hdisposes .nil

/-- What holds of the later tries holds of all, if no connection is left from the earlier ones. -/
theorem carryOn {front later : List (Event α)} {r : Except Error Connection} (hfront : Custody front)
    (hpings : ∀ c e, .ping c (.error e) ∉ front)
    (hlater : (HandsOver later r ∧ ∀ c e, .ping c (.error e) ∉ later) ∨ Abandons later r) :
    (HandsOver (front ++ later) r ∧ ∀ c e, .ping c (.error e) ∉ front ++ later) ∨
      Abandons (front ++ later) r := by
  have hboth : ∀ {events : List (Event α)}, (∀ c e, .ping c (.error e) ∉ events) →
      ∀ c e, .ping c (.error e) ∉ front ++ events := by
    intro events hnone c e hmem
    exact (List.mem_append.mp hmem).elim (hpings c e) (hnone c e)
  obtain ⟨hhands, hnone⟩ | ⟨earlier, c, e, ⟨hearlier, hnone⟩, hr, rfl⟩ := hlater
  · exact .inl ⟨hhands.append hfront, hboth hnone⟩
  · exact .inr ⟨front ++ earlier, c, e, ⟨hfront.append hearlier, hboth hnone⟩, hr, by simp⟩

/-- Why the tries for a connection have ended, of which so many were left beginning with number
`n`. -/
def Ends (h : Handler σ) (left n : Nat) (last : Option Error) (s : σ) (events : List (Event α)) :
    Except Error Connection → Prop
  | .ok c => .ping c (.ok true) ∈ events
  | .error e =>
    (e = lastFailure last events ∧
      ((∀ event ∈ events, event.Passes) → events.countP Event.isTry = left)) ∨
    ((∀ event ∈ events, event.Passes) ∧ events.countP Event.isTry < left ∧
      ∃ k, k + 1 = n + events.countP Event.isTry ∧ h.PauseFails s k e)

namespace Ends

variable {left n m : Nat} {last : Option Error} {r : Except Error Connection} {s : σ}
  {events : List (Event α)}

/-- To wait first changes nothing about the end. -/
theorem waited (hends : h.Ends left n last s events r) :
    h.Ends left n last s (waited m ++ events) r := by
  unfold Handler.waited
  split
  · exact hends
  · cases r with
    | ok c => exact List.mem_cons_of_mem _ hends
    | error e => simpa [Ends, lastFailure, remembered, Event.Passes, Event.isTry] using hends

/-- After a failure that may pass the end is that of the next try. -/
theorem passing {e : Error} (htransient : e.isTransient = true)
    (hends : h.Ends left (n + 1) (some e) s events r) :
    h.Ends (left + 1) n last s (.acquire (.error e) :: events) r := by
  cases r with
  | ok c => exact List.mem_cons_of_mem _ hends
  | error e' =>
    obtain ⟨rfl, hcount⟩ | ⟨hpasses, hleft, k, hk, hpause⟩ := hends
    · refine .inl ⟨by simp [lastFailure, remembered, htransient], ?_⟩
      intro hpasses
      rw [countP_acquire, hcount fun event hevent => hpasses event (List.mem_cons_of_mem _ hevent)]
    · rw [Ends, countP_acquire]
      refine .inr ⟨by simpa [Event.Passes, htransient] using hpasses, by omega, k, by omega, hpause⟩

/-- After a dead connection the end is that of the next try. -/
theorem dead {c : Connection} (hends : h.Ends left (n + 1) (some deadConnection) s events r) :
    h.Ends (left + 1) n last s
      (.acquire (.ok c) :: .ping c (.ok false) :: .destroy c (.ok ()) :: events) r := by
  have hcount : (Event.acquire (.ok c) :: .ping c (.ok false) :: .destroy c (.ok ()) :: events).countP
      Event.isTry = events.countP Event.isTry + 1 := by
    rw [countP_acquire]
    rfl
  cases r with
  | ok c' => simpa [Ends] using hends
  | error e =>
    obtain ⟨rfl, hall⟩ | ⟨hpasses, hleft, k, hk, hpause⟩ := hends
    · refine .inl ⟨by simp [lastFailure, remembered], ?_⟩
      intro hpasses
      rw [hcount, hall fun event hevent => hpasses event (by simp [hevent])]
    · rw [Ends, hcount]
      refine .inr ⟨by simpa [Event.Passes] using hpasses, by omega, k, by omega, hpause⟩

end Ends

namespace Tried

variable {left n : Nat} {last : Option Error} {r : Except Error Connection} {s : σ}
  {events : List (Event α)}

/-- Trying for a connection keeps custody of all of them unless a connection that was asked whether
it lives answers with an error: that one is abandoned. -/
theorem handsOver_or_abandons (htried : h.Tried left n last r s events) :
    (HandsOver events r ∧ ∀ c e, .ping c (.error e) ∉ events) ∨ Abandons events r := by
  induction htried with
  | spent n last s => exact .inl ⟨.nil, by simp⟩
  | unpaused left k last e s => exact .inl ⟨.nil, by simp⟩
  | unslept left k last e s => exact .inl ⟨.sleep _ .nil, by simp⟩
  | @passing left n last e r s later htransient hrest ih =>
    have hfront : Custody (waited n ++ [.acquire (.error e)] : List (Event α)) :=
      (custody_waited n).append (.refused e .nil)
    simpa using carryOn hfront (by simp [ping_not_mem_waited]) ih
  | refused left n last e s =>
    exact .inl ⟨(custody_waited n).append (.refused _ .nil), by simp [ping_not_mem_waited]⟩
  | interrupted left n last e s =>
    exact .inl ⟨(custody_waited n).append (.refused _ .nil), by simp [ping_not_mem_waited]⟩
  | alive left n last c s =>
    exact .inl ⟨⟨_, custody_waited n, rfl⟩, by simp [ping_not_mem_waited]⟩
  | unanswered left n last c e s =>
    exact .inr ⟨_, c, e, ⟨custody_waited n, by simp [ping_not_mem_waited]⟩, rfl, rfl⟩
  | undestroyed left n last c e s =>
    exact .inl ⟨(custody_waited n).append (custody_destroyed c _), by simp [ping_not_mem_waited]⟩
  | @dead left n last c r s later hrest ih =>
    have hfront : Custody (waited n ++
        [.acquire (.ok c), .ping c (.ok false), .destroy c (.ok ())] : List (Event α)) :=
      (custody_waited n).append (custody_destroyed c _)
    simpa using carryOn hfront (by simp [ping_not_mem_waited]) ih

/-- An acquisition in which all goes orderly hands a connection over. -/
theorem handsOver (htried : h.Tried left n last r s events)
    (horderly : ∀ event ∈ events, event.Orderly) : HandsOver events r := by
  obtain ⟨hhands, -⟩ | ⟨earlier, c, e, -, -, rfl⟩ := htried.handsOver_or_abandons
  · exact hhands
  · obtain ⟨alive, halive⟩ := horderly (.ping c (.error e)) (by simp)
    exact absurd halive (by simp)

/-- An acquisition in which all goes orderly ends as it is to. -/
theorem ends (htried : h.Tried left n last r s events)
    (horderly : ∀ event ∈ events, event.Orderly) {d : Record}
    (hdescription : h.adapter.description = .ok d) : h.Ends left n last s events r := by
  have hblamed : ∀ e, h.blamed e = e := by
    intro e
    simp [blamed, hdescription]
  induction htried with
  | spent n last s =>
    rw [hblamed]
    exact .inl ⟨rfl, fun _ => rfl⟩
  | unpaused left k last e s hpause => exact .inr ⟨by simp, by simp, k, rfl, hpause⟩
  | unslept left k last e s =>
    have hsleep : (.error e : Except Error Unit) = .ok () := horderly (.sleep (.error e)) (by simp)
    exact absurd hsleep (by simp)
  | passing last htransient hrest ih =>
    exact (Ends.passing htransient (ih fun event hevent => horderly event (by simp [hevent]))).waited
  | refused left n last e s htransient hordinary =>
    rw [hblamed]
    refine Ends.waited (.inl ⟨by simp [lastFailure, remembered, htransient], ?_⟩)
    intro hpasses
    have hpassing : e.isTransient = true := hpasses (.acquire (.error e)) (by simp)
    exact absurd hpassing (by simp [htransient])
  | interrupted left n last e s hordinary =>
    have hacquire := horderly (.acquire (.error e)) (by simp) e rfl
    exact absurd hacquire (by simp [hordinary])
  | alive left n last c s => simp [Ends]
  | unanswered left n last c e s =>
    obtain ⟨alive, halive⟩ := horderly (.ping c (.error e)) (by simp)
    exact absurd halive (by simp)
  | undestroyed left n last c e s =>
    have hdestroy : (.error e : Except Error Unit) = .ok () := horderly (.destroy c (.error e)) (by simp)
    exact absurd hdestroy (by simp)
  | dead last c hrest ih =>
    exact (Ends.dead (ih fun event hevent => horderly event (by simp [hevent]))).waited

end Tried

end Handler

end Quarry
