import Quarry.Proofs.Handler.Custody
import Quarry.Proofs.Handler.Runs

/-!
# No connection is lost while one is acquired

Of the connections that a handler is given while it tries for one, it hands over the last and must
have disposed of all others (`Accounted`). It does so on every adapter and however the tries end,
with one exception. The question whether a connection lives is asked outside of any care for it:
when the question itself fails, or is interrupted, the error is passed on and nobody holds the
connection any more.
-/

set_option autoImplicit false

namespace Quarry

variable {σ α : Type}

/-- Every connection that was acquired was disposed of later, except for the last one if it is the
result. -/
def Accounted (events : List (Event α)) (r : Except Error Connection) : Prop :=
  ∀ pre c post, events = pre ++ .acquire (.ok c) :: post →
    (∃ event ∈ post, event.Disposes c) ∨ (r = .ok c ∧ ∀ event ∈ post, event.isTry = false)

/-- What happens only behind the front is behind all of it. -/
theorem split_behind {β : Type} {p : β → Prop} {front later pre post : List β} {y : β}
    (h : front ++ later = pre ++ y :: post) (hfront : ∀ z ∈ front, ¬p z) (hy : p y) :
    ∃ between, later = between ++ y :: post := by
  obtain ⟨between, -, hlater⟩ | ⟨between, rfl, hrest⟩ := List.append_eq_append_iff.mp h
  · exact ⟨between, hlater⟩
  · cases between with
    | nil => exact ⟨[], by simpa using hrest.symm⟩
    | cons z rest =>
      obtain ⟨rfl, -⟩ : y = z ∧ post = rest ++ later := by simpa using hrest
      exact absurd hy (hfront y (by simp))

/-- What is done on a connection is no try to get one. -/
theorem Event.Uses.not_isTry {c : Connection} {event : Event α} (huses : event.Uses c) :
    ¬event.isTry = true := by
  cases event with
  | acquire r => exact False.elim huses
  | _ => simp [isTry]

/-- The disposal of a connection is no try to get one. -/
theorem Event.Disposes.not_isTry {c : Connection} {event : Event α} (hdisposes : event.Disposes c) :
    ¬event.isTry = true := by
  cases event with
  | acquire r => exact False.elim hdisposes
  | _ => simp [isTry]

/-- In custody an acquired connection is disposed of later. -/
theorem Custody.exists_disposes {events pre post : List (Event α)} {c : Connection}
    (hcustody : Custody events) (hevents : events = pre ++ .acquire (.ok c) :: post) :
    ∃ event ∈ post, event.Disposes c := by
  -- an acquisition that is not the first event of a stage is found among the later ones
  have hlater : ∀ (front : List (Event α)) {later : List (Event α)},
      (∀ event ∈ front, ¬event.isTry = true) →
      (∀ pre, later = pre ++ .acquire (.ok c) :: post → ∃ event ∈ post, event.Disposes c) →
      ∀ pre, front ++ later = pre ++ .acquire (.ok c) :: post → ∃ event ∈ post, event.Disposes c := by
    intro front later hfront ih pre hsplit
    obtain ⟨between, hbetween⟩ := split_behind (p := fun event => event.isTry = true) hsplit hfront rfl
    exact ih between hbetween
  induction hcustody generalizing pre with
  | nil => simp at hevents
  | sleep r _ ih =>
    exact hlater [.sleep r] (by simp [Event.isTry]) (fun _ => ih) pre hevents
  | refused e _ ih =>
    cases pre with
    | nil => simp at hevents
    | cons first pre => exact ih (List.cons.inj hevents).2
  | @held d uses later disposal huses hdisposal _ ih =>
    cases pre with
    | nil =>
      obtain ⟨rfl, rfl⟩ : d = c ∧ uses ++ disposal :: later = post := by simpa using hevents
      exact ⟨disposal, by simp, hdisposal⟩
    | cons first pre =>
      have hfront : ∀ event ∈ uses ++ [disposal], ¬event.isTry = true := by
        intro event hmem
        obtain hmem | hmem := List.mem_append.mp hmem
        · exact (huses event hmem).not_isTry
        · rw [List.mem_singleton.mp hmem]
          exact hdisposal.not_isTry
      exact hlater _ hfront (fun _ => ih) pre (by simpa using (List.cons.inj hevents).2)

/-- In custody all connections are accounted for. -/
theorem Custody.accounted {events : List (Event α)} (hcustody : Custody events)
    (r : Except Error Connection) : Accounted events r :=
  fun _ _ _ hevents => .inl (hcustody.exists_disposes hevents)

namespace Handler

variable {h : Handler σ}

/-- When a connection is handed over, all others are accounted for. -/
theorem HandsOver.accounted {events : List (Event α)} {r : Except Error Connection}
    (hhands : HandsOver events r) : Accounted events r := by
  cases r with
  | error e => exact Custody.accounted hhands _
  | ok c =>
    obtain ⟨earlier, hcustody, rfl⟩ := hhands
    intro pre d post hevents
    obtain ⟨between, -, hrest⟩ | ⟨between, rfl, hrest⟩ := List.append_eq_append_iff.mp hevents
    · cases between with
      | nil =>
        obtain ⟨rfl, rfl⟩ : c = d ∧ [.ping c (.ok true)] = post := by simpa using hrest
        exact .inr ⟨rfl, by simp [Event.isTry]⟩
      | cons first between =>
        have hmem : .acquire (.ok d) ∈ [Event.ping (α := α) c (.ok true)] := by
          rw [(List.cons.inj hrest).2]
          simp
        simp at hmem
    · cases between with
      | nil =>
        obtain ⟨rfl, rfl⟩ : d = c ∧ post = [.ping c (.ok true)] := by simpa using hrest
        exact .inr ⟨rfl, by simp [Event.isTry]⟩
      | cons first between =>
        obtain ⟨rfl, rfl⟩ : .acquire (.ok d) = first ∧
            post = between ++ [.acquire (.ok c), .ping c (.ok true)] := by simpa using hrest
        obtain ⟨event, hmem, hdisposes⟩ := hcustody.exists_disposes rfl
        exact .inl ⟨event, List.mem_append_left _ hmem, hdisposes⟩

/-- An abandoned connection is not accounted for, and it is the only one. -/
theorem Abandons.spec {events : List (Event α)} {r : Except Error Connection}
    (habandons : Abandons events r) : ¬Accounted events r ∧
      ∀ c e, .ping c (.error e) ∈ events → r = .error e ∧ ∃ earlier,
        events = earlier ++ [.acquire (.ok c), .ping c (.error e)] ∧ Accounted earlier r := by
  obtain ⟨earlier, c, e, ⟨hcustody, hnone⟩, rfl, rfl⟩ := habandons
  constructor
  · intro haccounted
    obtain ⟨event, hmem, hdisposes⟩ | ⟨hr, -⟩ := haccounted earlier c [.ping c (.error e)] rfl
    · rw [List.mem_singleton.mp hmem] at hdisposes
      exact hdisposes
    · simp at hr
  · intro d e' hmem
    obtain ⟨rfl, rfl⟩ : d = c ∧ e' = e := by simpa [hnone] using hmem
    exact ⟨rfl, earlier, rfl, hcustody.accounted _⟩

/-- On every adapter, all connections are accounted for when acquiring has ended exactly if no
question whether one lives has failed. If one has, acquiring ends with that error, and of all
connections only the one that was asked last is lost. -/
theorem acquire_accounted_iff (h : Handler σ) (s : σ) :
    let seen := (h.watched (α := α)).acquire.runOn ⟨s, []⟩
    h.acquire.runOn s = (seen.1, seen.2.state) ∧
    (Accounted seen.2.events seen.1 ↔ ∀ c e, .ping c (.error e) ∉ seen.2.events) ∧
    ∀ c e, .ping c (.error e) ∈ seen.2.events → seen.1 = .error e ∧ ∃ earlier,
      seen.2.events = earlier ++ [.acquire (.ok c), .ping c (.error e)] ∧
        Accounted earlier seen.1 := by
  intro seen
  obtain ⟨events, hrun, hways⟩ := follows_acquire (α := α) h ⟨s, []⟩
  have hseen : seen = ((h.acquire.runOn s).1, ⟨(h.acquire.runOn s).2, events⟩) := by simpa using hrun
  rw [hseen]
  refine ⟨rfl, ?_⟩
  have hcustody : (HandsOver events (h.acquire.runOn s).1 ∧ ∀ c e, .ping c (.error e) ∉ events) ∨
      Abandons events (h.acquire.runOn s).1 := by
    obtain ⟨e, -, hr, rfl⟩ | ⟨total, -, htried⟩ := hways
    · have hr : (h.acquire.runOn s).1 = .error e := hr
      rw [hr]
      exact .inl ⟨.nil, by simp⟩
    · exact htried.handsOver_or_abandons
  obtain ⟨hhands, hnone⟩ | habandons := hcustody
  · exact ⟨iff_of_true hhands.accounted hnone, fun c e hmem => absurd hmem (hnone c e)⟩
  · obtain ⟨hlost, hlast⟩ := habandons.spec
    obtain ⟨earlier, c, e, -, -, hevents⟩ := habandons
    refine ⟨iff_of_false hlost fun hnone => hnone c e ?_, hlast⟩
    show .ping c (.error e) ∈ events
    rw [hevents]
    simp

/-- A handler whose question whether a connection lives is always cancelled. -/
def interrupted : Handler Unit :=
  ⟨{ Adapter.steady (.ok ⟨"conn"⟩) (.ok ()) with ping := fun _ => throw (.cancelled []) },
    .int 3, .real (Number.Binary64.zero false)⟩

/-- A ping that is interrupted ends the acquisition, and all is accounted for but its own
connection. -/
theorem acquire_accounted_interrupted :
    let seen := (interrupted.watched (α := Unit)).acquire.runOn ⟨(), []⟩
    .ping ⟨"conn"⟩ (.error (.cancelled [])) ∈ seen.2.events ∧ seen.1 = .error (.cancelled []) ∧
      ∃ earlier, seen.2.events =
          earlier ++ [.acquire (.ok ⟨"conn"⟩), .ping ⟨"conn"⟩ (.error (.cancelled []))] ∧
        Accounted earlier seen.1 := by
  intro seen
  have hmem : .ping ⟨"conn"⟩ (.error (.cancelled [])) ∈ seen.2.events := by
    have hevents : seen.2.events =
        [.acquire (.ok ⟨"conn"⟩), .ping ⟨"conn"⟩ (.error (.cancelled []))] := rfl
    rw [hevents]
    simp
  exact ⟨hmem, (acquire_accounted_iff interrupted ()).2.2 _ _ hmem⟩

/-- A connection is lost when the question whether it lives is cancelled. -/
theorem acquire_not_accounted :
    ¬Accounted ((interrupted.watched (α := Unit)).acquire.runOn ⟨(), []⟩).2.events
      ((interrupted.watched (α := Unit)).acquire.runOn ⟨(), []⟩).1 := by
  intro haccounted
  have hlast := haccounted [] ⟨"conn"⟩ [.ping ⟨"conn"⟩ (.error (.cancelled []))] rfl
  have hresult : ((interrupted.watched (α := Unit)).acquire.runOn ⟨(), []⟩).1 =
      .error (.cancelled []) := rfl
  simp [hresult, Event.Disposes] at hlast

end Handler

end Quarry
