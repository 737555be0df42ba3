import Quarry.Proofs.Handler.Stages
import Quarry.Session.Table

/-!
# Rows and what is made of them

A select fetches the rows of its statement and makes objects of them in one piece of work on a
connection. Work without a transaction has a result exactly if a connection is acquired, the work is
done on it, and it is given back (`Handler.run_eq_some_iff`); what is made of the result at last
does not touch the outside. So where fetching alone ends with rows, a select ends with the objects
of these rows, if they have any (`Session.objects_eq_some_iff`).
-/

set_option autoImplicit false

namespace Quarry

open Sql (Statement)

/-! ## Work without a transaction -/

namespace Handler

variable {σ α : Type} {h : Handler σ} {o : RunOptions} {f : Connection → Act σ α} {c : Connection} {s : σ}
  {x : α}

/-- A work that is finished well had a result and its connection was released. -/
theorem finish_eq_ok_iff {b : Except Error α} :
    ((h.finish o c b).runOn s).1 = .ok (.ok x) ↔ b = .ok x ∧ ((h.adapter.release c).runOn s).1 = .ok () := by
  cases b with
  | ok z =>
    have hfinish : ((h.finish o c (.ok z)).runOn s).1 =
        ((h.adapter.release c).runOn s).1.map fun _ => Except.ok z :=
      congrArg Prod.fst (Act.runOn_bind_pure (h.adapter.release c) (fun _ => Except.ok z) s)
    rw [hfinish, map_eq_ok, Except.ok.injEq]
    exact ⟨fun ⟨_, hrelease, hz⟩ => ⟨hz, hrelease⟩, fun ⟨hz, hrelease⟩ => ⟨(), hrelease, hz⟩⟩
  | error e =>
    refine iff_of_false (fun hgives => ?_) fun hok => nomatch hok.1
    unfold finish at hgives
    dsimp only at hgives
    split_ifs at hgives <;> obtain ⟨cleaned, t, -, hgives⟩ := Act.runOn_bind_eq_ok_iff.mp hgives
    · obtain ⟨-, u, -, hgives⟩ := Act.runOn_bind_eq_ok_iff.mp hgives
      cases cleaned <;> simp at hgives
    · simp at hgives

/-- Work without a transaction has a result if there is a connection, the work is done on it, and it
can be given back. -/
theorem run_eq_some_iff (hplain : o.useTransaction = false) :
    ((h.run o f).runOn s).1 = .ok (some x) ↔ ∃ c t u, h.acquire.runOn s = (.ok c, t) ∧
      (f c).runOn t = (.ok x, u) ∧ ((h.adapter.release c).runOn u).1 = .ok () := by
  have hwithin (c : Connection) (t : σ) : ((h.within o c f).runOn t).1 = .ok (.ok x) ↔
      ∃ u, (f c).runOn t = (.ok x, u) ∧ ((h.adapter.release c).runOn u).1 = .ok () := by
    rw [within_eq, body_of_plain h o c f hplain, Act.runOn_bind_ok (Act.runOn_attempt _ _), finish_eq_ok_iff]
    cases (f c).runOn t with
    | mk r u => simp [eq_comm]
  unfold run
  rw [Act.runOn_bind_ok (Act.runOn_attempt _ _)]
  cases hacquire : h.acquire.runOn s with
  | mk r t =>
    cases r with
    | error e =>
      dsimp only
      split_ifs <;> simp
    | ok c =>
      dsimp only
      rw [Act.runOn_bind_eq_ok_iff]
      constructor
      · rintro ⟨b, v, hb, hresult⟩
        cases b with
        | error e =>
          dsimp only at hresult
          split_ifs at hresult <;> simp at hresult
        | ok z =>
          obtain rfl : z = x := by simpa using hresult
          obtain ⟨u, hwork, hrelease⟩ := (hwithin c t).mp (congrArg Prod.fst hb)
          exact ⟨c, t, u, rfl, hwork, hrelease⟩
      · rintro ⟨c', t', u, hsame, hwork, hrelease⟩
        obtain ⟨rfl, rfl⟩ : c = c' ∧ t = t' := by simpa using hsame
        exact ⟨.ok x, _, Prod.ext ((hwithin c t).mpr ⟨u, hwork, hrelease⟩) rfl, rfl⟩

end Handler

/-! ## Reading and what is made of it -/

/-- The objects that a select makes of rows. -/
def Select.objectsOf (r : Repository) (s : Select) (rows : List Record) : Except Error (List Record) := do
  (← Mapper.make r.codec s.columns (s.relations r)).objects (rows.map .record)

namespace Session

variable {δ α β : Type} {x : Session δ} {r : Repository} {given : Option Connection} {w : World δ}
  {work : Connection → Act (World δ) α} {a : α} {b : β}

/-- A read with a connection is done on it. -/
theorem joinRead_given (x : Session δ) (r : Repository) (c : Connection)
    (work : Connection → Act (World δ) α) :
    x.joinRead r (some c) work = work c >>= fun a => pure (some a) := by
  unfold joinRead
  cases r.options <;> rfl

/-- Where work ends with a result, the work that goes on with what is made of this result ends with
what that is, if it is anything. -/
theorem joinRead_settle_iff (g : α → Except Error β)
    (h : ((x.joinRead r given work).runOn w).1 = .ok (some a)) :
    ((x.joinRead r given fun c => work c >>= fun a => Act.ofExcept (g a)).runOn w).1 = .ok (some b) ↔
      g a = .ok b := by
  have hsettled {c : Connection} {t u : World δ} (hwork : (work c).runOn t = (.ok a, u)) :
      (work c >>= fun a => Act.ofExcept (g a)).runOn t = (g a, u) := by
    rw [Act.runOn_settle, hwork]
    rfl
  cases given with
  | some c =>
    rw [joinRead_given, Act.runOn_bind_pure] at h ⊢
    obtain ⟨a', hwork, hsome⟩ := map_eq_ok.mp h
    obtain rfl := Option.some.inj hsome
    rw [hsettled (Prod.ext hwork rfl)]
    simp
  | none =>
    cases hoptions : r.options with
    | improper v =>
      simp only [joinRead, hoptions] at h
      exact nomatch h
    | proper o =>
      simp only [joinRead, hoptions] at h ⊢
      obtain ⟨c, t, u, hacquire, hwork, hrelease⟩ := (Handler.run_eq_some_iff rfl).mp h
      refine (Handler.run_eq_some_iff rfl).trans ⟨?_, fun hb => ?_⟩
      · rintro ⟨c', t', u', hacquire', hwork', -⟩
        obtain ⟨rfl, rfl⟩ : c = c' ∧ t = t' := by simpa using hacquire.symm.trans hacquire'
        exact congrArg Prod.fst ((hsettled hwork).symm.trans hwork')
      · exact ⟨c, t, u, hacquire, (hsettled hwork).trans (by rw [hb]), hrelease⟩

/-- Whether fetching the rows of a statement ends with some rows. -/
def Answers (x : Session δ) (r : Repository) (given : Option Connection) (st : Statement) (w : World δ)
    (rows : List Record) : Prop :=
  ((x.joinRead r given (x.fetch r st)).runOn w).1 = .ok (some rows)

variable {s : Select} {st : Statement} {rows objects : List Record}

/-- A select ends with the objects of the rows that its statement is answered with. -/
theorem objects_eq_some_iff (hbuild : s.build x.database.dialect r = .ok st)
    (hanswers : x.Answers r given st w rows) :
    ((x.objects r s given).runOn w).1 = .ok (some objects) ↔ s.objectsOf r rows = .ok objects := by
  have hwork : (fun c => do
      let rows ← x.fetch r st c
      let m ← Act.ofExcept (Mapper.make r.codec s.columns (s.relations r))
      Act.ofExcept (m.objects (rows.map .record))) =
      fun c => x.fetch r st c >>= fun rows => Act.ofExcept (s.objectsOf r rows) := by
    refine funext fun c => bind_congr fun rows => Act.ext fun w => ?_
    unfold Select.objectsOf
    cases Mapper.make r.codec s.columns (s.relations r) <;> rfl
  unfold Session.objects
  rw [hbuild, Act.runOn_bind_ok (Act.runOn_ofExcept _ _), hwork]
  exact joinRead_settle_iff (s.objectsOf r) hanswers

/-- A select of all gives its objects as a list. -/
theorem select_of_objects (hall : s.amount = .all)
    (h : ((x.objects r s given).runOn w).1 = .ok (some objects)) :
    ((x.select r s given).runOn w).1 = .ok (.list (objects.map .record)) := by
  have hselect : x.select r s given =
      x.objects r s given >>= fun found => pure (.list ((found.getD []).map .record)) := by
    unfold select
    rw [hall]
  rw [hselect, Act.runOn_bind_pure]
  exact map_eq_ok.mpr ⟨_, h, rfl⟩

end Session

end Quarry
