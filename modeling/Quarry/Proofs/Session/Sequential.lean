import Quarry.Proofs.Session.BulkWrite
import Quarry.Wire.Script

/-!
# Writes are sequential, and all or nothing

Statements of a write are executed one after the other on one connection, up to the first one that
fails (`Executed`). On a fresh connection there is a transaction around them that is committed if
none fails and taken back else; on a given connection there is nothing around them.
-/

set_option autoImplicit false

namespace Quarry

open Sql (Statement)
open Handler (answer)

variable {σ δ α : Type}

/-- The call that executes a statement. -/
def execution (c : Connection) (st : Statement) (outcome : Except Error ExecResult) : Call Deed :=
  .use c (.execute st.sql (.list st.params) outcome)

/-- The calls that execute statements with some results. -/
def executions (c : Connection) (statements : List Statement) (results : List ExecResult) :
    List (Call Deed) :=
  (statements.zip results).map fun done => execution c done.1 (.ok done.2)

/-- The number of rows that statements have affected. -/
def affectedBy (results : List ExecResult) : Int :=
  results.foldr (fun result total => result.affected + total) 0

/-- How statements are executed in order, and how many rows they affect: all of them are executed,
or those up to the first that fails. -/
inductive Executed (c : Connection) (statements : List Statement) :
    Except Error Int → List (Call Deed) → Prop
  | all (results : List ExecResult) (hlength : results.length = statements.length) :
      Executed c statements (.ok (affectedBy results)) (executions c statements results)
  | upTo (done later : List Statement) (st : Statement) (results : List ExecResult) (e : Error)
      (hstatements : statements = done ++ st :: later) (hlength : results.length = done.length) :
      Executed c statements (.error e) (executions c done results ++ [execution c st (.error e)])

namespace Executed

variable {c : Connection} {statements : List Statement} {total : Except Error Int}
  {calls : List (Call Deed)}

/-- A statement that succeeds comes before the others. -/
theorem cons (hexecuted : Executed c statements total calls) (st : Statement) (result : ExecResult) :
    Executed c (st :: statements) (total.map (result.affected + ·))
      (execution c st (.ok result) :: calls) := by
  cases hexecuted with
  | all results hlength => exact .all (result :: results) (by simp [hlength])
  | upTo done later failing results e hstatements hlength =>
    exact .upTo (st :: done) later failing (result :: results) e (by simp [hstatements])
      (by simp [hlength])

/-- Each call is the execution of one of the statements. -/
theorem exists_execution (hexecuted : Executed c statements total calls) :
    ∀ call ∈ calls, ∃ st outcome, call = execution c st outcome := by
  have hdone : ∀ (done : List Statement) (results : List ExecResult),
      ∀ call ∈ executions c done results, ∃ st outcome, call = execution c st outcome := by
    intro done results call hmem
    obtain ⟨pair, -, rfl⟩ := List.mem_map.mp hmem
    exact ⟨_, _, rfl⟩
  cases hexecuted with
  | all results hlength => exact hdone _ _
  | upTo done later st results e hstatements hlength =>
    intro call hmem
    obtain hmem | hmem := List.mem_append.mp hmem
    · exact hdone _ _ call hmem
    · exact ⟨_, _, List.mem_singleton.mp hmem⟩

/-- If the total is an error, one of the statements ended with it. -/
theorem mem_of_error {e : Error} (hexecuted : Executed c statements (.error e) calls) :
    ∃ st, execution c st (.error e) ∈ calls := by
  cases hexecuted with
  | upTo done later st results e hstatements hlength => exact ⟨_, List.mem_append_right _ List.mem_cons_self⟩

end Executed

/-! ## Executing statements -/

namespace Database

variable (d : Database σ) (r : Repository) (c : Connection)

/-- A statement is logged before it is executed, or not, and that cannot fail. -/
theorem runOn_reportStatement (a : Adapter σ) (sql : String) (params : List Value) (printed : Bool)
    (s : σ) :
    (Handler.reportStatement a sql (.list params) printed).runOn s = (.ok (), s) ∨
      ∃ level text, (Handler.reportStatement a sql (.list params) printed).runOn s =
        (.ok (), a.log level text s) := by
  have hshown : ∃ shown, (if (Value.list params).isTrue then (Value.list params).items
      else .ok []) = .ok shown := by
    split <;> exact ⟨_, rfl⟩
  obtain ⟨shown, hshown⟩ := hshown
  unfold Handler.reportStatement
  rw [hshown, Act.runOn_bind_ok (Act.runOn_read _ _)]
  cases a.keeps (if printed then .info else .debug) s with
  | false => exact .inl rfl
  | true => exact .inr ⟨_, _, rfl⟩

/-- Writing a statement is one call. -/
theorem transcribed_write (st : Statement) (t : Transcribed σ Deed) :
    ((d.transcribed.write r c st).runOn t).2.calls =
      t.calls ++ [execution c st ((d.transcribed.write r c st).runOn t).1] := by
  unfold Database.write
  obtain hreport | ⟨level, text, hreport⟩ := runOn_reportStatement d.transcribed.toAdapter st.sql
    st.params r.printQuery.isTrue t <;>
  · rw [Act.runOn_bind_ok hreport]
    rfl

/-- Statements are executed in order, up to the first that fails. -/
theorem transcribed_writeEach (statements : List Statement) (t : Transcribed σ Deed) :
    ∃ calls, ((d.transcribed.writeEach r c statements).runOn t).2.calls = t.calls ++ calls ∧
      Executed c statements ((d.transcribed.writeEach r c statements).runOn t).1 calls := by
  -- a statement that succeeds goes in front of whatever becomes of the rest; one that fails is the last
  induction statements generalizing t with
  | nil => exact ⟨[], (List.append_nil _).symm, .all [] rfl⟩
  | cons st rest ih =>
    unfold Database.writeEach
    have hwrite := d.transcribed_write r c st t
    cases hrun : (d.transcribed.write r c st).runOn t with
    | mk outcome u =>
      rw [hrun] at hwrite
      cases outcome with
      | error e =>
        rw [Act.runOn_bind_error hrun]
        exact ⟨_, hwrite, .upTo [] rest st [] e rfl rfl⟩
      | ok result =>
        rw [Act.runOn_bind_ok hrun]
        obtain ⟨calls, hcalls, hexecuted⟩ := ih u
        rw [Act.runOn_bind_pure]
        refine ⟨execution c st (.ok result) :: calls, ?_, hexecuted.cons st result⟩
        rw [hcalls, hwrite, List.append_assoc]
        rfl

end Database

/-! ## Writes as work -/

/-- How writing goes as work on a connection: statements are executed, and the rows are counted. -/
def Writes (statements : List Statement) (c : Connection) (r : Except Error WriteResult)
    (calls : List (Call Deed)) : Prop :=
  ∃ total, Executed c statements total calls ∧ r = total.map fun n => { affected := n }

namespace Database

variable (d : Database σ) (r : Repository)

/-- The work of a write. -/
def writing (statements : List Statement) (c : Connection) : Act σ WriteResult := do
  return { affected := ← d.writeEach r c statements }

/-- Writing some statements adds calls for them. -/
theorem transcribed_writing (statements : List Statement) (c : Connection) (t : Transcribed σ Deed) :
    ∃ calls, ((d.transcribed.writing r statements c).runOn t).2.calls = t.calls ++ calls ∧
      Writes statements c ((d.transcribed.writing r statements c).runOn t).1 calls := by
  obtain ⟨calls, hcalls, hexecuted⟩ := d.transcribed_writeEach r c statements t
  unfold Database.writing
  rw [Act.runOn_bind_pure]
  exact ⟨calls, hcalls, _, hexecuted, rfl⟩

/-- Writing with a transcript retells writing as it is watched. -/
theorem alike_writing (statements : List Statement) (c : Connection) :
    Alike (Retells (Writes statements)) (d.transcribed.writing r statements c)
      (Watched.work (d.writing r statements) c) := by
  rintro ⟨s, calls⟩ ⟨_, events⟩ ⟨rfl, htells⟩
  obtain ⟨executing, hcalls, hwrites⟩ := d.transcribed_writing r statements c ⟨s, calls⟩
  have halike : Alike (fun t s => t.state = s) (d.transcribed.writing r statements c)
      (d.writing r statements c) :=
    (d.transcribed_mirrors.writeEach c statements).bind fun _ => .pure _
  have hplain := halike.runOn_plain s calls
  refine ⟨(congrArg Prod.fst hplain).symm, (congrArg Prod.snd hplain).symm, ?_⟩
  show Tells _ (events ++ [.work c ((d.writing r statements c).runOn s).1]) _
  rw [hcalls, hplain]
  exact htells.concat (.work hwrites)

/-- What is passed over leaves nothing but log records. -/
theorem transcribed_reportSkipped (table : Value) (n : Nat) (s : σ) :
    ∃ u, (d.transcribed.reportSkipped table n).runOn ⟨s, []⟩ = (.ok (), ⟨u, []⟩) := by
  induction n generalizing s with
  | zero => exact ⟨s, rfl⟩
  | succ n ih => exact ih _

/-- A write goes through its statements, if it has any, after nothing but log records. -/
theorem exists_runOn_bulk (given : Option Connection) {b : BulkWrite} {statements : List Statement}
    (hbuild : b.statements d.transcribed.dialect r = .ok statements) (hsome : statements ≠ []) (s : σ) :
    ∃ u, (d.transcribed.bulk r given b).runOn ⟨s, []⟩ =
      (d.transcribed.joinWrite r given (d.transcribed.writing r statements)).runOn ⟨u, []⟩ := by
  have hall : d.transcribed.writeAll r given statements =
      d.transcribed.joinWrite r given (d.transcribed.writing r statements) := by
    cases statements with
    | nil => exact absurd rfl hsome
    | cons st rest => rfl
  obtain ⟨u, hu⟩ := d.transcribed_reportSkipped r.table (b.skipped d.transcribed.dialect r) s
  refine ⟨u, ?_⟩
  unfold Database.bulk
  rw [hbuild, Act.runOn_bind_ok hu, Act.runOn_bind_ok (Act.runOn_ofExcept _ _), hall]

/-- A write that cannot be built leaves nothing but log records either. -/
theorem runOn_bulk_of_error (given : Option Connection) {b : BulkWrite} {e : Error}
    (hbuild : b.statements d.transcribed.dialect r = .error e) (s : σ) :
    ∃ u, (d.transcribed.bulk r given b).runOn ⟨s, []⟩ = (.error e, ⟨u, []⟩) := by
  obtain ⟨u, hu⟩ := d.transcribed_reportSkipped r.table (b.skipped d.transcribed.dialect r) s
  refine ⟨u, ?_⟩
  unfold Database.bulk
  rw [hbuild, Act.runOn_bind_ok hu]
  exact Act.runOn_bind_error (Act.runOn_ofExcept _ _)

end Database

/-- The options of a repository are the usual ones, or none are given. -/
def Repository.HasUsualOptions (r : Repository) : Prop :=
  r.options = .proper {} ∨ ∃ v, r.options = .improper v ∧ v.isTrue = false

namespace Database

variable {d : Database σ} {r : Repository} {f : Connection → Act σ α}

/-- A write without a connection goes through a run with the usual options. -/
theorem joinWrite_usual (husual : r.HasUsualOptions) :
    d.joinWrite r none f = d.handler.run {} f := by
  unfold Database.joinWrite
  obtain hproper | ⟨v, himproper, hv⟩ := husual
  · rw [hproper]
    rfl
  · rw [himproper]
    simp only [hv]
    rfl

/-- A write with a connection is done on it. -/
theorem joinWrite_given (c : Connection) :
    d.joinWrite r (some c) f = f c >>= fun x => pure (some x) := by
  unfold Database.joinWrite
  cases r.options <;> rfl

end Database

/-! ## What is around the statements -/

/-- What follows statements in a transaction, by how they ended, and what the write ends with. -/
inductive Settled (c : Connection) :
    Except Error Int → List (Call Deed) → Except Error (Option WriteResult) → Prop
  | committed (n : Int) (released : Except Error Unit) :
      Settled c (.ok n) [.commit c (.ok ()), .release c released]
        (released.map fun _ => some { affected := n })
  | uncommitted (n : Int) (e raised : Error) (later : List (Call Deed))
      (hlater : ∀ call ∈ later, call.GivesUp) :
      Settled c (.ok n) (.commit c (.error e) :: later) (.error raised)
  | takenBack (e : Error) (rolledBack released : Except Error Unit) :
      Settled c (.error e) [.rollback c rolledBack, .release c released]
        (released.bind fun _ => (quiet rolledBack).bind fun _ => .error e)

section

variable {c : Connection} {statements : List Statement} {body last : List (Event WriteResult)}
  {calls : List (Call Deed)} {r : Except Error (Except Error WriteResult)}

/-- What was done in the transaction, as the transcript tells it. -/
theorem Worked.told {b : Except Error WriteResult} (hworked : Worked {} c b body)
    (htells : Tells (Writes statements) body calls) :
    (∃ e, calls = [.begin c (.error e)]) ∨
      ∃ total executing, Executed c statements total executing ∧
        ((∃ e, total = .error e ∧ b = .error e ∧ calls = .begin c (.ok ()) :: executing) ∨
          ∃ n outcome, total = .ok n ∧ (b = outcome.map fun _ => { affected := n }) ∧
            calls = .begin c (.ok ()) :: (executing ++ [.commit c outcome])) := by
  cases hworked with
  | unbegun htransaction e =>
    exact .inl ⟨e, shows_begin.mp (Tells.single_iff.mp htells)⟩
  | undone e =>
    obtain ⟨_, executing, rfl, hbegin, hwork⟩ := Tells.cons_iff.mp htells
    obtain rfl := shows_begin.mp hbegin
    obtain ⟨total, hexecuted, htotal⟩ := shows_work.mp (Tells.single_iff.mp hwork)
    cases total with
    | ok n => exact absurd htotal (by simp [Except.map])
    | error e' =>
      obtain rfl : e = e' := by simpa [Except.map] using htotal
      exact .inr ⟨_, executing, hexecuted, .inl ⟨e, rfl, rfl, rfl⟩⟩
  | uncommitted htransaction x e =>
    obtain ⟨_, _, rfl, hbegin, hrest⟩ := Tells.cons_iff.mp htells
    obtain ⟨executing, _, rfl, hwork, hcommit⟩ := Tells.cons_iff.mp hrest
    obtain rfl := shows_begin.mp hbegin
    obtain rfl := shows_commit.mp (Tells.single_iff.mp hcommit)
    obtain ⟨total, hexecuted, htotal⟩ := shows_work.mp hwork
    cases total with
    | error e' => exact absurd htotal (by simp [Except.map])
    | ok n => exact .inr ⟨_, executing, hexecuted, .inr ⟨n, .error e, rfl, rfl, rfl⟩⟩
  | done x =>
    obtain ⟨_, _, rfl, hbegin, hrest⟩ := Tells.cons_iff.mp htells
    obtain ⟨executing, _, rfl, hwork, hcommit⟩ := Tells.cons_iff.mp hrest
    obtain rfl := shows_begin.mp hbegin
    obtain rfl := shows_commit.mp (Tells.single_iff.mp hcommit)
    obtain ⟨total, hexecuted, htotal⟩ := shows_work.mp hwork
    cases total with
    | error e' => exact absurd htotal (by simp [Except.map])
    | ok n => exact .inr ⟨_, executing, hexecuted, .inr ⟨n, .ok (), rfl, htotal, rfl⟩⟩

/-- After a commit the connection is given back. -/
theorem Closed.told_committed {n : Int} (hclosed : Closed {} c (.ok { affected := n }) r last)
    (htells : Tells (Writes statements) last calls) :
    Settled c (.ok n) (.commit c (.ok ()) :: calls) (answer {} (.ok r)) := by
  generalize hx : ({ affected := n } : WriteResult) = x at hclosed
  cases hclosed with
  | succeeded _ released =>
    obtain rfl := shows_release.mp (Tells.single_iff.mp htells)
    have hanswer : answer {} (.ok (released.map fun _ => .ok x)) = released.map fun _ => some x := by
      cases released <;> rfl
    rw [hanswer, ← hx]
    exact .committed n released

/-- After an error the transaction is rolled back, and the connection is given up. -/
theorem Closed.told_takenBack {e : Error} (hordinary : e.isOrdinary = true) (hkept : e.isLost = false)
    (hclosed : Closed {} c (.error e) r last) (htells : Tells (Writes statements) last calls) :
    Settled c (.error e) calls (answer {} (.ok r)) := by
  cases hclosed with
  | interrupted _ hnot => exact absurd hordinary (by simp [hnot])
  | failed _ _ hrolls => exact absurd hrolls (by simp [rollsBack, hkept])
  | rolledBack _ _ _ rolledBack released =>
    obtain ⟨_, _, rfl, hrollback, hrelease⟩ := Tells.cons_iff.mp htells
    obtain rfl := shows_rollback.mp hrollback
    obtain rfl := shows_release.mp (Tells.single_iff.mp hrelease)
    have hanswer : answer {} (.ok (released.bind fun _ => (quiet rolledBack).map fun _ =>
        (.error e : Except Error WriteResult))) =
          released.bind fun _ => (quiet rolledBack).bind fun _ => .error e := by
      cases released with
      | error _ => rfl
      | ok _ => cases quiet rolledBack <;> simp [Except.bind, Except.map, answer]
    rw [hanswer]
    exact .takenBack e rolledBack released

/-- A commit that failed is followed by giving the connection up. -/
theorem Closed.told_uncommitted {n : Int} {e : Error} (hclosed : Closed {} c (.error e) r last)
    (htells : Tells (Writes statements) last calls) :
    Settled c (.ok n) (.commit c (.error e) :: calls) (answer {} (.ok r)) := by
  have hraised : ∃ raised, answer {} (.ok r) = .error raised := by
    cases hclosed with
    | interrupted _ _ released => cases released <;> exact ⟨_, rfl⟩
    | failed _ _ _ released => cases released <;> exact ⟨_, rfl⟩
    | rolledBack _ _ _ rolledBack released =>
      cases released with
      | error _ => exact ⟨_, rfl⟩
      | ok _ => cases quiet rolledBack <;> simp [Except.bind, Except.map, answer]
  obtain ⟨raised, hraised⟩ := hraised
  rw [hraised]
  exact .uncommitted n e raised calls (htells.givesUp hclosed.givesUp)

/-- What is told of a transaction after it has begun. -/
theorem Worked.told_settled {b : Except Error WriteResult} {told : List (Call Deed)}
    (hworked : Worked {} c b body) (hclosed : Closed {} c b r last)
    (hbody : Tells (Writes statements) body calls) (hlast : Tells (Writes statements) last told)
    (hfailing : ∀ st e, execution c st (.error e) ∈ calls → e.isOrdinary = true ∧ e.isLost = false) :
    (∃ e, calls = [.begin c (.error e)]) ∨ ∃ total executing settling,
      calls ++ told = .begin c (.ok ()) :: (executing ++ settling) ∧
        Executed c statements total executing ∧ Settled c total settling (answer {} (.ok r)) := by
  obtain hunbegun | ⟨total, executing, hexecuted, ⟨e, rfl, rfl, rfl⟩ | ⟨n, outcome, rfl, rfl, rfl⟩⟩ :=
    hworked.told hbody
  · exact .inl hunbegun
  · -- a failure among the statements is one of those that keep the connection
    obtain ⟨st, hmem⟩ := hexecuted.mem_of_error
    obtain ⟨hordinary, hkept⟩ := hfailing st e (List.mem_cons_of_mem _ hmem)
    exact .inr ⟨.error e, executing, told, rfl, hexecuted,
      hclosed.told_takenBack hordinary hkept hlast⟩
  · cases outcome with
    | ok u =>
      exact .inr ⟨.ok n, executing, .commit c (.ok u) :: told, by simp, hexecuted,
        hclosed.told_committed hlast⟩
    | error e =>
      exact .inr ⟨.ok n, executing, .commit c (.error e) :: told, by simp, hexecuted,
        hclosed.told_uncommitted hlast⟩

end

/-! ## Whole writes -/

/-- Whether a transaction begins. -/
def Call.IsBegin {ω : Type} : Call ω → Prop
  | .begin _ _ => True
  | _ => False

/-- What comes before a transaction begins none. -/
theorem Call.Preliminary.not_isBegin {call : Call Deed} (hpreliminary : call.Preliminary) :
    ¬call.IsBegin := by
  intro hbegin
  cases call <;> first | exact hpreliminary | exact hbegin

/-- What gives a connection up begins no transaction. -/
theorem Call.GivesUp.not_isBegin {call : Call Deed} (hgives : call.GivesUp) : ¬call.IsBegin := by
  intro hbegin
  cases call <;> first | exact hgives | exact hbegin

/-- Once settled, nothing begins a transaction. -/
theorem Settled.not_isBegin {c : Connection} {total : Except Error Int} {calls : List (Call Deed)}
    {outcome : Except Error (Option WriteResult)} (hsettled : Settled c total calls outcome) :
    ∀ call ∈ calls, ¬call.IsBegin := by
  cases hsettled with
  | committed n released => simp [Call.IsBegin]
  | takenBack e rolledBack released => simp [Call.IsBegin]
  | uncommitted n e raised later hlater =>
    intro call hmem
    obtain rfl | hmem := List.mem_cons.mp hmem
    · exact id
    · exact (hlater call hmem).not_isBegin

/-- A write on a database, with its transcript. -/
abbrev Database.seenBulk (d : Database σ) (r : Repository) (given : Option Connection) (b : BulkWrite)
    (s : σ) : Except Error (Option WriteResult) × Transcribed σ Deed :=
  (d.transcribed.bulk r given b).runOn ⟨s, []⟩

section

variable {d : Database σ} {r : Repository} {b : BulkWrite} {statements : List Statement}

/-- On a given connection there is nothing but the statements. -/
theorem seenBulk_given (hbuild : b.statements d.dialect r = .ok statements) (hsome : statements ≠ [])
    (c : Connection) (s : σ) :
    ∃ total, Executed c statements total (d.seenBulk r (some c) b s).2.calls ∧
      (d.seenBulk r (some c) b s).1 = total.map fun n => some { affected := n } := by
  obtain ⟨u, hu⟩ := d.exists_runOn_bulk r (some c) hbuild hsome s
  obtain ⟨calls, hcalls, total, hexecuted, htotal⟩ := d.transcribed_writing r statements c ⟨u, []⟩
  unfold Database.seenBulk
  rw [hu, Database.joinWrite_given, Act.runOn_bind_pure]
  refine ⟨total, hcalls ▸ hexecuted, ?_⟩
  rw [htotal]
  cases total <;> rfl

/-- On a fresh connection there is a transaction around the statements, if it could begin. -/
theorem seenBulk_fresh (hbuild : b.statements d.dialect r = .ok statements) (hsome : statements ≠ [])
    (husual : r.HasUsualOptions) (s : σ) (hfailing : ∀ c st e,
      execution c st (.error e) ∈ (d.seenBulk r none b s).2.calls →
        e.isOrdinary = true ∧ e.isLost = false)
    {before after : List (Call Deed)} {c : Connection}
    (hbegun : (d.seenBulk r none b s).2.calls = before ++ .begin c (.ok ()) :: after) :
    (∀ call ∈ before, call.Preliminary) ∧ ∃ total executing settling, after = executing ++ settling ∧
      Executed c statements total executing ∧ Settled c total settling (d.seenBulk r none b s).1 := by
  obtain ⟨u, hu⟩ := d.exists_runOn_bulk r none hbuild hsome s
  rw [Database.joinWrite_usual husual] at hu
  have hseen : d.seenBulk r none b s =
      (d.handler.transcribed.run {} (d.transcribed.writing r statements)).runOn ⟨u, []⟩ := hu
  obtain ⟨events, y, htells, hserved, hanswer⟩ :=
    d.handler.transcribed_run (o := {}) (d.alike_writing r statements) u
  rw [← hseen] at htells hserved hanswer
  rw [hbegun] at htells hfailing
  -- a run without a connection begins nothing
  have hnone : (∀ event ∈ events, event.Preliminary) → False := fun hpreliminary =>
    (htells.preliminary hpreliminary (.begin c (.ok ())) (by simp)).elim
  cases hserved with
  | uncounted e t htries => exact (hnone (by simp)).elim
  | unserved htries htried => exact (hnone htried.preliminary).elim
  | @served _ c' _ _ _ _ acquiring body last htries htried hbody hlast =>
    obtain ⟨front, rest, hcalls, hfront, hrest⟩ := htells.split
    obtain ⟨working, closing, rfl, hworking, hclosing⟩ := hrest.split
    have hfront := hfront.preliminary htried.preliminary
    have hfrontBegins : ∀ call ∈ front, ¬call.IsBegin := fun call hmem => (hfront call hmem).not_isBegin
    obtain ⟨e, rfl⟩ | ⟨total, executing, settling, hrest, hexecuted, hsettled⟩ :=
      hbody.told_settled hlast hworking hclosing fun st e hmem =>
        hfailing c' st e (by rw [hcalls]; simp [hmem])
    · -- the one begin of the transcript failed, and the one that was found did not
      obtain ⟨-, hsame, -⟩ := split_unique hcalls.symm hfrontBegins
        (fun call hmem => (hclosing.givesUp hlast.givesUp call hmem).not_isBegin) trivial
      exact absurd hsame (by simp)
    · rw [hrest] at hcalls
      have hbehind : ∀ call ∈ executing ++ settling, ¬call.IsBegin := by
        intro call hmem
        obtain hmem | hmem := List.mem_append.mp hmem
        · obtain ⟨st, outcome, rfl⟩ := hexecuted.exists_execution call hmem
          exact id
        · exact hsettled.not_isBegin call hmem
      obtain ⟨rfl, hsame, rfl⟩ := split_unique hcalls.symm hfrontBegins hbehind trivial
      obtain rfl : c' = c := by simpa using hsame
      rw [hanswer]
      exact ⟨hfront, total, executing, settling, rfl, hexecuted, hsettled⟩

end

/-- Updates and deletes are sequential and all or nothing, and they join a given connection. If
nothing but statements fail, and those ordinarily and without the loss of the connection, a
transaction that has begun on a fresh connection holds the statements in order up to the first that
fails, and it is committed once if none fails and taken back once else. On a given connection
nothing is done but to execute the statements, in order and up to the first that fails. -/
theorem Session.bulk_all_or_nothing (x : Session δ) (r : Repository) (b : BulkWrite) (s : World δ)
    {statements : List Statement} (hbuild : b.statements x.database.dialect r = .ok statements)
    (hsome : statements ≠ []) :
    let fresh := x.database.seenBulk r none b s
    let joined := fun c => x.database.seenBulk r (some c) b s
    ((x.bulk r none b).runOn s = (fresh.1, fresh.2.state) ∧
      ∀ c, (x.bulk r (some c) b).runOn s = ((joined c).1, (joined c).2.state)) ∧
    (r.HasUsualOptions →
      (∀ c st e, execution c st (.error e) ∈ fresh.2.calls → e.isOrdinary = true ∧ e.isLost = false) →
      ∀ before c after, fresh.2.calls = before ++ .begin c (.ok ()) :: after →
        (∀ call ∈ before, call.Preliminary) ∧ ∃ total executing settling,
          after = executing ++ settling ∧ Executed c statements total executing ∧
            Settled c total settling fresh.1) ∧
    ∀ c, ∃ total, Executed c statements total (joined c).2.calls ∧
      (joined c).1 = total.map fun n => some { affected := n } := by
  intro fresh joined
  have hplain : ∀ given, (x.bulk r given b).runOn s = ((x.database.seenBulk r given b s).1,
      (x.database.seenBulk r given b s).2.state) := by
    intro given
    rw [Session.bulk_eq]
    exact (x.database.transcribed_mirrors.bulk b).runOn_plain s []
  refine ⟨⟨hplain none, fun c => hplain (some c)⟩, ?_, fun c => seenBulk_given hbuild hsome c s⟩
  intro husual hfailing before c after hbegun
  exact seenBulk_fresh hbuild hsome husual s hfailing hbegun

/-! ## A write that fails half way -/

/-- A session with a database in memory. -/
def inMemory : Session (Script Answer) := ⟨.sqlite ":memory:" {}, Script.wire⟩

/-- A table of one column. -/
def singles : Repository := ⟨.text "t", ⟨["a"], [], [], true, true⟩, [], .bool false, .proper {}⟩

/-- The delete of two single rows. -/
def twoDeletes : BulkWrite := .delete (.list [.record [("a", .int 1)], .record [("a", .int 2)]])

/-- The statement that deletes a single row. -/
def deleteOf (n : Int) : Statement := ⟨"DELETE FROM \"t\" WHERE \"a\" = ?", [.int n]⟩

/-- The failure that there is no space. -/
def diskFull : Error := .general [.text "disk full"] []

/-- A world in which the second statement fails, and that keeps no log. -/
def fillingUp : World (Script Answer) :=
  { outside := { replies := [("execute", .ok { rowCount := 1 }), ("execute", .error diskFull)] }
    log := { threshold := 50 } }

/-- Two deletes are two statements. -/
theorem statements_twoDeletes :
    twoDeletes.statements .sqlite singles = .ok [deleteOf 1, deleteOf 2] := rfl

/-- The first delete is executed, the second finds the disk full, and the transaction is rolled
back. -/
theorem calls_twoDeletes :
    (inMemory.database.seenBulk singles none twoDeletes fillingUp).2.calls =
      [.acquire (.ok ⟨"c1"⟩), .ping ⟨"c1"⟩ (.ok true), .begin ⟨"c1"⟩ (.ok ()),
        execution ⟨"c1"⟩ (deleteOf 1) (.ok ⟨1, 0⟩), execution ⟨"c1"⟩ (deleteOf 2) (.error diskFull),
        .rollback ⟨"c1"⟩ (.ok ()), .release ⟨"c1"⟩ (.ok ())] := rfl

/-- Of two deletes the second one fails, and then both are taken back. -/
theorem Session.bulk_all_or_nothing_second_fails :
    let seen := inMemory.database.seenBulk singles none twoDeletes fillingUp
    ∃ total executing settling, Executed ⟨"c1"⟩ [deleteOf 1, deleteOf 2] total executing ∧
      Settled ⟨"c1"⟩ total settling seen.1 ∧
      executing ++ settling = [execution ⟨"c1"⟩ (deleteOf 1) (.ok ⟨1, 0⟩),
        execution ⟨"c1"⟩ (deleteOf 2) (.error diskFull), .rollback ⟨"c1"⟩ (.ok ()),
        .release ⟨"c1"⟩ (.ok ())] := by
  intro seen
  obtain ⟨-, hfresh, -⟩ :=
    inMemory.bulk_all_or_nothing singles twoDeletes fillingUp statements_twoDeletes (by simp)
  have hfailing : ∀ c st e, execution c st (.error e) ∈ seen.2.calls →
      e.isOrdinary = true ∧ e.isLost = false := by
    intro c st e hmem
    rw [calls_twoDeletes] at hmem
    obtain ⟨-, -, -, rfl⟩ : c = ⟨"c1"⟩ ∧ st.sql = (deleteOf 2).sql ∧ st.params = (deleteOf 2).params ∧
        e = diskFull := by simpa [execution] using hmem
    exact ⟨rfl, rfl⟩
  obtain ⟨-, total, executing, settling, hsame, hexecuted, hsettled⟩ :=
    hfresh (.inl rfl) hfailing [.acquire (.ok ⟨"c1"⟩), .ping ⟨"c1"⟩ (.ok true)] _ _ calls_twoDeletes
  exact ⟨total, executing, settling, hexecuted, hsettled, hsame.symm⟩

end Quarry
