import Quarry.Proofs.Database.MysqlReporting
import Quarry.Proofs.Database.SqliteReporting

/-!
# What is fetched

The rows that are fetched come from one answer of the driver: the one to the statement. What either
database makes of an answer is a function of it (`Session.rows`), and whatever else happens over the
wire, fetching that succeeds gives the value of this function (`Session.exists_answer_of_fetchAll`).
-/

set_option autoImplicit false

namespace Quarry

variable {δ : Type} {c : Connection} {sql : String} {params : Value} {s : World δ}

/-- What is made of the answer to a statement by `make`, where something was fetched. -/
def FetchedBy (make : Answer → Except Error (List Record)) : Report (List Record) := fun r exchanges =>
  ∀ records, r = .ok records →
    ∃ e ∈ exchanges, ∃ a, e.request.isCursor = false ∧ e.outcome = .ok a ∧ make a = .ok records

namespace Mysql

/-- In MySQL an operation that reads is answered by the rows of its columns. -/
theorem fetchedBy_fetchAll (w : Wire δ) (settings : Settings)
    (hparams : ∃ values, boundValues params = .ok values) :
    Asks (fetchAll w.recorded settings c sql params) (fetchAll w settings c sql params) s
      (FetchedBy (rowsOf settings)) := by
  obtain ⟨values, hvalues⟩ := hparams
  have hstatement (t : World δ) := (asks_statement w c sql (s := t) hvalues true).settle (rowsOf settings)
  refine (asks_withCursor w c hstatement).mono ?_
  rintro r exchanges h records rfl
  obtain ⟨e, -, hr⟩ | ⟨opened, y, during, closing, ⟨u, ⟨z, hz, rfl⟩, rfl⟩, rfl, hr⟩ := h
  · cases hr
  · obtain ⟨closed, -, hrows⟩ := bind_eq_ok.mp hr.symm
    obtain ⟨a, ha, hmade⟩ := bind_eq_ok.mp hrows
    have hanswer : z = .ok a := by
      cases z with
      | ok b => exact ha
      | error e => cases e <;> cases ha
    obtain ⟨answering, hmem, hstatement, hanswered⟩ := hz.answered a hanswer
    exact ⟨answering, List.mem_cons_of_mem _ (List.mem_append_left _ hmem), a, hstatement, hanswered, hmade⟩

end Mysql

namespace Sqlite

/-- In SQLite an operation that reads is answered by its rows, zipped with the columns. -/
theorem fetchedBy_fetchAll (w : Wire δ) (hparams : ∃ values, boundValues params = .ok values)
    (hopen : s.isClosed c = false) :
    Asks (fetchAll w.recorded c sql params) (fetchAll w c sql params) s
      (FetchedBy fun a => columnsOf a >>= fun columns => a.rows.mapM (zipRow columns)) := by
  obtain ⟨values, hvalues⟩ := hparams
  refine (asks_fetchAll w sql hvalues hopen).mono ?_
  rintro r exchanges ⟨found, hfound, rfl⟩ records hr
  obtain ⟨f, hf, hmade⟩ := bind_eq_ok.mp hr
  have hgiven : found = .ok f := by
    cases found with
    | ok g => exact hf
    | error e => cases e <;> cases hf
  obtain ⟨e, -, hfailed⟩ | ⟨a, fetched, closing, rfl, hend⟩ := hfound
  · rw [hfailed] at hgiven
    cases hgiven
  · obtain ⟨closed, -, hrest⟩ := bind_eq_ok.mp (hend.symm.trans hgiven)
    obtain ⟨_, -, hpaired⟩ := bind_eq_ok.mp hrest
    obtain ⟨columns, hcolumns, rfl⟩ := map_eq_ok.mp hpaired
    have hrows : (columnsOf a >>= fun columns => a.rows.mapM (zipRow columns)) = .ok records :=
      bind_eq_ok.mpr ⟨columns, hcolumns, hmade⟩
    exact ⟨_, List.mem_cons_self, a, isCursor_request c sql values, rfl, hrows⟩

end Sqlite

namespace Session

/-- What fetching makes of the answer to a statement. -/
def rows (x : Session δ) (a : Answer) : Except Error (List Record) :=
  match x.target.engine with
  | .mysql => Mysql.rowsOf x.settings a
  | .sqlite _ => do a.rows.mapM (Sqlite.zipRow (← Sqlite.columnsOf a))

/-- Fetching that succeeds gives what it makes of the answer to its statement. -/
theorem exists_answer_of_fetchAll (x : Session δ) {records : List Record}
    (hopen : x.target.engine = .mysql ∨ s.isClosed c = false)
    (hparams : ∃ values, boundValues params = .ok values)
    (h : ((x.database.fetchAll c sql params).runOn s).1 = .ok records) :
    ∃ e ∈ x.exchanges c (.fetchAll sql params) s, ∃ a, e.request.isCursor = false ∧
      e.outcome = .ok a ∧ x.rows a = .ok records := by
  have hasks : Asks (x.recorded.database.fetchAll c sql params) (x.database.fetchAll c sql params) s
      (FetchedBy x.rows) := by
    unfold database recorded rows
    cases hengine : x.target.engine with
    | mysql => exact Mysql.fetchedBy_fetchAll x.wire x.settings hparams
    | sqlite path =>
      exact Sqlite.fetchedBy_fetchAll x.wire hparams (hopen.resolve_left (by simp [hengine]))
  obtain ⟨exchanges, hrun, hfetched⟩ := hasks []
  have hexchanges : x.exchanges c (.fetchAll sql params) s = exchanges := by
    unfold Session.exchanges Database.perform
    rw [hrun]
    rfl
  rw [hexchanges]
  exact hfetched records h

end Session

end Quarry
