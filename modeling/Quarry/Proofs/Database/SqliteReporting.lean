import Quarry.Proofs.Database.Reporting

/-!
# Reports of an SQLite file

A statement comes with its cursor. Where rows are fetched, this and the closing of the cursor are
watched for faults of the driver as the statement itself is; where a statement is executed, the
cursor is closed unwatched.
-/

set_option autoImplicit false

namespace Quarry

variable {δ : Type}

namespace Sqlite

variable {w : Wire δ} {c : Connection} {sql : String} {params : Value} {s : World δ} {values : List Value}

/-- How SQLite reports on statements. -/
theorem reporting {x : Session δ} {path : String} (hengine : x.target.engine = .sqlite path) (sql : String)
    (params : Value) : x.Reporting (wrapFault sql params) sql params := by
  intro f h
  have hfailure : f.isSqliteFailure = true := by simpa [Session.isDriverError, hengine] using h
  unfold wrapFault
  rw [if_pos hfailure]
  exact ⟨_, rfl, rfl, rfl⟩

/-- No statement is about a cursor alone. -/
theorem isCursor_request (c : Connection) (sql : String) (values : List Value) :
    (request c sql values).isCursor = false := by
  unfold request
  split <;> rfl

/-- To send a statement over an open connection is one exchange. -/
theorem asks_send (w : Wire δ) (sql : String) (values : List Value) (hopen : s.isClosed c = false) :
    Asks (send w.recorded c sql values) (send w c sql values) s fun r exchanges =>
      exchanges = [⟨request c sql values, r⟩] := by
  refine Asks.andThen (x := false) (fun _ => ?_) ?_ ?_
  · rw [Act.runOn_read]
    exact congrArg (fun closed => (Except.ok closed, _)) hopen
  · rw [Act.runOn_read, hopen]
  · have hnote (a : Answer) (t : World δ) :=
      (Asks.note (s := t) c (afterwards (request c sql values))).settle fun _ => (.ok a : Except Error Answer)
    refine (Asks.send w (request c sql values)).bind hnote ?_ ?_
    · rintro e exchanges rfl
      rfl
    · rintro a r exchanges later rfl ⟨_, ⟨rfl, rfl⟩, rfl⟩
      rfl

variable {x : Session δ} {path : String}

/-- A transaction command settles with its one exchange. -/
theorem asks_transaction (op : Operation) (hengine : x.target.engine = .sqlite path)
    (hcommand : op.isCommand = true) (hopen : s.isClosed c = false) :
    Asks (do command x.wire.recorded c op.sql; return []) (do command x.wire c op.sql; return []) s
      (x.Settles op) :=
  Session.asks_command hcommand (reporting hengine op.sql .null)
    ((asks_send x.wire op.sql [] hopen).mono fun _ _ h => ⟨_, h⟩)

/-- Where no transaction is open there is nothing to end. -/
theorem asks_finish (op : Operation) (hengine : x.target.engine = .sqlite path)
    (hcommand : op.isCommand = true) (hopen : s.isClosed c = false) :
    Asks (do finish x.wire.recorded c op.sql; return []) (do finish x.wire c op.sql; return []) s
      (x.Settles op) := by
  unfold finish
  rw [bind_assoc, bind_assoc]
  refine Asks.andThen (x := s.inTransaction c) (fun _ => rfl) rfl ?_
  cases s.inTransaction c with
  | true => exact asks_transaction op hengine hcommand hopen
  | false =>
    refine (Asks.ofExcept (.ok [])).mono ?_
    rintro r exchanges ⟨rfl, rfl⟩ -
    exact iff_of_true (Session.reports_ok (Operation.reads_eq_false hcommand) [] [])
      (Session.leaks_eq_false hcommand [])

/-- What executing asks for: the cursor of a statement that did not fail is closed. -/
theorem asks_execute (w : Wire δ) (sql : String) (hvalues : boundValues params = .ok values)
    (hopen : s.isClosed c = false) :
    Asks (execute w.recorded c sql params) (execute w c sql params) s fun r exchanges =>
      (∃ e, exchanges = [⟨request c sql values, .error e⟩] ∧
        r = Asks.wrapped (wrapFault sql params) (.error e)) ∨
      ∃ a result closing, exchanges = [⟨request c sql values, .ok a⟩, ⟨.closeCursor c, closing⟩] ∧
        r = closing.bind fun _ => .ok result := by
  refine Asks.andThen (x := values) (fun _ => congrArg (·, _) hvalues) (congrArg (·, _) hvalues) ?_
  have hclose (a : Answer) (t : World δ) := (Asks.send (s := t) w (.closeCursor c)).settle fun _ =>
    (.ok ⟨max a.rowCount 0, if max a.rowCount 0 ≠ 0 ∧ a.lastId.getD 0 ≠ 0 ∧ isInsert sql then
      a.lastId.getD 0 - max a.rowCount 0 + 1 else 0⟩ : Except Error ExecResult)
  refine ((asks_send w sql values hopen).wrapping (wrapFault sql params)).bind hclose ?_ ?_
  · rintro e exchanges ⟨y, rfl, hy⟩
    cases y with
    | ok a => cases hy
    | error cause =>
      refine .inl ⟨cause, rfl, ?_⟩
      cases cause <;> cases hy <;> rfl
  · rintro a r exchanges later ⟨y, rfl, hy⟩ ⟨closing, rfl, rfl⟩
    cases y with
    | ok answer =>
      obtain rfl := Except.ok.inj hy
      exact .inr ⟨a, _, closing, rfl, rfl⟩
    | error cause => cases cause <;> cases hy

/-- What fetching asks for: the cursor of a statement that did not fail is closed, whether or not
there are rows. -/
def Fetched (c : Connection) (r : Request) : Report (List Column × List (List Value)) :=
  fun found exchanges =>
    (∃ e, exchanges = [⟨r, .error e⟩] ∧ found = .error e) ∨
      ∃ a fetched closing, exchanges = [⟨r, .ok a⟩, ⟨.fetch c, fetched⟩, ⟨.closeCursor c, closing⟩] ∧
        found = closing.bind fun _ => fetched.bind fun _ => (columnsOf a).map (·, a.rows)

/-- The result of a statement is fetched. -/
theorem asks_fetchResult (w : Wire δ) (sql : String) (values : List Value) (hopen : s.isClosed c = false) :
    Asks (fetchResult w.recorded c sql values) (fetchResult w c sql values) s
      (Fetched c (request c sql values)) := by
  have hwithColumns (a : Answer) (t : World δ) := (Asks.ofExcept (s := t) (columnsOf a)).settle
    fun columns => (.ok (columns, a.rows) : Except Error (List Column × List (List Value)))
  have hfetch (a : Answer) (t : World δ) :
      Asks (do let _ ← World.send w.recorded (.fetch c); return (← Act.ofExcept (columnsOf a), a.rows))
        (do let _ ← World.send w (.fetch c); return (← Act.ofExcept (columnsOf a), a.rows)) t
        fun r exchanges => ∃ fetched, exchanges = [⟨.fetch c, fetched⟩] ∧
          r = fetched.bind fun _ => (columnsOf a).map (·, a.rows) := by
    refine (Asks.send w (.fetch c)).bind (fun _ u => hwithColumns a u) ?_ ?_
    · rintro e exchanges rfl
      exact ⟨.error e, rfl, rfl⟩
    · rintro fetched r exchanges later rfl ⟨_, ⟨rfl, rfl⟩, rfl⟩
      exact ⟨.ok fetched, rfl, by cases columnsOf a <;> rfl⟩
  refine (asks_send w sql values hopen).bind (fun a t => (hfetch a t).overCursor w c) ?_ ?_
  · rintro e exchanges rfl
    exact .inl ⟨e, rfl, rfl⟩
  · rintro a r exchanges later rfl ⟨_, _, closing, ⟨fetched, rfl, rfl⟩, rfl, rfl⟩
    exact .inr ⟨a, fetched, closing, rfl, rfl⟩

/-- All rows are fetched, with the faults that are known in other words. -/
theorem asks_fetchAll (w : Wire δ) (sql : String) (hvalues : boundValues params = .ok values)
    (hopen : s.isClosed c = false) :
    Asks (fetchAll w.recorded c sql params) (fetchAll w c sql params) s fun r exchanges =>
      ∃ found, Fetched c (request c sql values) found exchanges ∧
        r = (Asks.wrapped (wrapFault sql params) found).bind fun f => f.2.mapM (zipRow f.1) := by
  refine Asks.andThen (x := values) (fun _ => congrArg (·, _) hvalues) (congrArg (·, _) hvalues) ?_
  refine (((asks_fetchResult w sql values hopen).wrapping (wrapFault sql params)).settle
    fun f => f.2.mapM (zipRow f.1)).mono ?_
  rintro r exchanges ⟨_, ⟨found, hfound, rfl⟩, rfl⟩
  exact ⟨found, hfound, rfl⟩

/-- A row is zipped with the names of its columns. -/
theorem eq_ofList_of_zipRow {columns : List Column} {row : List Value} {record : Record}
    (h : zipRow columns row = .ok record) : record = Record.ofList ((columns.map Column.name).zip row) := by
  unfold zipRow at h
  split_ifs at h
  · exact (Except.ok.inj h).symm
  · cases h

/-- The rows of an orderly answer are given. -/
theorem exists_rows (hengine : x.target.engine = .sqlite path) {a : Answer} {columns : List Column}
    (hcolumns : a.columns = some columns) (h : a.isOrderly = true) :
    ∃ records, a.rows.mapM (zipRow columns) = .ok records ∧ x.Shows a records := by
  have hrows : ∀ row ∈ a.rows, row.length = columns.length ∧ ∀ v ∈ row, v.isReturned = true := by
    simpa [Answer.isOrderly, hcolumns] using h
  obtain ⟨records, hrecords⟩ := exists_mapM_eq_ok fun row hrow =>
    ⟨_, (if_pos (hrows row hrow).1 : zipRow columns row = _)⟩
  refine ⟨records, hrecords, ?_, fun hnone => ?_⟩
  · have hzipped := (mapM_eq_ok_iff.mp hrecords).imp fun _ _ => eq_ofList_of_zipRow
    simpa [Session.Shapes, hengine, hcolumns] using hzipped
  · rw [hcolumns] at hnone
    cases hnone

/-- What executes settles: it leaks a cursor that cannot be closed. -/
theorem settles_execute (hengine : x.target.engine = .sqlite path)
    (hvalues : boundValues params = .ok values) (hopen : s.isClosed c = false) :
    Asks (do let _ ← execute x.wire.recorded c sql params; return [])
      (do let _ ← execute x.wire c sql params; return []) s (x.Settles (.execute sql params)) := by
  have hquiet (outcome : Except Error Answer) :
      Exchange.isCursorFailure ⟨request c sql values, outcome⟩ = false :=
    Exchange.isCursorFailure_eq_false (isCursor_request c sql values)
  refine ((asks_execute x.wire sql hvalues hopen).settle
    fun _ => (.ok [] : Except Error (List Record))).mono ?_
  rintro r exchanges ⟨_, ⟨e, rfl, rfl⟩ | ⟨a, result, closing, rfl, rfl⟩, rfl⟩ hregular
  · refine iff_of_true ?_ ?_
    · exact (reporting hengine sql params).reports hregular List.mem_cons_self rfl _
    · simp [Session.leaks, hquiet]
  · cases closing with
    | ok closed => exact iff_of_true (Session.reports_ok rfl [] _) (by simp [Session.leaks])
    | error e =>
      refine iff_of_false ?_ (by simp [Session.leaks])
      exact Session.not_reports_of_driver (hregular ⟨.closeCursor c, .error e⟩ (by simp))

/-- What fetches settles: it leaks a statement that went well and has no result. -/
theorem settles_fetchAll (hengine : x.target.engine = .sqlite path)
    (hvalues : boundValues params = .ok values) (hopen : s.isClosed c = false) :
    Asks (fetchAll x.wire.recorded c sql params) (fetchAll x.wire c sql params) s
      (x.Settles (.fetchAll sql params)) := by
  have hwrap := reporting hengine sql params
  refine (asks_fetchAll x.wire sql hvalues hopen).mono ?_
  rintro r exchanges ⟨y, hy, rfl⟩ hregular
  -- Whatever fails, it is watched.
  have hfailure (failing : Exchange) (e : Error) (hmem : failing ∈ exchanges)
      (hfailed : failing.outcome = .error e) (hend : y = .error e) :
      x.Reports (.fetchAll sql params) exchanges ((Asks.wrapped (wrapFault sql params) y).bind
        fun found => found.2.mapM (zipRow found.1)) ↔ x.leaks (.fetchAll sql params) exchanges = false := by
    have hany : exchanges.any Exchange.failed = true :=
      List.any_eq_true.mpr ⟨failing, hmem, by rw [Exchange.failed, hfailed]; rfl⟩
    refine iff_of_true ?_ (by simp [Session.leaks, hengine, hany])
    rw [hend]
    exact hwrap.reports hregular hmem hfailed _
  obtain ⟨e, rfl, hend⟩ | ⟨a, fetched, closing, rfl, hend⟩ := hy
  · exact hfailure _ e List.mem_cons_self rfl hend
  cases closing with
  | error e => exact hfailure ⟨.closeCursor c, .error e⟩ e (by simp) rfl hend
  | ok closed =>
    cases fetched with
    | error e => exact hfailure ⟨.fetch c, .error e⟩ e (by simp) rfl hend
    | ok found =>
      have hstatement := isCursor_request c sql values
      have hcolumnsEnd : y = (columnsOf a).map (·, a.rows) := hend
      cases hcolumns : a.columns with
      | none =>
        rw [hcolumnsEnd, columnsOf, hcolumns]
        exact iff_of_false id (by simp [Session.leaks, hengine, hstatement, hcolumns])
      | some columns =>
        obtain ⟨records, hrecords, hshows⟩ :=
          exists_rows hengine hcolumns (hregular ⟨request c sql values, .ok a⟩ List.mem_cons_self)
        refine iff_of_true ?_ (by simp [Session.leaks, hengine, Request.isCursor, hcolumns])
        rw [hcolumnsEnd, columnsOf, hcolumns]
        change x.Reports _ _ (a.rows.mapM (zipRow columns))
        rw [hrecords]
        intro _
        exact ⟨_, List.mem_cons_self, a, hstatement, rfl, hshows⟩

/-- What is done on an SQLite file settles. -/
theorem asks_perform (x : Session δ) (hengine : x.target.engine = .sqlite path) (op : Operation)
    (hparams : ∃ values, boundValues op.params = .ok values) (hopen : s.isClosed c = false) :
    Asks ((database x.wire.recorded path x.settings).perform c op)
      ((database x.wire path x.settings).perform c op) s (x.Settles op) := by
  obtain ⟨values, hvalues⟩ := hparams
  cases op with
  | begin => exact asks_transaction .begin hengine rfl hopen
  | commit => exact asks_finish .commit hengine rfl hopen
  | rollback => exact asks_finish .rollback hengine rfl hopen
  | execute sql params => exact settles_execute hengine hvalues hopen
  | fetchAll sql params => exact settles_fetchAll hengine hvalues hopen

end Sqlite

end Quarry
