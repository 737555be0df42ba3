import Quarry.Proofs.Database.Reporting

/-!
# Reports of a MySQL server

A cursor is opened for a statement and closed after it. What happens in between is watched for
faults of the driver, and reported. The rows that an orderly answer has can be brought into the form
that the settings want, so that nothing fails on the way from the answer to the caller.
-/

set_option autoImplicit false

namespace Quarry

variable {δ : Type}

namespace Mysql

variable {w : Wire δ} {c : Connection} {sql : String} {params : Value} {s : World δ}

/-- How MySQL reports on statements. -/
theorem reporting {x : Session δ} (hengine : x.target.engine = .mysql) (sql : String) (params : Value) :
    x.Reporting (wrapFault sql params) sql params := by
  intro f h
  have hsource : f.source = .mysql := by simpa [Session.isDriverError, hengine] using h
  unfold wrapFault
  rw [if_neg (by simp [hsource])]
  split_ifs
  · exact ⟨_, rfl, trivial⟩
  · exact ⟨_, rfl, rfl, rfl⟩

/-- An answer, or the failure in the place of one, belongs to one of the exchanges, none of which
opens or closes a cursor. -/
structure Answered (y : Except Error Answer) (exchanges : List Exchange) : Prop where
  quiet : exchanges.any Exchange.isCursorFailure = false
  failed : ∀ e, y = .error e → ∃ x ∈ exchanges, x.outcome = .error e
  answered : ∀ a, y = .ok a → ∃ x ∈ exchanges, x.request.isCursor = false ∧ x.outcome = .ok a

/-- To send a statement, and to fetch its rows, is answered. -/
theorem asks_answer (bound : Option (List Value)) (fetches : Bool) :
    Asks (do
        let a ← World.send w.recorded (.execute c sql bound)
        if fetches then
          let _ ← World.send w.recorded (.fetch c)
        return a)
      (do
        let a ← World.send w (.execute c sql bound)
        if fetches then
          let _ ← World.send w (.fetch c)
        return a) s fun r exchanges => Answered r exchanges := by
  have hfetch (a : Answer) (t : World δ) :=
    (Asks.send (s := t) w (.fetch c)).settle fun _ => (.ok a : Except Error Answer)
  cases fetches with
  | false =>
    refine (Asks.send w (.execute c sql bound)).bind (fun a t => Asks.ofExcept (.ok a)) ?_ ?_
    · rintro e exchanges rfl
      exact ⟨rfl, by simp, by simp⟩
    · rintro a r exchanges later rfl ⟨rfl, rfl⟩
      exact ⟨rfl, by simp, by simp [Request.isCursor]⟩
  | true =>
    refine (Asks.send w (.execute c sql bound)).bind hfetch ?_ ?_
    · rintro e exchanges rfl
      exact ⟨rfl, by simp, by simp⟩
    · rintro a r exchanges later rfl ⟨fetched, rfl, rfl⟩
      cases fetched with
      | error e => exact ⟨rfl, by simp [Except.bind], by simp [Except.bind]⟩
      | ok _ => exact ⟨rfl, by simp [Except.bind], by simp [Except.bind, Request.isCursor]⟩

/-- A statement is answered, with the faults that are known in other words. -/
theorem asks_statement (w : Wire δ) (c : Connection) (sql : String) {values : List Value}
    (hparams : boundValues params = .ok values) (fetches : Bool) :
    Asks (statement w.recorded c sql params fetches) (statement w c sql params fetches) s fun r exchanges =>
      ∃ y, Answered y exchanges ∧ r = Asks.wrapped (wrapFault sql params) y := by
  refine Asks.andThen (x := values) (fun _ => congrArg (·, _) hparams) (congrArg (·, _) hparams) ?_
  exact (asks_answer _ fetches).wrapping _

/-- What work over a cursor of its own asks for. -/
def OverCursor {β : Type} (c : Connection) (P : Report β) : Report β := fun r exchanges =>
  (∃ e, exchanges = [⟨.openCursor c, .error e⟩] ∧ r = .error e) ∨
    ∃ opened y during closing, P y during ∧
      exchanges = ⟨.openCursor c, .ok opened⟩ :: (during ++ [⟨.closeCursor c, closing⟩]) ∧
      r = closing.bind fun _ => y

/-- Work over a cursor asks for what the work asks for, between opening and closing. -/
theorem asks_withCursor (w : Wire δ) (c : Connection) {β : Type} {a : Act (World (δ × List Exchange)) β}
    {b : Act (World δ) β} {P : Report β} (ha : ∀ t, Asks a b t P) :
    Asks (withCursor w.recorded c a) (withCursor w c b) s (OverCursor c P) := by
  refine (Asks.send w (.openCursor c)).bind (fun _ t => (ha t).overCursor w c) ?_ ?_
  · rintro e exchanges rfl
    exact .inl ⟨e, rfl, rfl⟩
  · rintro opened r exchanges later rfl ⟨y, during, closing, hP, rfl, rfl⟩
    exact .inr ⟨opened, y, during, closing, hP, rfl, rfl⟩

/-- What is said of the work over a cursor may be weakened. -/
theorem OverCursor.mono {β : Type} {P Q : Report β} {r : Except Error β} {exchanges : List Exchange}
    (h : OverCursor c P r exchanges) (hPQ : ∀ r exchanges, P r exchanges → Q r exchanges) :
    OverCursor c Q r exchanges := by
  obtain ⟨e, hopening, hr⟩ | ⟨opened, y, during, closing, hP, hexchanges, hr⟩ := h
  · exact .inl ⟨e, hopening, hr⟩
  · exact .inr ⟨opened, y, during, closing, hPQ y during hP, hexchanges, hr⟩

/-- What is made of the result of work over a cursor may as well be made of it before the cursor is
closed. -/
theorem OverCursor.bind {β γ : Type} {P : Report β} {y : Except Error β} {exchanges : List Exchange}
    (h : OverCursor c P y exchanges) (g : β → Except Error γ) :
    OverCursor c (fun r during => ∃ x, P x during ∧ r = x.bind g) (y.bind g) exchanges := by
  obtain ⟨e, rfl, rfl⟩ | ⟨opened, x, during, closing, hP, rfl, rfl⟩ := h
  · exact .inl ⟨e, rfl, rfl⟩
  · exact .inr ⟨opened, x.bind g, during, closing, ⟨x, hP, rfl⟩, rfl, by cases closing <;> rfl⟩

/-- Between the opening and the closing of its cursor, what a statement ends with is reported. -/
theorem Answered.reports {x : Session δ} {op : Operation} {z : Except Error Answer}
    {during exchanges : List Exchange} {g : Answer → Except Error (List Record)} (hz : Answered z during)
    (hengine : x.target.engine = .mysql) (hduring : during ⊆ exchanges)
    (hregular : ∀ e ∈ exchanges, x.isRegular e = true)
    (hg : ∀ a, a.isOrderly = true → ∃ records, g a = .ok records ∧ (op.reads = true → x.Shows a records)) :
    x.Reports op exchanges ((Asks.wrapped (wrapFault op.sql op.params) z).bind g) := by
  cases z with
  | error e =>
    obtain ⟨failing, hmem, hfailed⟩ := hz.failed e rfl
    exact (reporting hengine op.sql op.params).reports hregular (hduring hmem) hfailed g
  | ok a =>
    obtain ⟨answering, hmem, hstatement, hanswered⟩ := hz.answered a rfl
    have horderly : a.isOrderly = true := by
      have := hregular answering (hduring hmem)
      rwa [Session.isRegular, hanswered] at this
    obtain ⟨records, hrecords, hshows⟩ := hg a horderly
    change x.Reports op exchanges (g a)
    rw [hrecords]
    intro hreads
    exact ⟨answering, hduring hmem, a, hstatement, hanswered, hshows hreads⟩

/-- A statement over a cursor of its own leaks what the cursor fails with, and nothing else. -/
theorem settles_overCursor {x : Session δ} {op : Operation} {r : Except Error (List Record)}
    {exchanges : List Exchange} {g : Answer → Except Error (List Record)} (hengine : x.target.engine = .mysql)
    (hleaks : x.leaks op exchanges = exchanges.any Exchange.isCursorFailure)
    (hg : ∀ a, a.isOrderly = true → ∃ records, g a = .ok records ∧ (op.reads = true → x.Shows a records))
    (h : OverCursor c (fun y during => ∃ u, (∃ z, Answered z during ∧
      u = Asks.wrapped (wrapFault op.sql op.params) z) ∧ y = u.bind g) r exchanges) :
    x.Settles op r exchanges := by
  intro hregular
  rw [hleaks]
  -- A failure of the cursor is raised as it is.
  have hraw (e : Error) (request : Request) (hrequest : Exchange.isCursorFailure ⟨request, .error e⟩ = true)
      (hmem : ⟨request, .error e⟩ ∈ exchanges) (hr : r = .error e) :
      x.Reports op exchanges r ↔ exchanges.any Exchange.isCursorFailure = false := by
    refine iff_of_false ?_ ?_
    · rw [hr]
      exact Session.not_reports_of_driver (hregular _ hmem)
    · exact ne_false_of_eq_true (List.any_eq_true.mpr ⟨_, hmem, hrequest⟩)
  obtain ⟨e, rfl, hr⟩ | ⟨opened, y, during, closing, ⟨u, ⟨z, hz, rfl⟩, rfl⟩, rfl, hr⟩ := h
  · exact hraw e (.openCursor c) rfl (by simp) hr
  · cases closing with
    | error e => exact hraw e (.closeCursor c) rfl (by simp) hr
    | ok closed =>
      refine iff_of_true ?_ (by simp [hz.quiet])
      rw [hr]
      exact hz.reports hengine (List.subset_cons_of_subset _ (List.subset_append_left _ _)) hregular hg

/-! ## Rows of MySQL -/

/-- What the database returns can be compared with 1. -/
theorem exists_isOne {v : Value} (h : v.isReturned = true) : ∃ b, isOne v = .ok b := by
  unfold isOne
  cases v with
  | real x =>
    cases x with
    | finite => exact ⟨_, rfl⟩
    | _ => exact absurd h Bool.false_ne_true
  | decimal d =>
    cases d with
    | finite => exact ⟨_, rfl⟩
    | _ => exact absurd h Bool.false_ne_true
  | _ => exact ⟨_, rfl⟩

/-- What the database returns can be cast from a decimal. -/
theorem exists_castDecimal {v : Value} (h : v.isReturned = true) : ∃ u, castDecimal v = .ok u := by
  cases v with
  | decimal d =>
    cases d with
    | finite => exact ⟨_, rfl⟩
    | _ => exact absurd h Bool.false_ne_true
  | _ => exact ⟨_, rfl⟩

/-- A flag of a row that the database returns can be cast. -/
theorem exists_castFlag (row : Record) (column : Column) (h : ∀ f ∈ row, f.2.isReturned = true) :
    ∃ flagged, castFlag row column = .ok flagged ∧ ∀ f ∈ flagged, f.2.isReturned = true := by
  unfold castFlag
  split
  · exact ⟨row, rfl, h⟩
  · exact ⟨row, rfl, h⟩
  · rename_i v _ hheld
    obtain ⟨b, hb⟩ := exists_isOne (h _ (Record.mem_of_get? hheld))
    refine ⟨_, by rw [hb]; rfl, ?_⟩
    intro f hf
    obtain hf | hf := Record.mem_set hf
    · rw [hf]
      rfl
    · exact h f hf

/-- A row with values that a driver returns can be brought into the form that the settings want. -/
theorem exists_normalizeRow (settings : Settings) (columns : List Column) {row : Record}
    (h : ∀ f ∈ row, f.2.isReturned = true) : ∃ record, normalizeRow settings columns row = .ok record := by
  have hdecimals (flagged : Record) (hreturned : ∀ f ∈ flagged, f.2.isReturned = true) :
      ∃ record, (if settings.decimalNumbers.isTrue then
        flagged.mapM fun f => do return (f.1, ← castDecimal f.2) else return flagged) = Except.ok record := by
    split_ifs
    · refine exists_mapM_eq_ok fun f hf => ?_
      obtain ⟨u, hu⟩ := exists_castDecimal (hreturned f hf)
      exact ⟨(f.1, u), by rw [hu]; rfl⟩
    · exact ⟨flagged, rfl⟩
  unfold normalizeRow
  dsimp only
  by_cases hcast : settings.castBoolean.isTrue = true
  · obtain ⟨flagged, hflagged, hreturned⟩ :=
      exists_foldlM_eq_ok exists_castFlag (columns.filter isFlagColumn) h
    rw [if_pos hcast, hflagged]
    exact hdecimals flagged hreturned
  · rw [if_neg hcast]
    exact hdecimals row h

/-- The rows of an orderly answer are given. -/
theorem exists_rowsOf {x : Session δ} (hengine : x.target.engine = .mysql) {a : Answer}
    (h : a.isOrderly = true) : ∃ records, rowsOf x.settings a = .ok records ∧ x.Shows a records := by
  obtain ⟨hresult, hrows⟩ : (a.columns.isSome = true ∨ a.rows = []) ∧
      ∀ row ∈ a.rows, row.length = (a.columns.getD []).length ∧ ∀ v ∈ row, v.isReturned = true := by
    simpa [Answer.isOrderly] using h
  have hrecords : ∃ records, rowsOf x.settings a = .ok records := by
    refine exists_mapM_eq_ok fun row hrow => exists_normalizeRow _ _ ?_
    refine Record.forall_mem_ofList (p := fun v => v.isReturned = true) fun f hf => ?_
    exact (hrows row hrow).2 _ (List.of_mem_zip hf).2
  obtain ⟨records, hrecords⟩ := hrecords
  refine ⟨records, hrecords, ?_, ?_⟩
  · simpa [Session.Shapes, hengine] using mapM_eq_ok_iff.mp hrecords
  · intro hnone
    have hempty : a.rows = [] := by simpa [hnone] using hresult
    rw [rowsOf, hempty] at hrecords
    exact (Except.ok.inj hrecords).symm

/-- A transaction command settles with its one exchange. -/
theorem asks_transaction {x : Session δ} (op : Operation) (hengine : x.target.engine = .mysql)
    (hcommand : op.isCommand = true) (request : Request) :
    Asks (do command x.wire.recorded op.sql request; return [])
      (do command x.wire op.sql request; return []) s (x.Settles op) :=
  Session.asks_command hcommand (reporting hengine op.sql .null)
    ((Asks.send x.wire request).mono fun _ _ h => ⟨request, h⟩)

/-- What is done on a MySQL server settles. -/
theorem asks_perform (x : Session δ) (hengine : x.target.engine = .mysql) (c : Connection) (op : Operation)
    (s : World δ) (hparams : ∃ values, boundValues op.params = .ok values) :
    Asks ((database x.wire.recorded x.settings).perform c op) ((database x.wire x.settings).perform c op) s
      (x.Settles op) := by
  obtain ⟨values, hvalues⟩ := hparams
  cases op with
  | begin => exact asks_transaction .begin hengine rfl (.begin c)
  | commit => exact asks_transaction .commit hengine rfl (.commit c)
  | rollback => exact asks_transaction .rollback hengine rfl (.rollback c)
  | execute sql params =>
    have hstatement (t : World δ) := (asks_statement x.wire c sql (s := t) hvalues false).settle
      fun a => (.ok ⟨a.rowCount, a.lastId.getD 0⟩ : Except Error ExecResult)
    have hexecute := (asks_withCursor x.wire c (s := s) hstatement).settle
      fun _ => (.ok [] : Except Error (List Record))
    refine hexecute.mono ?_
    rintro r exchanges ⟨y, h, rfl⟩
    refine settles_overCursor (c := c) (g := fun _ => .ok []) hengine rfl
      (fun a _ => ⟨[], rfl, fun hreads => absurd hreads Bool.false_ne_true⟩) ?_
    refine (h.bind _).mono ?_
    rintro r during ⟨_, ⟨u, hu, rfl⟩, rfl⟩
    exact ⟨u, hu, by cases u <;> rfl⟩
  | fetchAll sql params =>
    have hstatement (t : World δ) :=
      (asks_statement x.wire c sql (s := t) hvalues true).settle (rowsOf x.settings)
    refine (asks_withCursor x.wire c hstatement).mono fun r exchanges h => ?_
    refine settles_overCursor hengine (by simp [Session.leaks, hengine]) ?_ h
    intro a horderly
    obtain ⟨records, hrecords, hshows⟩ := exists_rowsOf hengine horderly
    exact ⟨records, hrecords, fun _ => hshows⟩

end Mysql

end Quarry
