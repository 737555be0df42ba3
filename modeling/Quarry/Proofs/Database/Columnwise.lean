import Quarry.Proofs.Database.Fetched

/-!
# Rows column by column

Rows are fetched whole, and MySQL's are changed as the settings want it. What a row holds under a
name is nevertheless what the column of this name gives when it is fetched by itself
(`Session.Shapes.exists_single`), as long as all columns of the name are the same. A column named
twice does no harm, as a truth value that is made a truth value once more stays as it is.
-/

set_option autoImplicit false

namespace Quarry

variable {δ : Type} {n : String} {v u : Value}

/-! ## MySQL -/

namespace Mysql

variable {settings : Settings} {columns : List Column} {column : Column} {row record : Record}

/-- The value of a column of truth values as one; NULL stays NULL. -/
def flagValue : Value → Except Error Value
  | .null => .ok .null
  | v => (isOne v).map .bool

/-- A row with its flags cast, if the settings want that. -/
def castFlags (settings : Settings) (columns : List Column) (row : Record) : Except Error Record :=
  if settings.castBoolean.isTrue then (columns.filter isFlagColumn).foldlM castFlag row else .ok row

/-- A row with its decimals cast, if the settings want that. -/
def castDecimals (settings : Settings) (row : Record) : Except Error Record :=
  if settings.decimalNumbers.isTrue then row.mapM fun f => do return (f.1, ← castDecimal f.2)
  else return row

/-- A row is normalized by casting flags first and decimals then. -/
theorem normalizeRow_eq (settings : Settings) (columns : List Column) (row : Record) :
    normalizeRow settings columns row = castFlags settings columns row >>= castDecimals settings := by
  unfold normalizeRow castFlags
  dsimp only
  by_cases hcast : settings.castBoolean.isTrue = true
  · rw [if_pos hcast, if_pos hcast]
    rfl
  · rw [if_neg hcast, if_neg hcast]
    rfl

/-- The truth value that a value becomes, if it is in a column of truth values and the settings want
it. -/
def normalizeFlag (settings : Settings) (column : Column) (v : Value) : Except Error Value :=
  if settings.castBoolean.isTrue && isFlagColumn column then flagValue v else .ok v

/-- The number that a decimal number becomes if the settings want it. -/
def normalizeDecimal (settings : Settings) (v : Value) : Except Error Value :=
  if settings.decimalNumbers.isTrue then castDecimal v else .ok v

/-- A flag that is not NULL is compared with 1. -/
theorem flagValue_of_ne (hnull : v ≠ .null) : flagValue v = (isOne v).map .bool := by
  cases v with
  | null => exact absurd rfl hnull
  | _ => rfl

/-- A flag stays a flag. -/
theorem flagValue_of_flagValue (h : flagValue v = .ok u) : flagValue u = .ok u := by
  by_cases hnull : v = .null
  · rw [hnull] at h
    rw [← Except.ok.inj h]
    rfl
  · rw [flagValue_of_ne hnull] at h
    obtain ⟨b, -, rfl⟩ := map_eq_ok.mp h
    cases b <;> rfl

/-- A column that is not NULL is compared with 1. -/
theorem castFlag_of_ne (hnull : v ≠ .null) (hv : Record.get? column.name row = some v) :
    castFlag row column = (isOne v).map fun b => row.set column.name (.bool b) := by
  rw [castFlag, hv]
  cases v with
  | null => exact absurd rfl hnull
  | _ => rfl

/-- Casting a flag casts the value in its column. -/
theorem get?_castFlag (h : castFlag row column = .ok record) (hv : Record.get? column.name row = some v) :
    ∃ u, flagValue v = .ok u ∧ Record.get? column.name record = some u := by
  by_cases hnull : v = .null
  · rw [castFlag, hv, hnull] at h
    rw [← Except.ok.inj h, hv, hnull]
    exact ⟨.null, rfl, rfl⟩
  · rw [castFlag_of_ne hnull hv] at h
    obtain ⟨b, hb, rfl⟩ := map_eq_ok.mp h
    rw [flagValue_of_ne hnull, hb]
    exact ⟨.bool b, rfl, Record.get?_set_self ..⟩

/-- Casting a flag leaves other columns. -/
theorem get?_castFlag_of_ne (h : castFlag row column = .ok record) (hne : column.name ≠ n) :
    Record.get? n record = Record.get? n row := by
  unfold castFlag at h
  split at h
  · rw [Except.ok.inj h]
  · rw [Except.ok.inj h]
  · obtain ⟨b, -, rfl⟩ := map_eq_ok.mp h
    exact Record.get?_set_of_ne (Ne.symm hne) _ _

/-- Casting flags leaves other columns. -/
theorem get?_foldlM_of_ne (h : columns.foldlM castFlag row = .ok record)
    (hne : ∀ c ∈ columns, c.name ≠ n) : Record.get? n record = Record.get? n row := by
  induction columns generalizing row with
  | nil => rw [Except.ok.inj h]
  | cons c rest ih =>
    obtain ⟨next, hnext, hrest⟩ := bind_eq_ok.mp h
    obtain ⟨hc, hne⟩ := List.forall_mem_cons.mp hne
    rw [ih hrest hne, get?_castFlag_of_ne hnext hc]

/-- The first column of a name turns the value into a truth value, and the others leave it so. -/
theorem get?_foldlM (h : columns.foldlM castFlag row = .ok record) (hname : ∃ c ∈ columns, c.name = n)
    (hv : Record.get? n row = some v) : ∃ u, flagValue v = .ok u ∧ Record.get? n record = some u := by
  induction columns generalizing row v with
  | nil =>
    obtain ⟨c, hc, -⟩ := hname
    exact absurd hc List.not_mem_nil
  | cons c rest ih =>
    obtain ⟨next, hnext, hrest⟩ := bind_eq_ok.mp h
    by_cases hc : c.name = n
    · subst hc
      obtain ⟨u, hu, hget⟩ := get?_castFlag hnext hv
      refine ⟨u, hu, ?_⟩
      -- A second column of the name finds the truth value of the first.
      by_cases hagain : ∃ c' ∈ rest, c'.name = c.name
      · obtain ⟨u', hu', hget'⟩ := ih hrest hagain hget
        rw [flagValue_of_flagValue hu] at hu'
        rw [hget', Except.ok.inj hu']
      · rw [get?_foldlM_of_ne hrest fun c' hc' hsame => hagain ⟨c', hc', hsame⟩, hget]
    · rw [← get?_castFlag_of_ne hnext hc] at hv
      apply ih hrest _ hv
      obtain ⟨c', hmem, hsame⟩ := hname
      obtain rfl | hmem := List.mem_cons.mp hmem
      · exact absurd hsame hc
      · exact ⟨c', hmem, hsame⟩

/-- Casting each value casts the one in a column. -/
theorem get?_mapM {f : Value → Except Error Value}
    (h : row.mapM (fun field => do return (field.1, ← f field.2)) = .ok record)
    (hv : Record.get? n row = some v) : ∃ u, f v = .ok u ∧ Record.get? n record = some u := by
  have hall := mapM_eq_ok_iff.mp h
  clear h
  induction hall with
  | nil => exact nomatch hv
  | @cons field out _ _ hfirst _ ih =>
    obtain ⟨u, hu, rfl⟩ := functor_map_eq_ok.mp hfirst
    unfold Record.get? at hv ⊢
    split_ifs at hv ⊢ with hname
    · rw [← Option.some.inj hv]
      exact ⟨u, hu, rfl⟩
    · exact ih hv

/-- Casting decimals casts the value in a column. -/
theorem get?_castDecimals (h : castDecimals settings row = .ok record) (hv : Record.get? n row = some v) :
    ∃ u, normalizeDecimal settings v = .ok u ∧ Record.get? n record = some u := by
  unfold castDecimals at h
  unfold normalizeDecimal
  split_ifs at h ⊢
  · exact get?_mapM h hv
  · obtain rfl := Except.ok.inj h
    exact ⟨v, rfl, hv⟩

/-- The value of a column only depends on the columns of its name. -/
theorem get?_castFlags (h : castFlags settings columns row = .ok record) (hmem : column ∈ columns)
    (hsame : ∀ c ∈ columns, c.name = column.name → c = column) (hv : Record.get? column.name row = some v) :
    ∃ u, normalizeFlag settings column v = .ok u ∧ Record.get? column.name record = some u := by
  unfold castFlags at h
  unfold normalizeFlag
  by_cases hcast : settings.castBoolean.isTrue = true
  · rw [if_pos hcast] at h
    rw [hcast, Bool.true_and]
    by_cases hflags : isFlagColumn column = true
    · rw [if_pos hflags]
      exact get?_foldlM h ⟨column, List.mem_filter.mpr ⟨hmem, hflags⟩, rfl⟩ hv
    · rw [if_neg hflags]
      refine ⟨v, rfl, ?_⟩
      rw [get?_foldlM_of_ne h, hv]
      intro c hc hname
      obtain ⟨hc, hflagsToo⟩ := List.mem_filter.mp hc
      rw [hsame c hc hname] at hflagsToo
      exact hflags hflagsToo
  · rw [if_neg hcast] at h
    obtain rfl := Except.ok.inj h
    rw [Bool.not_eq_true] at hcast
    rw [hcast]
    exact ⟨v, rfl, hv⟩

/-- In a row of one column its flag is cast. -/
theorem castFlags_single (hflag : normalizeFlag settings column v = .ok u) :
    castFlags settings [column] [(column.name, v)] = .ok [(column.name, u)] := by
  unfold castFlags
  unfold normalizeFlag at hflag
  by_cases hcast : settings.castBoolean.isTrue = true
  · rw [hcast, Bool.true_and] at hflag
    rw [if_pos hcast]
    by_cases hflags : isFlagColumn column = true
    · rw [if_pos hflags] at hflag
      rw [List.filter_cons_of_pos hflags, List.filter_nil, List.foldlM_cons]
      have hget : Record.get? column.name [(column.name, v)] = some v := if_pos rfl
      by_cases hnull : v = .null
      · subst hnull
        rw [← Except.ok.inj hflag, castFlag, hget]
        rfl
      · rw [flagValue_of_ne hnull] at hflag
        obtain ⟨b, hb, rfl⟩ := map_eq_ok.mp hflag
        rw [castFlag_of_ne hnull hget, hb]
        show Except.ok (Record.set column.name (.bool b) [(column.name, v)]) = _
        rw [Record.set, if_pos rfl]
    · rw [if_neg hflags] at hflag
      rw [List.filter_cons_of_neg hflags, Except.ok.inj hflag]
      rfl
  · rw [if_neg hcast]
    rw [Bool.not_eq_true] at hcast
    rw [hcast] at hflag
    rw [Except.ok.inj hflag]

/-- In a row of one column its decimal is cast. -/
theorem castDecimals_single (hdecimal : normalizeDecimal settings v = .ok u) :
    castDecimals settings [(n, v)] = .ok [(n, u)] := by
  unfold castDecimals
  unfold normalizeDecimal at hdecimal
  split_ifs at hdecimal ⊢
  · rw [List.mapM_cons, hdecimal]
    rfl
  · rw [Except.ok.inj hdecimal]
    rfl

/-- In a row, a column with a name of its own is normalized as if it stood alone. -/
theorem get?_normalizeRow (h : normalizeRow settings columns row = .ok record) (hmem : column ∈ columns)
    (hsame : ∀ c ∈ columns, c.name = column.name → c = column) (hv : Record.get? column.name row = some v) :
    ∃ u, normalizeRow settings [column] [(column.name, v)] = .ok [(column.name, u)] ∧
      Record.get? column.name record = some u := by
  rw [normalizeRow_eq] at h ⊢
  obtain ⟨flagged, hflagged, hdecimals⟩ := bind_eq_ok.mp h
  obtain ⟨w, hw, hheld⟩ := get?_castFlags hflagged hmem hsame hv
  obtain ⟨u, hu, hget⟩ := get?_castDecimals hdecimals hheld
  exact ⟨u, bind_eq_ok.mpr ⟨_, castFlags_single hw, castDecimals_single hu⟩, hget⟩

end Mysql

/-! ## Both databases -/

/-- An answer with one column and one row. -/
def Answer.single (column : Column) (v : Value) : Answer where
  columns := some [column]
  rows := [[v]]

namespace Session

variable {x : Session δ} {columns : List Column} {column : Column} {row record record' : Record}

/-- A row is shaped in one way. -/
theorem Shapes.unique (h : x.Shapes columns row record) (h' : x.Shapes columns row record') :
    record = record' := by
  unfold Shapes at h h'
  cases hengine : x.target.engine with
  | mysql =>
    rw [hengine] at h h'
    exact Except.ok.inj (h.symm.trans h')
  | sqlite path =>
    rw [hengine] at h h'
    exact Eq.trans h (Eq.symm h')

/-- In SQLite rows stay as they are. -/
theorem shapes_iff_of_sqlite (h : x.database.dialect = .sqlite) :
    x.Shapes columns row record ↔ record = row := by
  unfold Shapes
  cases hengine : x.target.engine with
  | mysql =>
    unfold database at h
    rw [hengine] at h
    exact nomatch h
  | sqlite path => exact Iff.rfl

/-- Where the rows are as wide as there are columns, the records are the rows in the form that the
database gives them. -/
theorem rows_eq_ok_iff {a : Answer} {records : List Record} (hcolumns : a.columns = some columns)
    (hwidth : ∀ row ∈ a.rows, row.length = columns.length) :
    x.rows a = .ok records ↔ List.Forall₂ (fun row record =>
      x.Shapes columns (Record.ofList ((columns.map Column.name).zip row)) record) a.rows records := by
  unfold rows Shapes
  cases x.target.engine with
  | mysql =>
    dsimp only
    rw [Mysql.rowsOf, hcolumns]
    exact mapM_eq_ok_iff
  | sqlite path =>
    dsimp only
    rw [Sqlite.columnsOf, hcolumns]
    apply mapM_eq_ok_iff_of_mem
    intro row hrow record
    rw [Sqlite.zipRow, if_pos (hwidth row hrow), Except.ok.injEq]
    exact eq_comm

/-- An answer with one value has the row into which it is shaped. -/
theorem rows_single_iff :
    x.rows (.single column v) = .ok [record] ↔ x.Shapes [column] [(column.name, v)] record := by
  have hwidth : ∀ row ∈ (Answer.single column v).rows, row.length = [column].length := by
    intro row hrow
    rw [List.mem_singleton.mp hrow]
    rfl
  rw [rows_eq_ok_iff rfl hwidth, Answer.single, List.forall₂_cons]
  exact and_iff_left .nil

/-- What a row has in a column is what the column gives when it is fetched by itself. -/
theorem Shapes.exists_single (h : x.Shapes columns row record) (hmem : column ∈ columns)
    (hsame : ∀ c ∈ columns, c.name = column.name → c = column) (hv : Record.get? column.name row = some v) :
    ∃ u, x.rows (.single column v) = .ok [[(column.name, u)]] ∧ Record.get? column.name record = some u := by
  simp only [rows_single_iff]
  unfold Shapes at h ⊢
  cases hengine : x.target.engine with
  | mysql =>
    rw [hengine] at h
    exact Mysql.get?_normalizeRow h hmem hsame hv
  | sqlite path =>
    rw [hengine] at h
    rw [show record = row from h]
    exact ⟨v, rfl, hv⟩

end Session

end Quarry
