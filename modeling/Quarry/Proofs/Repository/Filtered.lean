import Quarry.Proofs.Repository.SameText
import Quarry.Proofs.Sql.ConditionTree

/-!
# Updates and deletes are filtered

An update goes through the changes of its request that set something, and a delete through all of
its conditions. Each of them becomes one statement that ends in a condition (`IsUpdate`,
`IsDelete`), or, where one of the conditions says nothing, the whole request is refused. What an
update sets are the columns for which the payload supplies a value that the repository may write
(`Codec.suppliedColumns`).
-/

set_option autoImplicit false

namespace Quarry

open Sql (Dialect Filter Fragment Piece Statement fieldsOf)
open Text.Name (toSnake)

variable {d : Dialect} {r : Repository}

/-! ## The text of a condition -/

namespace Sql

/-- A condition compiles to a text and its parameters. -/
def Compiles (d : Dialect) (utc : Bool) (condition : Value) (text : String) (params : List Value) :
    Prop :=
  ∃ f, Filter.compile d .null utc condition [] = .ok f ∧ text = Fragment.sql d (f.fragment d) ∧
    params = Fragment.params (f.fragment d)

/-- Whether a filter says nothing shows in its text. -/
theorem isEmpty_iff_of_compile {utc : Bool} {condition : Value} {f : Filter}
    (h : Filter.compile d .null utc condition [] = .ok f) :
    f.isEmpty = true ↔ Fragment.sql d (f.fragment d) = "" := by
  rw [Filter.sql_eq_empty_iff (compile_means h).1]
  obtain ⟨main, groups⟩ := f
  cases main <;> cases groups <;> simp [Filter.isEmpty, Filter.condition, Grammar.Condition.ofSides]

end Sql

/-! ## What an update sets -/

namespace Codec

variable {c : Codec} {object : Value} {skipAuto : Bool}

/-- Whether a payload supplies a value under a key or under the key's column. -/
def supplies (object : Value) (key : String) : Bool :=
  !(Record.getD key (fieldsOf object)).isUnset ||
    !(Record.getD (toSnake key) (fieldsOf object)).isUnset

/-- Whether the column of a key is written: the payload supplies a value, and the column is not
passed over as one that the database assigns. -/
def writes (c : Codec) (skipAuto : Bool) (object : Value) (key : String) : Bool :=
  !(skipAuto && c.isAutoSet (toSnake key)) && supplies object key

/-- The columns that are written, in the order of the keys. -/
def suppliedColumns (c : Codec) (skipAuto : Bool) (object : Value) : List String :=
  ((c.keys.filter (c.writes skipAuto object)).map toSnake).eraseDups

/-- A value is absent exactly if the object does not supply it. -/
theorem isUnset_valueOf {key : String} {v : Value}
    (h : valueOf object key (toSnake key) = .ok v) : v.isUnset = !supplies object key := by
  cases object with
  | record fields =>
    rw [valueOf_record] at h
    obtain rfl := Except.ok.inj h
    unfold supplies fieldsOf
    by_cases hkey : (Record.getD key fields).isUnset = true
    · by_cases hsame : key = toSnake key
      · rw [if_pos hkey, if_pos hsame, ← hsame, hkey]
        rfl
      · simp [hkey, hsame]
    · simp [hkey]
  | _ => simp [valueOf, misfit] at h

/-- A key is written if the payload supplies a value for it and it is not passed over. -/
theorem isSome_encodeKey_iff {key : String} {x : Option Value}
    (h : c.encodeKey skipAuto true object key (toSnake key) = .ok x) :
    x.isSome = c.writes skipAuto object key := by
  unfold writes
  cases hskip : skipAuto && c.isAutoSet (toSnake key) with
  | true =>
    unfold encodeKey at h
    rw [if_pos hskip] at h
    obtain rfl := pure_eq_ok.mp h
    rfl
  | false =>
    obtain ⟨v, hv, hsome⟩ := isSome_encodeKey hskip h
    rw [hsome, isUnset_valueOf hv]
    simp

/-- A name that was there before adds nothing new. -/
theorem eraseDups_cons_of_mem {front : List String} {name : String} (hmem : name ∈ front)
    (rest : List String) : (front ++ name :: rest).eraseDups = (front ++ rest).eraseDups := by
  rw [List.eraseDups_append, List.eraseDups_append]
  simp [List.removeAll, hmem]

/-- The names of an encoded row are the columns of the keys that are written. -/
theorem names_encodeKeys {keys : List String} {row out : Record}
    (h : c.encodeKeys skipAuto true object row keys = .ok out) :
    out.names.eraseDups =
      (row.names ++ (keys.filter (c.writes skipAuto object)).map toSnake).eraseDups := by
  induction keys generalizing row with
  | nil =>
    obtain rfl := Except.ok.inj h
    simp
  | cons key rest ih =>
    obtain ⟨x, hx, hrest⟩ := bind_eq_ok.mp h
    have hsome := isSome_encodeKey_iff hx
    cases x with
    | none =>
      rw [ih hrest, List.filter_cons_of_neg (by rw [← hsome]; simp)]
    | some v =>
      rw [ih hrest, List.filter_cons_of_pos (by rw [← hsome]; rfl), List.map_cons, Record.names_set]
      split_ifs with hmem
      · -- two keys with the same column: the value is replaced, and the column keeps its place
        exact (eraseDups_cons_of_mem hmem _).symm
      · rw [List.append_assoc]
        rfl

/-- The names of an encoded row are different. -/
theorem nodup_names_encodeKeys {keys : List String} {row out : Record} (hrow : row.names.Nodup)
    (h : c.encodeKeys skipAuto true object row keys = .ok out) : out.names.Nodup := by
  induction keys generalizing row with
  | nil =>
    obtain rfl := Except.ok.inj h
    exact hrow
  | cons key rest ih =>
    obtain ⟨x, -, hrest⟩ := bind_eq_ok.mp h
    cases x with
    | none => exact ih hrow hrest
    | some v =>
      refine ih ?_ hrest
      rw [Record.names_set]
      split_ifs with hmem
      · exact hrow
      · simpa using hrow.concat hmem

/-- Different names have no duplicates to erase. -/
theorem eraseDups_of_nodup {names : List String} (hnodup : names.Nodup) : names.eraseDups = names := by
  induction names with
  | nil => rfl
  | cons name rest ih =>
    obtain ⟨hnot, hrest⟩ := List.nodup_cons.mp hnodup
    rw [List.eraseDups_cons, List.filter_eq_self.mpr, ih hrest]
    intro other hmem
    have hne : other ≠ name := fun heq => hnot (heq ▸ hmem)
    simp [hne]

/-- Erasing duplicates leaves nothing only of nothing. -/
theorem isEmpty_eraseDups (names : List String) : names.eraseDups.isEmpty = names.isEmpty := by
  cases names with
  | nil => rfl
  | cons name rest => simp [List.eraseDups_cons]

/-- The columns of part of a row are those that are written, once each. -/
theorem names_toRow {row : Record} (h : c.toRow object skipAuto true = .ok row) :
    row.names = c.suppliedColumns skipAuto object := by
  rw [← eraseDups_of_nodup (nodup_names_encodeKeys (by exact List.nodup_nil) h), names_encodeKeys h]
  rfl

end Codec

/-! ## What is asked of statements -/

/-- Whether a condition says anything. -/
def Restricts (d : Dialect) (utc : Bool) (condition : Value) : Prop :=
  ∃ text params, Sql.Compiles d utc condition text params ∧ text ≠ ""

/-- The text that sets columns. -/
def setText (d : Dialect) (columns : List String) : String :=
  ", ".intercalate (columns.map fun c => d.quoteName c ++ " = " ++ d.placeholder)

/-- A statement sets what a payload supplies, where the condition of the change holds. -/
def IsUpdate (d : Dialect) (r : Repository) (table : String) (force : Bool) (change : Value × Value)
    (st : Statement) : Prop :=
  ∃ row text params, r.codec.toRow change.2 (!force) true = .ok row ∧
    Sql.Compiles d r.codec.utc change.1 text params ∧ text ≠ "" ∧
    st.sql = "UPDATE " ++ d.quoteName table ++ " SET " ++
      setText d (r.codec.suppliedColumns (!force) change.2) ++ " WHERE " ++ text ∧
    st.params = row.map Prod.snd ++ params

/-- A statement deletes the rows for which a condition holds. -/
def IsDelete (d : Dialect) (r : Repository) (table : String) (condition : Value) (st : Statement) :
    Prop :=
  ∃ text params, Sql.Compiles d r.codec.utc condition text params ∧ text ≠ "" ∧
    st = ⟨"DELETE FROM " ++ d.quoteName table ++ " WHERE " ++ text, params⟩

/-- What becomes of requests each of which has a condition: if all conditions say something there is
one statement for each, and otherwise the first one that says nothing is refused. -/
structure Filtered {β : Type} (restricts : β → Prop) (meets : β → Statement → Prop) (refusal : β → Error)
    (requests : List β) (built : Except Error (List Statement)) : Prop where
  served : (∀ x ∈ requests, restricts x) →
    ∃ statements, built = .ok statements ∧ List.Forall₂ meets requests statements
  refused : ¬(∀ x ∈ requests, restricts x) →
    ∃ front x rest, requests = front ++ x :: rest ∧ (∀ y ∈ front, restricts y) ∧ ¬restricts x ∧
      built = .error (refusal x)

/-- Requests are filtered one by one. -/
theorem filtered_mapM {β : Type} {restricts : β → Prop} {meets : β → Statement → Prop}
    {refusal : β → Error} {f : β → Except Error Statement} {requests : List β}
    (hrestricts : ∀ x ∈ requests, restricts x → ∃ st, f x = .ok st ∧ meets x st)
    (hrefuses : ∀ x ∈ requests, ¬restricts x → f x = .error (refusal x)) :
    Filtered restricts meets refusal requests (requests.mapM f) := by
  induction requests with
  | nil => exact ⟨fun _ => ⟨[], rfl, .nil⟩, fun hnot => absurd (by simp) hnot⟩
  | cons x rest ih =>
    obtain ⟨hserved, hrefused⟩ := ih (fun y hy => hrestricts y (by simp [hy]))
      fun y hy => hrefuses y (by simp [hy])
    by_cases hx : restricts x
    · obtain ⟨st, hst, hmeets⟩ := hrestricts x (by simp) hx
      constructor
      · intro hall
        obtain ⟨statements, hbuilt, hstatements⟩ := hserved fun y hy => hall y (by simp [hy])
        exact ⟨st :: statements, by simp [hst, hbuilt], .cons hmeets hstatements⟩
      · intro hnot
        obtain ⟨front, y, behind, rfl, hfront, hy, hbuilt⟩ :=
          hrefused fun hrest => hnot (List.forall_mem_cons.mpr ⟨hx, hrest⟩)
        refine ⟨x :: front, y, behind, rfl, List.forall_mem_cons.mpr ⟨hx, hfront⟩, hy, ?_⟩
        rw [List.mapM_cons, hst, hbuilt]
        rfl
    · constructor
      · exact fun hall => absurd (hall x (by simp)) hx
      · refine fun _ => ⟨[], x, rest, rfl, by simp, hx, ?_⟩
        rw [List.mapM_cons, hrefuses x (by simp) hx]
        rfl

/-- A traversal that passes over some members is one of the others. -/
theorem filterMap_mapM {β : Type} {f : β → Except Error (Option Statement)}
    {g : β → Except Error Statement} {keep : β → Bool} {xs : List β}
    (hskip : ∀ x ∈ xs, keep x = false → f x = .ok none)
    (hkeep : ∀ x ∈ xs, keep x = true → f x = (g x).map some) :
    (xs.mapM f).map (List.filterMap id) = (xs.filter keep).mapM g := by
  induction xs with
  | nil => rfl
  | cons x rest ih =>
    have hrest := ih (fun y hy => hskip y (by simp [hy])) fun y hy => hkeep y (by simp [hy])
    cases hx : keep x with
    | false =>
      rw [List.filter_cons_of_neg (by simp [hx]), ← hrest, List.mapM_cons, hskip x (by simp) hx]
      cases rest.mapM f <;> rfl
    | true =>
      rw [List.filter_cons_of_pos hx, List.mapM_cons, List.mapM_cons, ← hrest,
        hkeep x (by simp) hx]
      cases g x with
      | error e => rfl
      | ok st => cases rest.mapM f <;> rfl

namespace Sql

variable {utc : Bool} {condition : Value} {f : Filter}

/-- A condition restricts something exactly if its filter is not empty. -/
theorem restricts_iff (h : Filter.compile d .null utc condition [] = .ok f) :
    Restricts d utc condition ↔ f.isEmpty = false := by
  rw [← Bool.not_eq_true, isEmpty_iff_of_compile h]
  constructor
  · rintro ⟨text, params, ⟨g, hg, rfl, -⟩, htext⟩
    obtain rfl := Except.ok.inj (h.symm.trans hg)
    exact htext
  · exact fun hne => ⟨_, _, ⟨f, h, rfl, rfl⟩, hne⟩

end Sql

/-! ## Updates -/

namespace Update

variable {force : Bool} {table : String}

/-- Whether a change sets anything. -/
def isEffective (r : Repository) (force : Bool) (change : Value × Value) : Bool :=
  r.codec.keys.any (r.codec.writes (!force) change.2)

/-- A row is empty exactly if the change has no effect. -/
theorem isEmpty_row {change : Value × Value} {row : Record}
    (h : r.codec.toRow change.2 (!force) true = .ok row) :
    row.isEmpty = !isEffective r force change := by
  have hnames := Codec.names_toRow h
  have hempty : row.isEmpty = (r.codec.suppliedColumns (!force) change.2).isEmpty := by
    rw [← hnames, Record.names, List.isEmpty_map]
  rw [hempty, Codec.suppliedColumns, Codec.isEmpty_eraseDups, List.isEmpty_map, isEffective]
  rw [Bool.eq_iff_iff]
  simp

variable {change : Value × Value} {row : Record} {f : Filter}

/-- A change without effect has no statement. -/
theorem buildOne_of_ineffective (hrow : r.codec.toRow change.2 (!force) true = .ok row)
    (hnone : isEffective r force change = false) : buildOne d r force change = .ok none := by
  refine bind_eq_ok.mpr ⟨row, hrow, ?_⟩
  rw [if_pos (by rw [isEmpty_row hrow, hnone]; rfl)]
  rfl

/-- A change with effect and without a filter is refused. -/
theorem buildOne_of_empty (hrow : r.codec.toRow change.2 (!force) true = .ok row)
    (hsome : isEffective r force change = true)
    (hf : Filter.compile d .null r.codec.utc change.1 [] = .ok f) (hempty : f.isEmpty = true) :
    buildOne d r force change = .error (.invalid (.unfilteredUpdate r.table change.1)) := by
  have hset : row.isEmpty = false := by rw [isEmpty_row hrow, hsome]; rfl
  obtain ⟨condition, object⟩ := change
  dsimp only at hrow hf
  unfold buildOne
  dsimp only
  rw [hrow, hf]
  show (if row.isEmpty then _ else if f.isEmpty then _ else _) = _
  rw [hset, hempty]
  rfl

/-- The text of an update with a filter. -/
theorem sql_fragment (hnonempty : f.isEmpty = false) :
    Fragment.sql d (fragment d table row f) = "UPDATE " ++ d.quoteName table ++ " SET " ++
      setText d row.names ++ " WHERE " ++ Fragment.sql d (f.fragment d) := by
  have hassignment : ∀ field : String × Value,
      Fragment.sql d [.name field.1, .word " = ", .slot field.2] =
        d.quoteName field.1 ++ " = " ++ d.placeholder := by
    intro field
    simp [Sql.sql_cons, Sql.sql_nil, Piece.chars, Dialect.quoteName, String.append_assoc]
  unfold fragment
  rw [Filter.whereFragment, hnonempty]
  simp [Sql.sql_cons, Sql.sql_append, Sql.sql_joined, hassignment, setText, Record.names, Piece.chars,
    Dialect.quoteName, Function.comp_def, String.append_assoc]

/-- The parameters of an update are its values and those of the filter. -/
theorem params_fragment (table : String) (hnonempty : f.isEmpty = false) :
    Fragment.params (fragment d table row f) = row.map Prod.snd ++ Fragment.params (f.fragment d) := by
  unfold fragment
  rw [Filter.whereFragment, hnonempty]
  simpa [Sql.params_joined, List.flatMap_map] using List.map_eq_flatMap.symm

/-- A change with effect and a filter has an update. -/
theorem buildOne_of_nonempty (hrow : r.codec.toRow change.2 (!force) true = .ok row)
    (hsome : isEffective r force change = true)
    (hf : Filter.compile d .null r.codec.utc change.1 [] = .ok f) (hnonempty : f.isEmpty = false)
    (htable : Sql.identifier r.table = .ok table) :
    ∃ st, buildOne d r force change = .ok (some st) ∧ IsUpdate d r table force change st := by
  have hset : row.isEmpty = false := by rw [isEmpty_row hrow, hsome]; rfl
  refine ⟨(fragment d table row f).statement d, ?_, row, _, _, hrow, ⟨f, hf, rfl, rfl⟩, ?_, ?_,
    params_fragment table hnonempty⟩
  · refine bind_eq_ok.mpr ⟨row, hrow, ?_⟩
    rw [if_neg (by simp [hset])]
    refine bind_eq_ok.mpr ⟨f, hf, ?_⟩
    rw [if_neg (by simp [hnonempty]), htable, ← write_eq]
    rfl
  · rw [Ne, ← Sql.isEmpty_iff_of_compile hf, hnonempty]
    simp
  · rw [← Codec.names_toRow hrow]
    exact sql_fragment hnonempty

/-- The statement for a change that sets something. -/
def statementFor (d : Dialect) (r : Repository) (force : Bool) (change : Value × Value) :
    Except Error Statement :=
  (buildOne d r force change).map fun built => built.getD ⟨"", []⟩

/-- A build goes through the changes that set something. -/
theorem filtered_build {changes : List (Value × Value)}
    (hencode : ∀ change ∈ changes, ∃ row, r.codec.toRow change.2 (!force) true = .ok row)
    (hcompile : ∀ change ∈ changes, ∃ f, Filter.compile d .null r.codec.utc change.1 [] = .ok f)
    (htable : Sql.identifier r.table = .ok table) :
    Filtered (fun change => Restricts d r.codec.utc change.1) (IsUpdate d r table force)
      (fun change => .invalid (.unfilteredUpdate r.table change.1))
      (changes.filter (isEffective r force)) (build d r changes force) := by
  have hbuilt : ∀ change ∈ changes, isEffective r force change = true →
      (Restricts d r.codec.utc change.1 →
        ∃ st, statementFor d r force change = .ok st ∧ IsUpdate d r table force change st) ∧
      (¬Restricts d r.codec.utc change.1 →
        statementFor d r force change = .error (.invalid (.unfilteredUpdate r.table change.1))) ∧
      buildOne d r force change = (statementFor d r force change).map some := by
    intro change hmem hsome
    obtain ⟨row, hrow⟩ := hencode change hmem
    obtain ⟨f, hf⟩ := hcompile change hmem
    rw [Sql.restricts_iff hf]
    cases hempty : f.isEmpty with
    | true =>
      have hone := buildOne_of_empty hrow hsome hf hempty
      refine ⟨by simp, fun _ => ?_, ?_⟩ <;> rw [statementFor, hone] <;> rfl
    | false =>
      obtain ⟨st, hone, hst⟩ := buildOne_of_nonempty hrow hsome hf hempty htable
      refine ⟨fun _ => ⟨st, by rw [statementFor, hone]; rfl, hst⟩, by simp, ?_⟩
      rw [statementFor, hone]
      rfl
  have hbuild : build d r changes force =
      (changes.filter (isEffective r force)).mapM (statementFor d r force) := by
    refine filterMap_mapM ?_ fun change hmem hsome => (hbuilt change hmem hsome).2.2
    intro change hmem hnone
    obtain ⟨row, hrow⟩ := hencode change hmem
    exact buildOne_of_ineffective hrow hnone
  rw [hbuild]
  refine filtered_mapM ?_ ?_
  · intro change hmem
    obtain ⟨hmem, hsome⟩ := List.mem_filter.mp hmem
    exact (hbuilt change hmem hsome).1
  · intro change hmem
    obtain ⟨hmem, hsome⟩ := List.mem_filter.mp hmem
    exact (hbuilt change hmem hsome).2.1

end Update

/-! ## Deletes -/

namespace Delete

variable {table : String} {condition : Value} {f : Filter}

/-- A delete without a filter is refused. -/
theorem buildOne_of_empty (hf : Filter.compile d .null r.codec.utc condition [] = .ok f)
    (hempty : f.isEmpty = true) :
    buildOne d r condition = .error (.invalid (.unfilteredDelete r.table condition)) := by
  unfold buildOne
  rw [hf]
  show (if f.isEmpty then _ else _) = _
  rw [hempty]
  rfl

/-- A delete with a filter has a statement. -/
theorem buildOne_of_nonempty (hf : Filter.compile d .null r.codec.utc condition [] = .ok f)
    (hnonempty : f.isEmpty = false) (htable : Sql.identifier r.table = .ok table) :
    ∃ st, buildOne d r condition = .ok st ∧ IsDelete d r table condition st := by
  refine ⟨(fragment d table f).statement d, ?_, _, _, ⟨f, hf, rfl, rfl⟩, ?_, ?_⟩
  · refine bind_eq_ok.mpr ⟨f, hf, ?_⟩
    rw [if_neg (by simp [hnonempty]), htable, ← write_eq]
    rfl
  · rw [Ne, ← Sql.isEmpty_iff_of_compile hf, hnonempty]
    simp
  · unfold fragment
    rw [Filter.whereFragment, hnonempty]
    simp [Fragment.statement, Sql.sql_cons, Piece.chars, Dialect.quoteName, String.append_assoc]

/-- Conditions are filtered one by one. -/
theorem filtered_build {conditions : Value} {items : List Value} (hitems : conditions.items = .ok items)
    (hcompile : ∀ condition ∈ items,
      ∃ f, Filter.compile d .null r.codec.utc condition [] = .ok f)
    (htable : Sql.identifier r.table = .ok table) :
    Filtered (Restricts d r.codec.utc) (IsDelete d r table)
      (fun condition => .invalid (.unfilteredDelete r.table condition)) items
      (build d r conditions) := by
  have hbuild : build d r conditions = items.mapM (buildOne d r) := by
    rw [build, hitems]
    rfl
  rw [hbuild]
  refine filtered_mapM ?_ ?_
  · intro condition hmem hrestricts
    obtain ⟨f, hf⟩ := hcompile condition hmem
    exact buildOne_of_nonempty hf ((Sql.restricts_iff hf).mp hrestricts) htable
  · intro condition hmem hnot
    obtain ⟨f, hf⟩ := hcompile condition hmem
    rw [Sql.restricts_iff hf, Bool.not_eq_false] at hnot
    exact buildOne_of_empty hf hnot

end Delete

end Quarry
