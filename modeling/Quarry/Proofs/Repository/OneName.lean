import Quarry.Proofs.Repository.Filtered
import Quarry.Proofs.Repository.OneToOne
import Quarry.Proofs.Repository.Qualified
import Quarry.Proofs.Row.Declared
import Quarry.Proofs.Row.Object

/-!
# One name for a key

A key becomes a column in several places, and not everywhere at the same time: the list of a select
and the writes take the columns that were made of all keys beforehand, conditions, orders and
aggregates make a column of the key that they are given, and the list makes columns of what are
columns already. It is the same name everywhere (`Repository.IsCalled`), because a column name is
its own column name, and because it has a dot only if its key has one. For each place there are two
statements: that nothing else than the name is ever there, and that what is built of the key is
there, with the name in it.
-/

set_option autoImplicit false

namespace Quarry

open Sql (Aggregate Atom ColumnRef Dialect Filter Fragment Statement)
open Sql.Grammar (Closes Reads Refers RefersTo)
open Text.Name (toSnake)

variable {d : Dialect}

/-! ## What writes refer to -/

namespace Insert

variable {c : Codec} {first row : Record} {columns : List String}

/-- The keys whose columns an insert names: all, or those whose columns are not left to the
database. -/
def writtenKeys (d : Dialect) (c : Codec) (first : Record) : List String :=
  c.keys.filter fun key => d.hasDefault || !isDefaulted first (toSnake key)

/-- The columns of an insert are made of the keys that are written. -/
theorem written_eq : written d c.columnNames first = (writtenKeys d c first).map toSnake := by
  unfold written writtenKeys Codec.columnNames
  cases d.hasDefault with
  | true => simp
  | false => simp [List.filter_map, Function.comp_def]

/-- A cell refers to no column. -/
theorem refers_cell (column : String) : Refers d (cell first row column) [] := by
  have hword : Reads d (Fragment.chars d [.word "DEFAULT"]) [.word "DEFAULT"] := by
    cases d <;> exact ⟨[], .word "DEFAULT".toList, [.word "DEFAULT"], rfl, rfl, rfl⟩
  have hslot (v : Value) : Closes d (Fragment.chars d [.slot v]) [.slot] := by cases d <;> rfl
  unfold cell
  split_ifs
  · exact Sql.Grammar.refers_nameless hword rfl nofun
  · split
    · exact Sql.Grammar.refers_nameless (hslot _).reads rfl nofun
    · exact Sql.Grammar.refers_nameless (hslot _).reads rfl nofun

/-- A row refers to no column. -/
theorem refers_rowFragment : Refers d (rowFragment first columns row) [] := by
  have hcells := Sql.Grammar.refers_list_nameless (d := d) (cell first row) columns
    fun column _ => refers_cell column
  exact hcells.parenthesized

/-- An insert refers to the columns that it names. -/
theorem refers_fragment (table : String) (columns : List String) (first : Record) (rows : List Record) :
    Refers d (fragment table columns first rows) (columns.map .plain) := by
  have hinto : Closes d (Fragment.chars d [.word "INSERT INTO "]) ([.word "INSERT"] ++ [.word "INTO"]) := by
    cases d <;> rfl
  have hopen : Closes d " (".toList [.mark '('] := by cases d <;> rfl
  have hvalues : Closes d ") VALUES ".toList [.mark ')', .word "VALUES"] := by cases d <;> rfl
  have hlist := Sql.Grammar.refers_list (d := d) (fun column => [.name column])
    (fun column => [.plain column]) columns fun column _ => Sql.Grammar.refers_column (.plain column)
  have hrows := Sql.Grammar.refers_list_nameless (d := d) (rowFragment first columns) rows
    fun _ _ => refers_rowFragment
  rw [← List.map_eq_flatMap] at hlist
  have hbehind := hrows.word_cons hvalues rfl nofun
  have hlisted := hlist.append hbehind (Sql.Grammar.breaks_word (x := ')') rfl rfl _)
  have hcolumns := hlisted.word_cons hopen rfl nofun
  have hname := Sql.Grammar.refers_announced hinto rfl nofun rfl table
  have hall := hname.append hcolumns (Sql.Grammar.breaks_word (x := ' ') rfl rfl _)
  simpa [fragment] using hall

end Insert

/-- An update refers to the columns that it sets and to those of its condition. -/
theorem Update.refers_fragment {f : Filter} (table : String) (row : Record) (hf : f.IsProper) :
    Refers d (fragment d table row f) (row.names.map .plain ++ f.columns) := by
  have hupdate : Closes d (Fragment.chars d [.word "UPDATE "]) ([] ++ [.word "UPDATE"]) := by cases d <;> rfl
  have hset : Closes d " SET ".toList [.word "SET"] := by cases d <;> rfl
  have hvalue (v : Value) : Closes d (Fragment.chars d [.word " = ", .slot v]) [.sign "=", .slot] := by
    cases d <;> rfl
  have hitem (field : String × Value) :
      Refers d [.name field.1, .word " = ", .slot field.2] [.plain field.1] := by
    have hbehind := Sql.Grammar.refers_nameless (hvalue field.2).reads rfl nofun
    exact (Sql.Grammar.refers_column (.plain field.1)).append_nameless hbehind
      (Sql.Grammar.breaks_word (x := ' ') rfl rfl _)
  have hitems := Sql.Grammar.refers_list (d := d)
    (fun field : String × Value => [.name field.1, .word " = ", .slot field.2])
    (fun field => [.plain field.1]) row fun field _ => hitem field
  rw [← List.map_eq_flatMap] at hitems
  obtain ⟨hwhere, hbreaks⟩ := Filter.refers_whereFragment (d := d) hf
  have hsets := (hitems.append hwhere hbreaks).word_cons hset rfl nofun
  have hname := Sql.Grammar.refers_announced hupdate rfl nofun rfl table
  have hall := hname.append hsets (Sql.Grammar.breaks_word (x := ' ') rfl rfl _)
  simpa [fragment, Record.names, Function.comp_def] using hall

/-! ## The name of a key -/

namespace Repository

/-- Every path to the column of a key goes by one name. -/
structure IsCalled (r : Repository) (key name : String) : Prop where
  /-- There is nothing to be converted in the name. -/
  unchanged : toSnake name = name
  /-- The list of a select has the name where it has the key. -/
  listed {d : Dialect} {s : Select} {st : Statement} (hraw : ∀ c ∈ s.columns, Sql.isRawValue c ≠ .ok true)
    (h : s.build d r = .ok st) : ∃ own others, RefersTo d st.sql (own ++ others) ∧
      List.Forall₂ (fun other c => other = key → c = (ColumnRef.plain name).under (s.owner r))
        (s.listedKeys r) own
  /-- A select of all columns is built and has the name. -/
  lists {d : Dialect} {table : String} (htable : r.table = .text table) : ∃ st own others,
    ({} : Select).build d r = .ok st ∧ RefersTo d st.sql (own ++ others) ∧ ColumnRef.plain name ∈ own
  /-- A condition under the key is about the name, unless no row satisfies it. -/
  compared {d : Dialect} {owner value : Value} {utc : Bool} {a : Atom}
    (h : Sql.entryAtom d owner utc key value = .ok (some a)) (hnever : a ≠ .never) :
    ∃ cs, cs ≠ [] ∧ Refers d (a.fragment d) cs ∧ ∀ c ∈ cs, c = (ColumnRef.plain name).under owner
  /-- A condition that asks for a text under the key is built, and asks it of the name. -/
  compares {owner : Value} (howner : owner = .null ∨ ∃ table, owner = .text table) (d : Dialect) (utc : Bool)
    (text : String) : Filter.build d owner utc (.record [(key, .text text)]) .null =
      .ok ⟨Fragment.sql d ((ColumnRef.plain name).under owner).fragment ++ " = " ++ d.placeholder,
        [.text text]⟩
  /-- An order by the key is one by the name. -/
  ordered {d : Dialect} {owner item : Value} {f : Fragment} (h : Sql.orderItem owner item = .ok f)
    (hkey : Sql.orderKeys item = [key]) : Refers d f [(ColumnRef.plain name).under owner]
  /-- An ORDER BY clause with the key is built, and has the name. -/
  orders {owner : Value} (howner : owner = .null ∨ ∃ table, owner = .text table) (d : Dialect) :
    (Sql.orderClause owner [.record [("column", .text key)]]).map (Fragment.sql d) =
      .ok (" ORDER BY " ++ Fragment.sql d ((ColumnRef.plain name).under owner).fragment ++ " ASC")
  /-- An aggregate of the key is one of the name. -/
  aggregated {d : Dialect} {owner : Value} {a : Aggregate} {f : Fragment} (hkey : a.column = .text key)
    (h : a.plainExpression owner = .ok f) : Refers d f [(ColumnRef.plain name).under owner]
  /-- Every function of the key is built, and is one of the name. -/
  aggregates {owner : Value} (howner : owner = .null ∨ ∃ table, owner = .text table)
    (d : Dialect) (utc : Bool) (function : Sql.AggregateFunction) (label : String) :
    Aggregate.write d owner utc ⟨function, .text label, .text key, .null, some false⟩ =
      .ok ⟨function.label ++ "(" ++ Fragment.sql d ((ColumnRef.plain name).under owner).fragment ++ ") AS " ++
        d.quoteName label, []⟩
  /-- An insert has the name where it writes the key. -/
  inserted {d : Dialect} {objects : Value} {force : Bool} {st : Statement}
    (h : Insert.build d r objects force = .ok (some st)) : ∃ items first rest cs,
      objects.items = .ok items ∧
      items.mapM (fun o => r.codec.toRow o (!force) false) = .ok (first :: rest) ∧
      Sql.Grammar.mentioned? d st.sql = some cs ∧
      List.Forall₂ (fun other c => other = key → c = .plain name) (Insert.writtenKeys d r.codec first) cs
  /-- An insert of objects that can be stored and of which it writes the key is built, and has the
  name. -/
  inserts {d : Dialect} {objects : Value} {force : Bool} {items : List Value} {first : Record}
    {rest : List Record} {table : String} (htable : r.table = .text table) (hsome : objects.isTrue = true)
    (hitems : objects.items = .ok items)
    (hrows : items.mapM (fun o => r.codec.toRow o (!force) false) = .ok (first :: rest))
    (hwritten : key ∈ Insert.writtenKeys d r.codec first) : ∃ st cs,
      Insert.build d r objects force = .ok (some st) ∧ Sql.Grammar.mentioned? d st.sql = some cs ∧
      ColumnRef.plain name ∈ cs
  /-- An update sets the name if there is a value for the key. -/
  updated {d : Dialect} {force : Bool} {change : Value × Value} {st : Statement}
    (h : Update.buildOne d r force change = .ok (some st)) : ∃ f,
      Filter.compile d .null r.codec.utc change.1 [] = .ok f ∧
      Sql.Grammar.mentioned? d st.sql =
        some ((r.codec.suppliedColumns (!force) change.2).map .plain ++ f.columns) ∧
      (r.codec.writes (!force) change.2 key = true → name ∈ r.codec.suppliedColumns (!force) change.2)
  /-- An update with a condition and a value for the key is built, and sets the name. -/
  updates {d : Dialect} {force : Bool} {change : Value × Value} {f : Filter} {table : String}
    (htable : r.table = .text table)
    (hencode : ∃ row, r.codec.toRow change.2 (!force) true = .ok row)
    (hf : Filter.compile d .null r.codec.utc change.1 [] = .ok f) (hnonempty : f.isEmpty = false)
    (hwrites : r.codec.writes (!force) change.2 key = true) : ∃ st cs,
      Update.buildOne d r force change = .ok (some st) ∧ Sql.Grammar.mentioned? d st.sql = some cs ∧
      ColumnRef.plain name ∈ cs
  /-- An object has under the key what its row has under the name, behind the start of all names of
  the row. -/
  found {row : Value} {start : String} {object : Record} (h : r.codec.toObject row start = .ok object)
    (v : Value) : (key, v) ∈ object ↔ ∃ stored, Codec.cell row (start ++ name) = .ok (some stored) ∧
      r.codec.decode name stored = .ok v
  /-- A row that has something under the name is read as an object that has it under the key. -/
  reads {start : String} {stored v : Value} (hdecode : r.codec.decode name stored = .ok v) : ∃ object,
    r.codec.toObject (.record [(start ++ name, stored)]) start = .ok object ∧ (key, v) ∈ object

variable {r : Repository} {key : String}

/-- In a table whose name is a text a key without a dot is the name of a column. -/
theorem ofValue_toSnake {owner : Value} (howner : owner = .null ∨ ∃ table, owner = .text table)
    (hdot : '.' ∉ key.toList) :
    ColumnRef.ofValue owner (.text key) = .ok ((ColumnRef.plain (toSnake key)).under owner) := by
  obtain ⟨c, hc⟩ := ColumnRef.exists_ofValue howner key
  have hwithin : (ColumnRef.ofKey key).within owner = .ok c := hc
  rw [hc, ColumnRef.eq_under hwithin, ColumnRef.ofKey_of_not_mem hdot]

/-- A select lists the column under the name that is made of the key. -/
theorem listed_toSnake {s : Select} {st : Statement} (hdot : '.' ∉ key.toList)
    (hraw : ∀ c ∈ s.columns, Sql.isRawValue c ≠ .ok true) (h : s.build d r = .ok st) :
    ∃ own others, RefersTo d st.sql (own ++ others) ∧
      List.Forall₂ (fun other c => other = key → c = (ColumnRef.plain (toSnake key)).under (s.owner r))
        (s.listedKeys r) own := by
  obtain ⟨f, -, hrefers⟩ := Select.refersTo_of_build hraw h
  rw [Select.listed, List.append_assoc, List.append_assoc, List.append_assoc] at hrefers
  refine ⟨_, _, hrefers, ?_⟩
  rw [List.forall₂_map_right_iff, Select.listedKeys]
  split_ifs
  · rw [Codec.columnNames, List.forall₂_map_right_iff, List.forall₂_same]
    intro other _ hother
    have hname : '.' ∉ (toSnake key).toList := mt (Text.Name.dot_mem_toSnake_iff key).mp hdot
    rw [hother, ColumnRef.ofKey_of_not_mem hname, Text.Name.toSnake_toSnake]
  · rw [List.forall₂_same]
    intro other _ hother
    rw [hother, ColumnRef.ofKey_of_not_mem hdot]

/-- The select of all columns lists that of a key. -/
theorem lists_toSnake {table : String} (hkey : key ∈ r.codec.keys) (hdot : '.' ∉ key.toList)
    (htable : r.table = .text table) : ∃ st own others, ({} : Select).build d r = .ok st ∧
      RefersTo d st.sql (own ++ others) ∧ ColumnRef.plain (toSnake key) ∈ own := by
  obtain ⟨st, hst⟩ : ∃ st, ({} : Select).build d r = .ok st := by
    obtain ⟨columns, hcolumns⟩ := Select.exists_columnList (.inl rfl) r.codec
    have hfilter : ({} : Select).filter d r = .ok ⟨[], []⟩ := rfl
    have hfrom : ({} : Select).fromClause r = .ok [.word " FROM ", .name table] := by
      rw [Select.fromClause, htable]
      rfl
    exact exists_bind_eq_ok hcolumns (exists_bind_eq_ok hfilter (exists_bind_eq_ok hfrom ⟨_, rfl⟩))
  obtain ⟨own, others, hrefers, hown⟩ := listed_toSnake hdot (s := {}) nofun hst
  obtain ⟨c, hc, hname⟩ := exists_of_forall₂ hown key hkey
  have hplain : c = .plain (toSnake key) := hname rfl
  exact ⟨st, own, others, hst, hrefers, hplain ▸ hc⟩

/-- A condition compares the column under the name that is made of the key. -/
theorem compared_toSnake {owner value : Value} {utc : Bool} {a : Atom} (hdot : '.' ∉ key.toList)
    (h : Sql.entryAtom d owner utc key value = .ok (some a)) (hnever : a ≠ .never) :
    ∃ cs, cs ≠ [] ∧ Refers d (a.fragment d) cs ∧
      ∀ c ∈ cs, c = (ColumnRef.plain (toSnake key)).under owner := by
  have hproper : a.IsProper := (Sql.entryAtom_agrees h).isProper
  have habout := Sql.isAbout_entryAtom h a rfl
  rw [ColumnRef.ofKey_of_not_mem hdot] at habout
  exact ⟨a.columns, Atom.columns_ne_nil hproper hnever, a.refers hproper, habout⟩

/-- A text in a condition is compared with the column of its key. -/
theorem compares_toSnake {owner : Value} (howner : owner = .null ∨ ∃ table, owner = .text table)
    (hdot : '.' ∉ key.toList) (utc : Bool) (text : String) :
    Filter.build d owner utc (.record [(key, .text text)]) .null =
      .ok ⟨Fragment.sql d ((ColumnRef.plain (toSnake key)).under owner).fragment ++ " = " ++ d.placeholder,
        [.text text]⟩ := by
  have hcolumn : (ColumnRef.ofKey key).within owner = .ok ((ColumnRef.plain (toSnake key)).under owner) :=
    ofValue_toSnake howner hdot
  have hatom : Sql.entryAtom d owner utc key (.text text) =
      .ok (some (.compare ((ColumnRef.plain (toSnake key)).under owner) .equal (.text text))) := by
    rw [Sql.entryAtom, hcolumn]
    rfl
  have hfilter : Filter.ofValues d owner utc (.record [(key, .text text)]) .null =
      .ok ⟨[.compare ((ColumnRef.plain (toSnake key)).under owner) .equal (.text text)], []⟩ := by
    have hentries : Sql.entryAtoms d owner utc [(key, .text text)] =
        .ok [.compare ((ColumnRef.plain (toSnake key)).under owner) .equal (.text text)] := by
      rw [Sql.entryAtoms, hatom]
      rfl
    exact bind_eq_ok.mpr ⟨_, rfl, bind_eq_ok.mpr ⟨_, hentries, rfl⟩⟩
  have hsign (t : String) : " " ++ ("=" ++ (" " ++ t)) = " = " ++ t := String.toList_injective (by simp)
  have hone (a : Atom) : Filter.fragment d ⟨[a], []⟩ = a.fragment d := rfl
  rw [Filter.build, hfilter, Except.map, Filter.write_eq, hone, ← Atom.write_eq]
  simp only [Atom.write, Sql.Comparison.sign, String.append_assoc, hsign]

/-- An order is by the column under the name that is made of the key. -/
theorem ordered_toSnake {owner item : Value} {f : Fragment} (hdot : '.' ∉ key.toList)
    (h : Sql.orderItem owner item = .ok f) (hkey : Sql.orderKeys item = [key]) :
    Refers d f [(ColumnRef.plain (toSnake key)).under owner] := by
  have hrefers := Sql.refers_orderItem (d := d) h
  rwa [Sql.orderColumns, hkey, List.map_singleton, ColumnRef.ofKey_of_not_mem hdot] at hrefers

/-- An order by a key is by its column. -/
theorem orders_toSnake {owner : Value} (howner : owner = .null ∨ ∃ table, owner = .text table)
    (hdot : '.' ∉ key.toList) :
    (Sql.orderClause owner [.record [("column", .text key)]]).map (Fragment.sql d) =
      .ok (" ORDER BY " ++ Fragment.sql d ((ColumnRef.plain (toSnake key)).under owner).fragment ++
        " ASC") := by
  have hitem : Sql.orderItem owner (.record [("column", .text key)]) =
      .ok (((ColumnRef.plain (toSnake key)).under owner).fragment ++ [.word " ", .word "ASC"]) := by
    show (ColumnRef.ofValue owner (.text key) >>= fun reference => _) = _
    rw [ofValue_toSnake howner hdot]
    rfl
  have hclause : Sql.orderClause owner [.record [("column", .text key)]] = .ok (.word " ORDER BY " ::
      (((ColumnRef.plain (toSnake key)).under owner).fragment ++ [.word " ", .word "ASC"])) := by
    rw [Sql.orderClause, List.mapM_cons, hitem]
    rfl
  rw [hclause, Except.map]
  simp [Sql.sql_cons, Sql.sql_append, Sql.sql_nil, Sql.Piece.chars, String.append_assoc]

/-- An aggregate is over the column under the name that is made of the key. -/
theorem aggregated_toSnake {owner : Value} {a : Aggregate} {f : Fragment} (hne : key ≠ "") (hstar : key ≠ "*")
    (hdot : '.' ∉ key.toList) (hkey : a.column = .text key) (h : a.plainExpression owner = .ok f) :
    Refers d f [(ColumnRef.plain (toSnake key)).under owner] := by
  have hcolumn : a.columnKey = .text key := by
    rw [Aggregate.columnKey, hkey, if_pos (by simpa [Value.isTrue] using hne)]
  have hrefers := Aggregate.refers_plainExpression (d := d) h
  rw [Aggregate.plainColumns, hcolumn, Value.same_text, if_neg (by simp [hstar])] at hrefers
  rwa [Value.display, ColumnRef.ofKey_of_not_mem hdot] at hrefers

/-- An aggregate over a key is over its column. -/
theorem aggregates_toSnake {owner : Value} (howner : owner = .null ∨ ∃ table, owner = .text table)
    (hne : key ≠ "") (hstar : key ≠ "*") (hdot : '.' ∉ key.toList) (utc : Bool)
    (function : Sql.AggregateFunction) (label : String) :
    Aggregate.write d owner utc ⟨function, .text label, .text key, .null, some false⟩ =
      .ok ⟨function.label ++ "(" ++ Fragment.sql d ((ColumnRef.plain (toSnake key)).under owner).fragment ++
        ") AS " ++ d.quoteName label, []⟩ := by
  have hexpression : Aggregate.plainExpression owner ⟨function, .text label, .text key, .null, some false⟩ =
      .ok ((ColumnRef.plain (toSnake key)).under owner).fragment := by
    have hcolumn : Aggregate.columnKey ⟨function, .text label, .text key, .null, some false⟩ = .text key := by
      rw [Aggregate.columnKey, if_pos (by simpa [Value.isTrue] using hne)]
    rw [Aggregate.plainExpression, hcolumn, Value.same_text, if_neg (by simp [hstar]),
      ofValue_toSnake howner hdot]
    rfl
  have hcase : Aggregate.activeCase d owner utc ⟨function, .text label, .text key, .null, some false⟩ =
      .ok none := rfl
  have hlabel : Sql.identifier (.text label) = .ok label := rfl
  rw [Aggregate.write, hlabel, hcase, hexpression]
  rfl

/-- An insert writes the column under the name that is made of the key. -/
theorem inserted_toSnake {objects : Value} {force : Bool} {st : Statement}
    (h : Insert.build d r objects force = .ok (some st)) : ∃ items first rest cs,
      objects.items = .ok items ∧
      items.mapM (fun o => r.codec.toRow o (!force) false) = .ok (first :: rest) ∧
      Sql.Grammar.mentioned? d st.sql = some cs ∧
      List.Forall₂ (fun other c => other = key → c = .plain (toSnake key))
        (Insert.writtenKeys d r.codec first) cs := by
  obtain ⟨items, first, rest, table, hitems, hrows, rfl⟩ := Insert.of_build h
  have hrefers := Insert.refers_fragment (d := d) table (Insert.written d r.codec.columnNames first) first
    (first :: rest)
  refine ⟨items, first, rest, _, hitems, hrows, hrefers.mentioned?, ?_⟩
  rw [Insert.written_eq, List.forall₂_map_right_iff, List.forall₂_map_right_iff, List.forall₂_same]
  intro other _ hother
  rw [hother]

/-- An insert of a written key writes its column. -/
theorem inserts_toSnake {objects : Value} {force : Bool} {items : List Value} {first : Record}
    {rest : List Record} {table : String} (htable : r.table = .text table) (hsome : objects.isTrue = true)
    (hitems : objects.items = .ok items)
    (hrows : items.mapM (fun o => r.codec.toRow o (!force) false) = .ok (first :: rest))
    (hwritten : key ∈ Insert.writtenKeys d r.codec first) : ∃ st cs,
      Insert.build d r objects force = .ok (some st) ∧ Sql.Grammar.mentioned? d st.sql = some cs ∧
      ColumnRef.plain (toSnake key) ∈ cs := by
  have hmem : toSnake key ∈ Insert.written d r.codec.columnNames first := by
    rw [Insert.written_eq]
    exact List.mem_map_of_mem hwritten
  have hidentifier : Sql.identifier r.table = .ok table := by
    rw [htable]
    rfl
  have hrefers := Insert.refers_fragment (d := d) table (Insert.written d r.codec.columnNames first) first
    (first :: rest)
  refine ⟨_, _, Insert.build_eq_some_iff.mpr ⟨hsome, items, first, rest, table, hitems, hrows,
    List.ne_nil_of_mem hmem, hidentifier, rfl⟩, hrefers.mentioned?, ?_⟩
  exact List.mem_map_of_mem hmem

/-- An update writes the column under the name that is made of the key. -/
theorem updated_toSnake {force : Bool} {change : Value × Value} {st : Statement} (hkey : key ∈ r.codec.keys)
    (h : Update.buildOne d r force change = .ok (some st)) : ∃ f,
      Filter.compile d .null r.codec.utc change.1 [] = .ok f ∧
      Sql.Grammar.mentioned? d st.sql =
        some ((r.codec.suppliedColumns (!force) change.2).map .plain ++ f.columns) ∧
      (r.codec.writes (!force) change.2 key = true →
        toSnake key ∈ r.codec.suppliedColumns (!force) change.2) := by
  obtain ⟨row, hrow, hbuilt⟩ := Update.of_buildOne h
  split_ifs at hbuilt
  obtain ⟨f, table, hf, -, -, hst⟩ := hbuilt
  obtain rfl := Option.some.inj hst
  have hrefers := Update.refers_fragment (d := d) table row (Sql.compile_means hf).1
  rw [Codec.names_toRow hrow] at hrefers
  refine ⟨f, hf, hrefers.mentioned?, ?_⟩
  intro hwrites
  rw [Codec.suppliedColumns, List.mem_eraseDups]
  exact List.mem_map_of_mem (List.mem_filter.mpr ⟨hkey, hwrites⟩)

/-- An update of a written key writes its column. -/
theorem updates_toSnake {force : Bool} {change : Value × Value} {f : Filter} {table : String}
    (hkey : key ∈ r.codec.keys) (htable : r.table = .text table)
    (hencode : ∃ row, r.codec.toRow change.2 (!force) true = .ok row)
    (hf : Filter.compile d .null r.codec.utc change.1 [] = .ok f) (hnonempty : f.isEmpty = false)
    (hwrites : r.codec.writes (!force) change.2 key = true) : ∃ st cs,
      Update.buildOne d r force change = .ok (some st) ∧ Sql.Grammar.mentioned? d st.sql = some cs ∧
      ColumnRef.plain (toSnake key) ∈ cs := by
  obtain ⟨row, hrow⟩ := hencode
  have hidentifier : Sql.identifier r.table = .ok table := by
    rw [htable]
    rfl
  have hsets : Update.isEffective r force change = true := List.any_eq_true.mpr ⟨key, hkey, hwrites⟩
  obtain ⟨st, hst, -⟩ := Update.buildOne_of_nonempty hrow hsets hf hnonempty hidentifier
  obtain ⟨g, -, hmentioned, hname⟩ := updated_toSnake hkey hst
  exact ⟨st, _, hst, hmentioned, List.mem_append_left _ (List.mem_map_of_mem (hname hwrites))⟩

/-- An object has what stands in the column under the name that is made of the key. -/
theorem found_toSnake {row : Value} {start : String} {object : Record} (hkey : key ∈ r.codec.keys)
    (h : r.codec.toObject row start = .ok object) (v : Value) :
    (key, v) ∈ object ↔ ∃ stored, Codec.cell row (start ++ toSnake key) = .ok (some stored) ∧
      r.codec.decode (toSnake key) stored = .ok v := by
  constructor
  · exact Codec.cell_of_mem_decodeKeys h
  · rintro ⟨stored, hcell, hdecode⟩
    obtain ⟨w, hmem, hw⟩ := Codec.mem_of_cell h hkey hcell
    obtain rfl := Except.ok.inj (hw.symm.trans hdecode)
    exact hmem

/-- What stands in the column of a key is read into the object. -/
theorem reads_toSnake {start : String} {stored v : Value} (hkey : key ∈ r.codec.keys)
    (hdecode : r.codec.decode (toSnake key) stored = .ok v) : ∃ object,
      r.codec.toObject (.record [(start ++ toSnake key, stored)]) start = .ok object ∧ (key, v) ∈ object := by
  obtain ⟨object, hobject⟩ : ∃ object,
      r.codec.decodeKeys (.record [(start ++ toSnake key, stored)]) start r.codec.keys = .ok object := by
    refine Codec.exists_decodeKeys fun other _ u hu => ?_
    obtain ⟨hcolumn, rfl⟩ := Prod.mk.inj (List.mem_singleton.mp (Record.mem_of_get? hu))
    rw [String.append_right_inj] at hcolumn
    exact ⟨v, hcolumn ▸ hdecode⟩
  have hcell : Codec.cell (.record [(start ++ toSnake key, stored)]) (start ++ toSnake key) =
      .ok (some stored) := by simp [Codec.cell, Record.get?]
  exact ⟨object, hobject, (found_toSnake hkey hobject v).mpr ⟨stored, hcell, hdecode⟩⟩

/-- Every declared key has one name. -/
theorem isCalled_toSnake (hkey : key ∈ r.codec.keys) (hne : key ≠ "") (hstar : key ≠ "*")
    (hdot : '.' ∉ key.toList) : r.IsCalled key (toSnake key) where
  unchanged := Text.Name.toSnake_toSnake key
  listed := listed_toSnake hdot
  lists := lists_toSnake hkey hdot
  compared := compared_toSnake hdot
  compares howner _ := compares_toSnake howner hdot
  ordered := ordered_toSnake hdot
  orders howner _ := orders_toSnake howner hdot
  aggregated := aggregated_toSnake hne hstar hdot
  aggregates howner _ := aggregates_toSnake howner hne hstar hdot
  inserted := inserted_toSnake
  inserts := inserts_toSnake
  updated := updated_toSnake hkey
  updates := updates_toSnake hkey
  found := found_toSnake hkey
  reads := reads_toSnake hkey

/-- Chapters whose headings have a key with an acronym, a digit and a letter beyond ASCII. -/
def headed : Repository :=
  ⟨.text "chapter", ⟨["id", "mainÜberschriftHTML2A"], ["id"], [], true, true⟩, [], .bool false, .proper {}⟩

/-- The statements and the object in which the key of such a heading has its name. -/
theorem isCalled_headed :
    let key := "mainÜberschriftHTML2A"
    let object : Value := .record [(key, .text "Kopf")]
    headed.IsCalled key "mainüberschrift_html2_a" ∧
      ({} : Select).build .mysql headed =
        .ok ⟨"SELECT `id`, `mainüberschrift_html2_a` FROM `chapter`", []⟩ ∧
      Filter.build .mysql .null true (.record [(key, .text "Fuß")]) .null =
        .ok ⟨"`mainüberschrift_html2_a` = %s", [.text "Fuß"]⟩ ∧
      (Sql.orderClause (.text "chapter") [.record [("column", .text key)]]).map (Fragment.sql .mysql) =
        .ok " ORDER BY `chapter`.`mainüberschrift_html2_a` ASC" ∧
      Aggregate.write .mysql .null true ⟨.maximum, .text "last", .text key, .null, some false⟩ =
        .ok ⟨"MAX(`mainüberschrift_html2_a`) AS `last`", []⟩ ∧
      Insert.build .mysql headed (.list [object]) false =
        .ok (some ⟨"INSERT INTO `chapter` (`id`, `mainüberschrift_html2_a`) VALUES (DEFAULT, %s)",
          [.text "Kopf"]⟩) ∧
      Update.buildOne .mysql headed false (.record [("id", .int 1)], object) =
        .ok (some ⟨"UPDATE `chapter` SET `mainüberschrift_html2_a` = %s WHERE `id` = %s",
          [.text "Kopf", .int 1]⟩) ∧
      ∃ read, headed.codec.toObject (.record [("mainüberschrift_html2_a", .text "Kopf")]) "" = .ok read ∧
        (key, .text "Kopf") ∈ read := by
  have hcalled : headed.IsCalled "mainÜberschriftHTML2A" (toSnake "mainÜberschriftHTML2A") :=
    isCalled_toSnake (by decide) (by decide) (by decide) (by decide)
  have hname : toSnake "mainÜberschriftHTML2A" = "mainüberschrift_html2_a" := rfl
  rw [hname] at hcalled
  refine ⟨hcalled, rfl, ?compares, ?orders, ?aggregates, rfl, rfl, hcalled.reads rfl⟩
  case compares => exact (hcalled.compares (.inl rfl) .mysql true "Fuß").trans rfl
  case orders => exact (hcalled.orders (.inr ⟨_, rfl⟩) .mysql).trans rfl
  case aggregates => exact (hcalled.aggregates (.inl rfl) .mysql true .maximum "last").trans rfl

end Repository

end Quarry
