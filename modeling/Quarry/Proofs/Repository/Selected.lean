import Quarry.Proofs.Repository.Built
import Quarry.Proofs.Sql.Heading

/-!
# The heading of a built SELECT

A SELECT without chosen columns lists the declared columns, each as far qualified as the statement
needs, and then what its relations bring. Its tables are the repository's own, those of its
relations and those of its joins. `Select.heading` says so without looking at the text; the text of
every such statement that is built has this heading (`Select.heading?_of_build`).
-/

set_option autoImplicit false

namespace Quarry

open Sql (ColumnRef Dialect Filter Fragment Join JoinKind Piece Relation Statement)
open Sql.Grammar (Closes EndsHeading Entry Heading IsSpaced JoinsTables Reads Token)

variable {d : Dialect}

namespace Sql

/-- The column of a key is made of a text. -/
theorem columnName_eq_ok {v : Value} {column : String} (h : columnName v = .ok column) :
    ∃ key, v = .text key ∧ column = Text.Name.toSnake key := by
  cases v with
  | text s => exact ⟨s, rfl, (Except.ok.inj h).symm⟩
  | _ => simp [columnName, misfit] at h

/-! ## Columns -/

namespace ColumnRef

/-- A reference as it is written where `owner` is the table at hand. -/
def under (owner : Value) : ColumnRef → ColumnRef
  | .plain column => if owner.isTrue then .qualified owner.display column else .plain column
  | r => r

/-- A column under an owner is the one that is denoted. -/
theorem eq_under {owner : Value} {r x : ColumnRef} (h : r.within owner = .ok x) : x = r.under owner := by
  cases r with
  | plain column =>
    unfold within at h
    unfold under
    split_ifs at h ⊢
    · obtain ⟨table, htable, rfl⟩ := map_eq_ok.mp h
      rw [identifier_eq_ok htable]
      rfl
    · exact (Except.ok.inj h).symm
  | qualified table column => exact (Except.ok.inj h).symm
  | star table => exact (Except.ok.inj h).symm

end ColumnRef

/-- All columns of the table itself are those of its keys. -/
theorem ownColumns_eq {owner : Value} {names : List String} {own : List (Option Fragment)}
    (h : ownColumns owner (names.map .text) [] = .ok own) :
    own = names.map fun name => some ((ColumnRef.ofKey name).under owner).fragment := by
  have hnames : names.map (fun name => some ((ColumnRef.ofKey name).under owner).fragment) =
      (names.map Value.text).map
        fun v => some ((ColumnRef.ofKey v.display).under owner).fragment := by
    rw [List.map_map]
    rfl
  rw [hnames]
  apply eq_map_of_mapM_eq_ok h
  intro v hv column hcolumn
  obtain ⟨name, -, rfl⟩ := List.mem_map.mp hv
  obtain ⟨reference, hreference, rfl⟩ := functor_map_eq_ok.mp hcolumn
  rw [ColumnRef.eq_under hreference]
  rfl

namespace Relation

/-- The columns that a relation names. -/
def namedColumns (r : Relation) : List String := r.declaredKeys.map fun key => Text.Name.toSnake key.display

/-- The entries that a relation adds to a list of columns. -/
def entries (r : Relation) : List Entry :=
  if r.declaredKeys.isEmpty then [⟨.star r.table.display, none⟩]
  else r.namedColumns.map fun c => ⟨.qualified r.table.display c, some (r.aliasOf c)⟩

/-- The columns of a relation are its entries. -/
theorem columns_eq {r : Relation} {fs : List Fragment} (h : r.columns = .ok fs) :
    fs = r.entries.map Entry.fragment := by
  unfold columns at h
  unfold entries namedColumns
  cases hkeys : r.declaredKeys with
  | nil =>
    rw [hkeys] at h
    obtain ⟨table, htable, rfl⟩ := map_eq_ok.mp h
    rw [identifier_eq_ok htable]
    rfl
  | cons key rest =>
    rw [hkeys] at h
    rw [List.isEmpty_cons, if_neg Bool.false_ne_true, List.map_map, List.map_map]
    apply eq_map_of_mapM_eq_ok h
    intro k _ f hf
    obtain ⟨column, hcolumn, hname⟩ := bind_eq_ok.mp hf
    obtain ⟨table, htable, rfl⟩ := functor_map_eq_ok.mp hname
    obtain ⟨name, rfl, rfl⟩ := columnName_eq_ok hcolumn
    rw [identifier_eq_ok htable]
    rfl

/-- The entries of a relation are proper. -/
theorem isProper_of_mem_entries {r : Relation} {e : Entry} (h : e ∈ r.entries) : e.IsProper := by
  unfold entries at h
  split_ifs at h
  · obtain rfl := List.mem_singleton.mp h
    exact fun _ _ => rfl
  · obtain ⟨c, -, rfl⟩ := List.mem_map.mp h
    exact nofun

end Relation

/-! ## Joins -/

namespace Join

/-- A join is read as one. -/
theorem reads_fragment {j : Join} {f : Fragment} (h : j.fragment = .ok f) :
    IsSpaced (Fragment.chars d f) ∧ ∃ left right,
      Reads d (Fragment.chars d f) (Grammar.joinTokens j.kind j.table.display left right) := by
  obtain ⟨table, htable, hleft⟩ := bind_eq_ok.mp h
  obtain ⟨left, -, hright⟩ := bind_eq_ok.mp hleft
  obtain ⟨right, -, rfl⟩ := functor_map_eq_ok.mp hright
  have hkind : Closes d (' ' :: (j.kind.label.toList ++ " JOIN ".toList))
      [.word j.kind.label, .word "JOIN"] := by
    cases j.kind <;> cases d <;> rfl
  have hon : Closes d " ON ".toList [.word "ON"] := by cases d <;> rfl
  have hequals : Closes d " = ".toList [.sign "="] := by cases d <;> rfl
  have hblank (w : String) (hw : ∃ cs, w.toList = ' ' :: cs) (cs : List Char) :
      IsSpaced (w.toList ++ cs) := by
    obtain ⟨rest, hrest⟩ := hw
    exact .inr ⟨rest ++ cs, by rw [hrest]; rfl⟩
  have htail := (left.reads (d := d)).append_spaced (hblank " = " ⟨_, rfl⟩ _)
    (hequals.append_reads (right.reads (d := d)))
  have hname := (Grammar.reads_quoteChars (d := d) table).append_spaced (hblank " ON " ⟨_, rfl⟩ _)
    (hon.append_reads htail)
  rw [identifier_eq_ok htable]
  refine ⟨.inr ⟨_, rfl⟩, left, right, ?_⟩
  have hall := hkind.append_reads hname
  simpa [Fragment.chars, Piece.chars, Grammar.joinTokens, Value.display] using hall

/-- Joins are read as such. -/
theorem reads_fragments {joins : List Join} {f : Fragment} (h : fragments joins = .ok f) :
    IsSpaced (Fragment.chars d f) ∧ ∃ ts, Reads d (Fragment.chars d f) ts ∧
      JoinsTables ts (joins.map fun j => j.table.display) := by
  obtain ⟨fs, hfs, rfl⟩ := functor_map_eq_ok.mp h
  have hall := mapM_eq_ok_iff.mp hfs
  clear h hfs
  induction hall with
  | nil => exact ⟨.inl rfl, [], ⟨[], .between, [], rfl, rfl, rfl⟩, .nil⟩
  | cons hfirst _ ih =>
    obtain ⟨hspaced, left, right, hreads⟩ := reads_fragment (d := d) hfirst
    obtain ⟨hrest, ts, hts, hjoins⟩ := ih
    rw [List.flatten_cons, Grammar.chars_append]
    exact ⟨hspaced.append hrest, _, hreads.append_spaced hrest hts, .cons _ _ left right hjoins⟩

end Join

end Sql

/-! ## Selects -/

namespace Select

variable {r : Repository} {s : Select} {st : Statement}

/-- The entries of the table itself. -/
def ownEntries (r : Repository) (s : Select) : List Entry :=
  r.codec.columnNames.map fun column => ⟨(ColumnRef.ofKey column).under (s.owner r), none⟩

/-- What a select lists, if it has no chosen columns, and which tables it reads. -/
def heading (r : Repository) (s : Select) : Heading where
  entries := s.ownEntries r ++ (s.relations r).flatMap fun e => e.2.entries
  tables := r.table.display ::
    ((s.relations r).map (fun e => e.2.table.display) ++ s.joins.map fun j => j.table.display)

/-- The joins of the relations that are named. -/
theorem joins_eq {owner : Value} {names : List String} {joins : List Join}
    (h : Relation.joins r.relations owner (names.map .text) = .ok joins) :
    joins = (names.filterMap fun name => (r.relation? name).map fun relation => (name, relation)).map
      fun e => e.2.join owner := by
  induction names generalizing joins with
  | nil => exact (Except.ok.inj h).symm
  | cons name rest ih =>
    have hfirst : ∃ j js, (Relation.named r.relations owner (.text name)).map (·.2.join owner) = .ok j ∧
        Relation.joins r.relations owner (rest.map .text) = .ok js ∧ j :: js = joins := by
      simpa [Relation.joins, List.mapM_cons] using h
    obtain ⟨j, js, hj, hjs, rfl⟩ := hfirst
    obtain ⟨found, hfound, rfl⟩ := map_eq_ok.mp hj
    cases hrelation : Relation.find? r.relations name with
    | none => simp [Relation.named, hrelation, refuse] at hfound
    | some relation =>
      obtain rfl : (name, relation) = found := by simpa [Relation.named, hrelation] using hfound
      have hknown : r.relation? name = some relation := hrelation
      rw [ih hjs, List.filterMap_cons, hknown]
      rfl

/-- A filter ends the heading. -/
theorem endsHeading_filter (f : Filter) : EndsHeading (Fragment.chars d (f.whereFragment d)) := by
  unfold Filter.whereFragment
  split_ifs
  · exact .inl rfl
  · exact .inr ⟨" WHERE ", by simp, Fragment.chars d (f.fragment d), rfl⟩

/-- An order ends the heading. -/
theorem endsHeading_order {owner : Value} {items : List Value} {f : Fragment}
    (h : Sql.orderClause owner items = .ok f) : EndsHeading (Fragment.chars d f) := by
  obtain ⟨parts, -, rfl⟩ := functor_map_eq_ok.mp h
  split_ifs
  · exact .inl rfl
  · exact .inr ⟨" ORDER BY ", by simp, Fragment.chars d (Fragment.joined ", " parts), rfl⟩

/-- A limit ends the heading. -/
theorem endsHeading_limit {limit offset : Value} {f : Fragment}
    (h : Sql.limitClause d limit offset = .ok f) : EndsHeading (Fragment.chars d f) := by
  obtain ⟨part, hpart, hoffset⟩ := bind_eq_ok.mp h
  obtain ⟨skipped, hskipped, rfl⟩ := functor_map_eq_ok.mp hoffset
  have hlimit (count : String) : EndsHeading
      (Fragment.chars d ([.word " LIMIT ", .word count] ++ skipped)) :=
    .inr ⟨" LIMIT ", by simp, Fragment.chars d (.word count :: skipped), rfl⟩
  unfold Sql.limitPart at hpart
  split_ifs at hpart with hnone hnull
  · obtain rfl := Except.ok.inj hpart
    rw [Sql.offsetPart, if_pos hnull] at hskipped
    obtain rfl := Except.ok.inj hskipped
    exact .inl rfl
  · obtain rfl := Except.ok.inj hpart
    exact hlimit _
  · obtain ⟨n, -, rfl⟩ := map_eq_ok.mp hpart
    exact hlimit _

/-- The entries of a heading are proper. -/
theorem isProper_of_mem_heading {e : Entry} (h : e ∈ (s.heading r).entries) : e.IsProper := by
  obtain hown | hrelated := List.mem_append.mp h
  · obtain ⟨column, -, rfl⟩ := List.mem_map.mp hown
    exact fun _ _ => rfl
  · obtain ⟨relation, -, hmem⟩ := List.mem_flatMap.mp hrelated
    exact Relation.isProper_of_mem_entries hmem

/-- The list of columns of a select is that of its heading. -/
theorem columnList_eq {f : Fragment}
    (h : Sql.columnList (s.owner r) (r.codec.columnNames.map .text) [] ((s.relations r).map (·.2)) = .ok f) :
    f = Fragment.joined ", " ((s.heading r).entries.map Entry.fragment) := by
  obtain ⟨own, hown, hothers⟩ := bind_eq_ok.mp h
  obtain ⟨others, hothers, hf⟩ := bind_eq_ok.mp hothers
  have hrelated : others = (s.relations r).map fun e => e.2.entries.map Entry.fragment := by
    have heq := eq_map_of_mapM_eq_ok hothers fun relation _ fs hfs => Relation.columns_eq hfs
    rw [heq, List.map_map]
    rfl
  have hall : (own.all Option.isSome) = true := by
    rw [Sql.ownColumns_eq hown]
    simp
  rw [if_pos hall] at hf
  obtain rfl := pure_eq_ok.mp hf
  rw [Sql.ownColumns_eq hown, hrelated]
  simp [heading, ownEntries, List.flatMap_def, Function.comp_def, Entry.fragment]

/-- The tables of a select are read from its text. -/
theorem reads_fromClause {f : Fragment} (h : s.fromClause r = .ok f) :
    ∃ table joins ts, r.table = .text table ∧ f = [.word " FROM ", .name table] ++ joins ∧
      IsSpaced (Fragment.chars d joins) ∧ Reads d (Fragment.chars d joins) ts ∧
      JoinsTables ts ((s.relations r).map (fun e => e.2.table.display) ++
        s.joins.map fun j => j.table.display) := by
  obtain ⟨table, htable, hrelations⟩ := bind_eq_ok.mp h
  obtain ⟨related, hrelated, hfetch⟩ := bind_eq_ok.mp hrelations
  obtain ⟨fetched, hfetched, hjoin⟩ := bind_eq_ok.mp hfetch
  obtain ⟨joined, hjoined, rfl⟩ := functor_map_eq_ok.mp hjoin
  obtain ⟨hspaced, ts, hts, htables⟩ := Join.reads_fragments (d := d) hfetched
  obtain ⟨hspaced', us, hus, htables'⟩ := Join.reads_fragments (d := d) hjoined
  have hsame : related.map (fun j => j.table.display) =
      (s.relations r).map fun e => e.2.table.display := by
    rw [joins_eq hrelated, List.map_map]
    rfl
  rw [hsame] at htables
  refine ⟨table, fetched ++ joined, ts ++ us, Sql.identifier_eq_ok htable, List.append_assoc _ _ _, ?_⟩
  rw [Sql.Grammar.chars_append]
  exact ⟨hspaced.append hspaced', hts.append_spaced hspaced' hus, htables.append htables'⟩

/-- The text of a SELECT without chosen columns has the heading of the select. -/
theorem heading?_of_build (h : s.build d r = .ok st) (hcolumns : s.columns = []) :
    Sql.Grammar.heading? d st.sql = some (s.heading r) := by
  obtain ⟨columns, f, tables, order, limits, hlist, -, htables, horder, hlimits, rfl⟩ := of_build h
  obtain ⟨table, joins, ts, htable, rfl, hspaced, hts, hjoined⟩ := reads_fromClause (d := d) htables
  rw [hcolumns] at hlist
  rw [columnList_eq hlist]
  have htail := (endsHeading_filter (d := d) f).append
    ((endsHeading_order (d := d) horder).append (endsHeading_limit (d := d) hlimits))
  have hread := Sql.Grammar.heading?_eq table (Sql.Grammar.reads_list (s.heading r).entries)
    (fun e he => isProper_of_mem_heading he) hts hspaced hjoined htail
  have htext (list : Fragment) : Fragment.sql d (.word "SELECT " :: (list ++
      ([.word " FROM ", .name table] ++ joins) ++ f.whereFragment d ++ order ++ limits)) =
      String.ofList ("SELECT ".toList ++ (Fragment.chars d list ++ (" FROM ".toList ++
        (d.quoteChars table.toList ++ (Fragment.chars d joins ++ (Fragment.chars d (f.whereFragment d) ++
          (Fragment.chars d order ++ Fragment.chars d limits))))))) := by
    rw [Fragment.sql]
    simp only [Sql.Grammar.chars_cons, Sql.Grammar.chars_append, Sql.Grammar.chars_nil, Piece.chars,
      List.append_assoc, List.append_nil]
  show Sql.Grammar.heading? d (Fragment.sql d _) = _
  rw [htext, hread, heading, htable]
  rfl

end Select

end Quarry
