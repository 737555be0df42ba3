import Mathlib.Data.List.Dedup
import Mathlib.Data.List.Pairwise
import Quarry.Proofs.Repository.Nested
import Quarry.Proofs.Repository.Regrouping
import Quarry.Proofs.Row.Small

/-!
# Columns of relations without keys

A relation without declared keys brings all columns of its table under their own names. Which
columns of a row these are is not said anywhere: a mapper takes all that no table claims
(`Mapper.relatedObject?_of_keyless`). With one relation these are the columns of its table. With
two, each gets the columns of both.

`Mapper.KeepsApart` says that each relation has an object of its own columns and no others, in all
rows that join the main table with the tables of the relations. It holds exactly if no second table
has columns, and no column looks like an alias (`Mapper.keepsApart_iff`).
-/

set_option autoImplicit false

namespace Quarry

open Text.Name (toCamel toSnake)

/-! ## Objects of own columns -/

namespace Related

/-- A column as a field of a relation's objects. -/
def field (r : Related) (f : String × Value) : Except Error (String × Value) :=
  (r.codec.decode (toSnake f.1) f.2).map fun w => (toCamel f.1, w)

/-- The object that has columns as fields, nothing if all its values are NULL. -/
def whole? (r : Related) (own : Record) : Except Error (Option Record) :=
  (own.mapM r.field).map fun object => if object.all fun f => f.2.isNull then none else some object

end Related

namespace Mapper

section Collecting

variable {m : Mapper} {fields : Record} {column : String}

/-- A relation has a column without a dot for its own unless it is claimed. -/
theorem ownName?_of_plain (m : Mapper) (r : Related) (hdot : '.' ∉ column.toList) :
    m.ownName? r column = if m.isClaimed column then none else some column := by
  have howner : ¬(r.relation.table.display ++ ".").toList.isPrefixOf column.toList = true := by
    intro hprefix
    apply hdot
    refine (List.isPrefixOf_iff_prefix.mp hprefix).subset ?_
    simp
  unfold ownName?
  dsimp only
  rw [if_neg howner]

/-- Columns that no table claims are collected one after the other. -/
theorem collect_eq_mapM (r : Related) (object : Record) (hdots : ∀ f ∈ fields, '.' ∉ f.1.toList)
    (hnames : (Record.names object ++
      (fields.filter fun f => !m.isClaimed f.1).map fun f => toCamel f.1).Nodup) :
    m.collect r object fields =
      ((fields.filter fun f => !m.isClaimed f.1).mapM r.field).map (object ++ ·) := by
  induction fields generalizing object with
  | nil => simp [collect, Except.map, pure, Except.pure]
  | cons f fields ih =>
    obtain ⟨hf, hdots⟩ := List.forall_mem_cons.mp hdots
    rw [collect, ownName?_of_plain m r hf]
    by_cases hclaimed : m.isClaimed f.1 = true
    · rw [if_pos hclaimed, List.filter_cons_of_neg (by simp [hclaimed])] at *
      exact ih object hdots hnames
    · rw [if_neg hclaimed]
      dsimp only
      rw [List.filter_cons_of_pos (by simp [hclaimed]), List.map_cons] at hnames
      rw [List.filter_cons_of_pos (by simp [hclaimed]), List.mapM_cons, Related.field]
      have hnew : toCamel f.1 ∉ Record.names object := fun hmem =>
        (List.nodup_append.mp hnames).2.2 _ hmem _ List.mem_cons_self rfl
      cases r.codec.decode (toSnake f.1) f.2 with
      | error e => rfl
      | ok w =>
        have hset : object.set (toCamel f.1) w = object ++ [(toCamel f.1, w)] := by
          simpa [Record.set] using Record.set_append hnew w []
        have hrest := ih (object ++ [(toCamel f.1, w)]) hdots (by simpa [Record.names] using hnames)
        show m.collect r (object.set (toCamel f.1) w) fields = _
        rw [hset, hrest]
        cases (fields.filter fun f => !m.isClaimed f.1).mapM r.field with
        | error e => rfl
        | ok rest => simp [Except.map, bind, Except.bind, pure, Except.pure]

end Collecting

/-! ## Joined rows -/

section Unions

variable {m : Mapper} {r : Related} {columns : Related → List String} {row : Record} {name : String}

/-- Whether a name is a column of the main table or of a relation's table. -/
def Joins (m : Mapper) (columns : Related → List String) (name : String) : Prop :=
  name ∈ m.codec.columnNames ∨ ∃ r ∈ m.related, name ∈ columns r

/-- Whether a row has the columns of the main table and of the tables of the relations. -/
structure IsUnion (m : Mapper) (columns : Related → List String) (row : Record) : Prop where
  names : (Record.names row).Nodup
  tables : ∀ name, name ∈ Record.names row ↔ m.Joins columns name

/-- Whether the object of each relation is always that of the columns of its own table. -/
def KeepsApart (m : Mapper) (columns : Related → List String) : Prop :=
  ∀ row, m.IsUnion columns row → ∀ r ∈ m.related,
    m.relatedObject? (.record row) r = r.whole? (row.filter fun f => (columns r).contains f.1)

/-- Whether the columns of the tables have plain names, all different, also as keys. -/
structure ArePlain (m : Mapper) (columns : Related → List String) : Prop where
  dots : ∀ name, m.Joins columns name → '.' ∉ name.toList
  keys : ((m.related.flatMap columns).map toCamel).Nodup
  main : ∀ r ∈ m.related, ∀ column ∈ columns r, column ∉ m.codec.columnNames

/-- A name without a dot is claimed exactly by the main table or as an alias. -/
theorem isClaimed_iff (hdot : '.' ∉ name.toList) :
    m.isClaimed name = true ↔ name ∈ m.codec.columnNames ∨ m.isAlias name = true := by
  simp [isClaimed, isOwn_iff, hdot]

/-- A relation without keys has the object of all columns that no table claims. -/
theorem relatedObject?_of_keyless (hplain : m.ArePlain columns) (hkeyless : r.relation.declaredKeys = [])
    (hrow : m.IsUnion columns row) :
    m.relatedObject? (.record row) r = r.whole? (row.filter fun f => !m.isClaimed f.1) := by
  have hdots : ∀ f ∈ row, '.' ∉ f.1.toList := fun f hf =>
    hplain.dots f.1 ((hrow.tables f.1).mp (List.mem_map_of_mem hf))
  have hrelated : ∀ f ∈ row.filter (fun f => !m.isClaimed f.1), f.1 ∈ m.related.flatMap columns := by
    intro f hf
    obtain ⟨hf, hfree⟩ := List.mem_filter.mp hf
    obtain hown | ⟨q, hq, hcolumn⟩ := (hrow.tables f.1).mp (List.mem_map_of_mem hf)
    · simp [isClaimed_of_mem_columnNames hown] at hfree
    · exact List.mem_flatMap.mpr ⟨q, hq, hcolumn⟩
  have hkeys : ((row.filter fun f => !m.isClaimed f.1).map fun f => toCamel f.1).Nodup := by
    have hnames : ((row.filter fun f => !m.isClaimed f.1).map (·.1)).Nodup :=
      hrow.names.sublist (List.filter_sublist.map _)
    have hmap := hnames.map_on (f := toCamel) fun a ha b hb heq => ?_
    · simpa [List.map_map, Function.comp_def] using hmap
    · obtain ⟨f, hf, rfl⟩ := List.mem_map.mp ha
      obtain ⟨g, hg, rfl⟩ := List.mem_map.mp hb
      exact List.inj_on_of_nodup_map hplain.keys (hrelated f hf) (hrelated g hg) heq
  have hcollect := collect_eq_mapM r [] hdots hkeys
  rw [relatedObject?, relatedFields, hkeyless, List.isEmpty_nil, if_pos rfl]
  show ((m.collect r [] row).map _ : Except Error _) = _
  rw [hcollect, Related.whole?]
  cases (row.filter fun f => !m.isClaimed f.1).mapM r.field <;> rfl

/-! ## Rows with one value -/

/-- The joined row that has a one in a column and NULL in all others. -/
def probe (m : Mapper) (columns : Related → List String) (name : String) : Record :=
  (m.codec.columnNames ++ m.related.flatMap columns).dedup.map fun n =>
    (n, if n = name then .int 1 else .null)

/-- The names of a probe are those of the main table and of all relations. -/
theorem names_probe (m : Mapper) (columns : Related → List String) (name : String) :
    Record.names (m.probe columns name) = (m.codec.columnNames ++ m.related.flatMap columns).dedup := by
  simp [probe, Record.names, Function.comp_def]

/-- A probe is a union of all columns. -/
theorem isUnion_probe (m : Mapper) (columns : Related → List String) (name : String) :
    m.IsUnion columns (m.probe columns name) := by
  refine ⟨?_, fun other => ?_⟩
  · rw [names_probe]
    exact List.nodup_dedup _
  · rw [names_probe, List.mem_dedup, List.mem_append, List.mem_flatMap]
    rfl

/-- The fields of some of the columns of a row with one value are NULL if the value is not among
them. -/
theorem all_isNull_probe_iff {p : String → Bool} {object : Record} (hname : m.Joins columns name)
    (hobject : ((m.probe columns name).filter fun f => p f.1).mapM r.field = .ok object) :
    (object.all fun f => f.2.isNull) = true ↔ p name = false := by
  constructor
  · intro hall
    by_contra hp
    have hp : p name = true := by simpa using hp
    obtain ⟨one, hone, hgiven, -⟩ := r.codec.exists_decode_one (toSnake name) (v := .int 1) (.inl rfl)
    have hmem : (name, Value.int 1) ∈ (m.probe columns name).filter fun f => p f.1 := by
      refine List.mem_filter.mpr ⟨List.mem_map.mpr ⟨name, ?_, by rw [if_pos rfl]⟩, hp⟩
      rw [← names_probe m columns name]
      exact ((isUnion_probe m columns name).tables name).mpr hname
    have hfield : (toCamel name, one) ∈ object :=
      (mem_iff_of_mapM_eq_ok hobject).mpr ⟨_, hmem, map_eq_ok.mpr ⟨one, hone, rfl⟩⟩
    exact Bool.false_ne_true ((Value.isNull_eq_false_iff.mpr hgiven).symm.trans
      (List.all_eq_true.mp hall _ hfield))
  · intro hp
    refine List.all_eq_true.mpr fun g hg => ?_
    obtain ⟨f, hf, hfield⟩ := (mem_iff_of_mapM_eq_ok hobject).mp hg
    obtain ⟨hf, hpf⟩ := List.mem_filter.mp hf
    obtain ⟨n, -, rfl⟩ := List.mem_map.mp hf
    have hne : n ≠ name := by
      rintro rfl
      exact Bool.false_ne_true (hp.symm.trans hpf)
    obtain ⟨w, hw, rfl⟩ := map_eq_ok.mp hfield
    rw [if_neg hne, Codec.decode_null] at hw
    rw [← Except.ok.inj hw]
    rfl

/-- Some of the columns of a row with one value have an object if the value is among them. -/
theorem exists_whole?_probe (r : Related) (hname : m.Joins columns name) (p : String → Bool) :
    ∃ child, r.whole? ((m.probe columns name).filter fun f => p f.1) = .ok child ∧
      (child.isSome = true ↔ p name = true) := by
  have hfields : ∀ f ∈ (m.probe columns name).filter fun f => p f.1, ∃ g, r.field f = .ok g := by
    intro f hf
    obtain ⟨n, -, rfl⟩ := List.mem_map.mp (List.mem_filter.mp hf).1
    have hsmall : (if n = name then Value.int 1 else .null).IsSmall := by
      split_ifs
      · exact .inr (.inl rfl)
      · exact .inl rfl
    obtain ⟨w, hw⟩ := r.codec.exists_decode_small (toSnake n) hsmall
    exact ⟨(toCamel n, w), map_eq_ok.mpr ⟨w, hw, rfl⟩⟩
  obtain ⟨object, hobject⟩ := exists_mapM_eq_ok hfields
  refine ⟨_, map_eq_ok.mpr ⟨object, hobject, rfl⟩, ?_⟩
  have hnull := all_isNull_probe_iff hname hobject
  cases hp : p name with
  | true =>
    have hsome : ¬(object.all fun f => f.2.isNull) = true := by simp [hnull, hp]
    rw [if_neg hsome]
    simp
  | false =>
    rw [if_pos (hnull.mpr hp)]
    simp

end Unions

/-! ## Relations kept apart -/

section Apart

variable {m : Mapper} {r q : Related} {columns : Related → List String} {name : String}

/-- Objects of own columns are right if what no table claims are the relation's columns. -/
theorem keepsApart_of_claims (hplain : m.ArePlain columns)
    (hkeyless : ∀ r ∈ m.related, r.relation.declaredKeys = [])
    (h : ∀ r ∈ m.related, ∀ name, m.Joins columns name → (!m.isClaimed name) = (columns r).contains name) :
    m.KeepsApart columns := by
  intro row hrow r hr
  rw [relatedObject?_of_keyless hplain (hkeyless r hr) hrow]
  congr 1
  refine List.filter_congr fun f hf => ?_
  exact h r hr f.1 ((hrow.tables f.1).mp (List.mem_map_of_mem hf))

/-- If objects of own columns are right, then what no table claims are the relation's columns. -/
theorem claims_of_keepsApart (hplain : m.ArePlain columns)
    (hkeyless : ∀ r ∈ m.related, r.relation.declaredKeys = []) (h : m.KeepsApart columns) (hr : r ∈ m.related)
    (hname : m.Joins columns name) : (!m.isClaimed name) = (columns r).contains name := by
  have hrow := isUnion_probe m columns name
  have hsame := h _ hrow r hr
  rw [relatedObject?_of_keyless hplain (hkeyless r hr) hrow] at hsame
  obtain ⟨child, hchild, hsome⟩ := exists_whole?_probe r hname fun name => !m.isClaimed name
  obtain ⟨own, hown, hsome'⟩ := exists_whole?_probe r hname fun name => (columns r).contains name
  rw [hchild, hown] at hsame
  rw [Bool.eq_iff_iff, ← hsome, ← hsome', Except.ok.inj hsame]

/-- Relations without keys are kept apart exactly if there are columns of one relation's table only
and none of them looks like an alias. -/
theorem keepsApart_iff (hkeyless : ∀ r ∈ m.related, r.relation.declaredKeys = [])
    (hplain : m.ArePlain columns) :
    m.KeepsApart columns ↔
      (∀ r ∈ m.related, ∀ q ∈ m.related, columns q ≠ [] → q = r) ∧
        ∀ r ∈ m.related, ∀ column ∈ columns r, m.isAlias column = false := by
  constructor
  · intro h
    have hfree {q : Related} (hq : q ∈ m.related) {column : String} (hcolumn : column ∈ columns q) :
        m.isClaimed column = false := by
      have hclaims := claims_of_keepsApart hplain hkeyless h hq (.inr ⟨q, hq, hcolumn⟩)
      simpa [hcolumn] using hclaims
    refine ⟨fun r hr q hq hsome => ?_, fun r hr column hcolumn => ?_⟩
    · obtain ⟨column, hcolumn⟩ := List.exists_mem_of_ne_nil _ hsome
      -- No table claims the column, so that both relations have it.
      have hclaims := claims_of_keepsApart hplain hkeyless h hr (.inr ⟨q, hq, hcolumn⟩)
      have hother : column ∈ columns r := by simpa [hfree hq hcolumn] using hclaims
      by_contra hne
      have hsymm : Std.Symm (Function.onFun List.Disjoint columns) := ⟨fun _ _ hdisjoint => hdisjoint.symm⟩
      have hapart := (List.nodup_flatMap.mp hplain.keys.of_map).2
      exact hapart.forall hq hr hne hcolumn hother
    · have hclaimed := hfree hr hcolumn
      simp only [isClaimed, Bool.or_eq_false_iff] at hclaimed
      exact hclaimed.1.2
  · rintro ⟨hone, halias⟩
    refine keepsApart_of_claims hplain hkeyless fun r hr name hname => ?_
    have hdot := hplain.dots name hname
    obtain hown | ⟨q, hq, hcolumn⟩ := hname
    · have hother : name ∉ columns r := fun hmem => hplain.main r hr name hmem hown
      simp [isClaimed_of_mem_columnNames hown, hother]
    · obtain rfl := hone r hr q hq (List.ne_nil_of_mem hcolumn)
      have hclaimed : m.isClaimed name = false := by
        rw [← Bool.not_eq_true, isClaimed_iff hdot, not_or]
        exact ⟨hplain.main q hq name hcolumn, by simp [halias q hq name hcolumn]⟩
      simp [hclaimed, hcolumn]

/-- Authors of books. -/
def authorOfBook : Related :=
  ⟨"author", ⟨.text "author", .text "authorId", .text "id", .belongsTo, none, none⟩, ⟨[], [], [], true, true⟩⟩

/-- Publishers of books. -/
def publisherOfBook : Related :=
  ⟨"publisher", ⟨.text "publisher", .text "publisherId", .text "id", .belongsTo, none, none⟩,
    ⟨[], [], [], true, true⟩⟩

/-- The mapper of books with some relations. -/
def bookMapper (related : List Related) : Mapper := ⟨⟨["id"], [], [], true, true⟩, false, related⟩

/-- Authors have names, publishers are in cities. -/
def bookColumns (r : Related) : List String := if r.name = "author" then ["name"] else ["city"]

/-- The columns of a book and its author are kept apart. -/
theorem keepsApart_iff_author :
    make ⟨["id"], [], [], true, true⟩ [] [("author", authorOfBook.relation)] =
        .ok (bookMapper [authorOfBook]) ∧
      (bookMapper [authorOfBook]).KeepsApart bookColumns := by
  have hplain : (bookMapper [authorOfBook]).ArePlain bookColumns := by
    refine ⟨?_, by decide +kernel, by decide⟩
    rintro name (hname | ⟨r, hr, hname⟩)
    · obtain rfl := List.mem_singleton.mp hname
      decide
    · obtain rfl := List.mem_singleton.mp hr
      obtain rfl := List.mem_singleton.mp hname
      decide
  have hkeyless : ∀ r ∈ (bookMapper [authorOfBook]).related, r.relation.declaredKeys = [] :=
    List.forall_mem_singleton.mpr rfl
  have hone : ∀ r ∈ (bookMapper [authorOfBook]).related, ∀ q ∈ (bookMapper [authorOfBook]).related,
      bookColumns q ≠ [] → q = r :=
    List.forall_mem_singleton.mpr (List.forall_mem_singleton.mpr fun _ => rfl)
  exact ⟨rfl, (keepsApart_iff hkeyless hplain).mpr ⟨hone, by decide⟩⟩

/-- A book of which the author has a city and the publisher a name. -/
theorem books_not_apart :
    let m := bookMapper [authorOfBook, publisherOfBook]
    let row : Record := [("id", .int 1), ("name", .text "A"), ("city", .text "P")]
    make ⟨["id"], [], [], true, true⟩ [] [("author", authorOfBook.relation),
        ("publisher", publisherOfBook.relation)] = .ok m ∧
      m.IsUnion bookColumns row ∧
      m.objects [.record row] =
        .ok [[("id", .int 1), ("author", .record [("name", .text "A"), ("city", .text "P")]),
          ("publisher", .record [("name", .text "A"), ("city", .text "P")])]] ∧
      authorOfBook.whole? (row.filter fun f => (bookColumns authorOfBook).contains f.1) =
        .ok (some [("name", .text "A")]) ∧
      ¬m.KeepsApart bookColumns := by
  intro m row
  have hrow : m.IsUnion bookColumns row := by
    have hid : toSnake "id" = "id" := by decide
    refine ⟨by decide, fun name => ?_⟩
    simp [row, m, Record.names, Joins, bookMapper, bookColumns, authorOfBook, publisherOfBook,
      Codec.columnNames, hid]
  refine ⟨rfl, hrow, rfl, rfl, fun h => ?_⟩
  have hread : m.relatedObject? (.record row) authorOfBook =
      .ok (some [("name", .text "A"), ("city", .text "P")]) := rfl
  have hown : authorOfBook.whole? (row.filter fun f => (bookColumns authorOfBook).contains f.1) =
      .ok (some [("name", .text "A")]) := rfl
  have hsame := h row hrow authorOfBook List.mem_cons_self
  rw [hread, hown] at hsame
  simp at hsame

end Apart

end Mapper

end Quarry
