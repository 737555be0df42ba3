import Mathlib.Data.List.Dedup
import Mathlib.Data.Set.Finite.Basic
import Quarry.Proofs.Json.RoundTrip
import Quarry.Proofs.Repository.Grouping
import Quarry.Proofs.Repository.Surviving

/-!
# Rows of one parent

Rows belong to one parent if their main objects have one text. With chosen columns a main object
also takes in what stands in the row and no table claims (`Mapper.mainObject`), so that computed
columns come through. The columns of a relation with declared keys have aliases and are claimed.
Those of a relation without keys are not: they end up in the main objects, whose texts then differ
from child to child.

So rows that agree in the chosen columns are always merged (`Mapper.Merges`) exactly if the relation
declares keys. Where it declares none, two rows that are NULL but for one column of the relation are
told apart: a text determines the fields of an object of small values.
-/

set_option autoImplicit false

namespace Quarry

open Reading (assembled leaders regrouped)
open Text.Name (toSnake)

/-! ## Texts of small objects -/

/-- Fields are made comparable one by one. -/
theorem Value.fieldsToComparable_eq_map (fields : List (String × Value)) :
    fieldsToComparable fields = fields.map fun f => (f.1, f.2.toComparable) := by
  induction fields with
  | nil => simp [fieldsToComparable]
  | cons f rest ih => simp [fieldsToComparable, ih]

/-- Fields are sorted one by one. -/
theorem Json.sortedFields_eq_map (fields : List (String × Json String)) :
    sortedFields fields = fields.map fun f => (f.1, f.2.sorted) := by
  induction fields with
  | nil => simp [sortedFields]
  | cons f rest ih => simp [sortedFields, ih]

/-- A small value is plain wherever it stands. -/
theorem Value.IsSmall.plain {v : Value} (h : v.IsSmall) (room : Nat) :
    Json.Plain room v.toComparable.sorted := by
  obtain rfl | rfl | rfl := h
  · simpa [Value.toComparable, Json.sorted] using Json.Plain.null
  · simpa [Value.toComparable, Json.sorted] using Json.Plain.int (n := 1) (by decide)
  · simpa [Value.toComparable, Json.sorted] using Json.Plain.bool true

/-- The fields of an object in the order of their names, as they are compared. -/
def comparedFields (object : Record) : List (String × Json String) :=
  (object.map fun f => (f.1, f.2.toComparable.sorted)).mergeSort fun f g => decide (f.1 ≤ g.1)

/-- A group key is the text of the compared fields. -/
theorem groupKey_eq_print (object : Record) :
    Mapper.groupKey object = (Json.object (comparedFields object)).print := by
  rw [Mapper.groupKey, Value.toComparable, Json.sorted, Value.fieldsToComparable_eq_map,
    Json.sortedFields_eq_map, List.map_map]
  rfl

/-- The compared fields are those of the object in another order. -/
theorem perm_comparedFields (object : Record) :
    (comparedFields object).Perm (object.map fun f => (f.1, f.2.toComparable.sorted)) :=
  List.mergeSort_perm _ _

/-- The compared fields of an object with plain values are plain. -/
theorem plain_comparedFields {a : Record} (hnames : (Record.names a).Nodup)
    (hplain : ∀ f ∈ a, ∀ room, Json.Plain room f.2.toComparable.sorted) :
    Json.Plain 1 (.object (comparedFields a)) := by
  refine .object ?_ fun f hf => ?_
  · rw [((perm_comparedFields a).map _).nodup_iff, List.map_map]
    exact hnames
  · obtain ⟨g, hg, rfl⟩ := List.mem_map.mp ((perm_comparedFields a).subset hf)
    exact hplain g hg _

/-- Objects of plain values with one text have the same fields, as these are compared. -/
theorem exists_of_groupKey_eq {a b : Record} (hnames : (Record.names a).Nodup)
    (hplain : ∀ f ∈ a, ∀ room, Json.Plain room f.2.toComparable.sorted) (hnames' : (Record.names b).Nodup)
    (hplain' : ∀ f ∈ b, ∀ room, Json.Plain room f.2.toComparable.sorted)
    (h : Mapper.groupKey a = Mapper.groupKey b) :
    ∀ f ∈ a, ∃ g ∈ b, g.1 = f.1 ∧ g.2.toComparable.sorted = f.2.toComparable.sorted := by
  rw [groupKey_eq_print, groupKey_eq_print] at h
  have hobjects := Json.print_injective (plain_comparedFields hnames hplain)
    (plain_comparedFields hnames' hplain') h
  have hfields : comparedFields b = comparedFields a := (Json.object.inj hobjects).symm
  intro f hf
  have hmem : (f.1, f.2.toComparable.sorted) ∈ comparedFields a :=
    (perm_comparedFields a).mem_iff.mpr (List.mem_map_of_mem hf)
  rw [← hfields, (perm_comparedFields b).mem_iff] at hmem
  obtain ⟨g, hg, heq⟩ := List.mem_map.mp hmem
  exact ⟨g, hg, Prod.mk.inj heq⟩

namespace Mapper

/-! ## Rows that are merged -/

section Together

variable {m : Mapper} {r : Related} {rows : List Value} {row row' : Value} {results : List Record}
  {parents grown : List (String × Record)}

/-- Whether two rows have parts in one object: their main objects have the text of its main object,
and in the list of a relation the object has the rows' children or equals of them. -/
def Together (m : Mapper) (objects : List Record) (row row' : Value) : Prop :=
  ∃ (main : Record) (place : Related → Value), Reading.overlay place m.related main ∈ objects ∧
    ∀ w ∈ [row, row'], ∃ x : Reading, m.Finds w x ∧ x.key = groupKey main ∧
      ∀ r ∈ m.related, r.relation.kind = .hasMany → ∃ kids : List Record,
        place r = .list (kids.map .record) ∧ ∀ child, x.child r = some child →
          child ∈ kids ∨ ∃ kid ∈ kids, Value.same (.record kid) (.record child) = true

/-- Where all children are placed, each relation has one to place or none. -/
theorem exists_relatedObject? {related : List Related} {parent changed : Record}
    (h : m.placeChildren row parent related = .ok changed) :
    ∀ r ∈ related, ∃ child, m.relatedObject? row r = .ok child := by
  induction related generalizing parent with
  | nil => exact nofun
  | cons r related ih =>
    obtain ⟨child, hchild, hrest⟩ := bind_eq_ok.mp h
    refine List.forall_mem_cons.mpr ⟨⟨child, hchild⟩, ?_⟩
    cases child with
    | none => exact ih hrest
    | some child =>
      obtain ⟨placed, -, hrest⟩ := bind_eq_ok.mp hrest
      exact ih hrest

/-- Where an object was changed, something changed it. -/
theorem exists_change_of_alter {key : String} {fresh : Record} {change : Record → Except Error Record}
    (h : alter key fresh change parents = .ok grown) : ∃ parent changed, change parent = .ok changed := by
  induction parents generalizing grown with
  | nil =>
    obtain ⟨changed, hchanged, -⟩ := functor_map_eq_ok.mp h
    exact ⟨fresh, changed, hchanged⟩
  | cons entry parents ih =>
    rw [alter] at h
    split_ifs at h
    · obtain ⟨changed, hchanged, -⟩ := bind_eq_ok.mp h
      exact ⟨entry.2, changed, hchanged⟩
    · obtain ⟨rest, hrest, -⟩ := bind_eq_ok.mp h
      exact ih hrest

/-- A row whose main object and children are found is a reading. -/
theorem exists_reading {main : Record} (hmain : m.mainObject row = .ok main)
    (hchildren : ∀ r ∈ m.related, ∃ child, m.relatedObject? row r = .ok child) : ∃ x, m.Finds row x := by
  refine ⟨⟨main, fun r => ((m.relatedObject? row r).toOption).join⟩, hmain, fun r hr => ?_⟩
  obtain ⟨child, hchild⟩ := hchildren r hr
  simp [hchild, Except.toOption]

/-- What has been grouped has been read. -/
theorem exists_readings (h : m.group parents rows = .ok grown) :
    ∃ readings, List.Forall₂ m.Finds rows readings := by
  induction rows generalizing parents with
  | nil => exact ⟨[], .nil⟩
  | cons row rows ih =>
    obtain ⟨main, hmain, h⟩ := bind_eq_ok.mp h
    obtain ⟨next, hnext, hrest⟩ := bind_eq_ok.mp h
    obtain ⟨parent, changed, hchanged⟩ := exists_change_of_alter hnext
    obtain ⟨x, hx⟩ := exists_reading hmain (exists_relatedObject? hchanged)
    obtain ⟨readings, hreadings⟩ := ih hrest
    exact ⟨x :: readings, .cons hx hreadings⟩

/-- Rows with one main object are merged. -/
theorem together_of_mainObject_eq (hnames : (m.related.map (·.name)).Nodup) (hmany : m.hasChildren = true)
    (h : m.objects rows = .ok results) (hrow : row ∈ rows) (hrow' : row' ∈ rows)
    (hsame : m.mainObject row = m.mainObject row') : m.Together results row row' := by
  have hgroup := h
  rw [objects, if_pos hmany] at hgroup
  obtain ⟨grown, hgrown, -⟩ := bind_eq_ok.mp hgroup
  obtain ⟨readings, hfinds⟩ := exists_readings hgrown
  obtain rfl := (objects_gives hnames hmany hfinds).eq_of_ok h
  obtain ⟨x, hx, hfind⟩ := exists_of_forall₂ hfinds row hrow
  obtain ⟨first, hfirst, hkey⟩ := List.mem_map.mp (Reading.mem_keys_leaders_iff.mpr ⟨x, hx, rfl⟩)
  refine ⟨first.main, (Reading.gathered · (first.fellows readings)), List.mem_map_of_mem hfirst, ?_⟩
  have hpart (w : Value) (hw : w ∈ rows) (hmain : m.mainObject w = m.mainObject row) :
      ∃ y : Reading, m.Finds w y ∧ y.key = groupKey first.main ∧
        ∀ r ∈ m.related, r.relation.kind = .hasMany → ∃ kids : List Record,
          Reading.gathered r (first.fellows readings) = .list (kids.map .record) ∧
            ∀ child, y.child r = some child →
              child ∈ kids ∨ ∃ kid ∈ kids, Value.same (.record kid) (.record child) = true := by
    obtain ⟨y, hy, hfind'⟩ := exists_of_forall₂ hfinds w hw
    have hyx : y.key = x.key := by
      rw [Reading.key, Reading.key, Except.ok.inj (hfind'.1.symm.trans (hmain.trans hfind.1))]
    refine ⟨y, hfind', hyx.trans hkey.symm, fun r _ hkind => ?_⟩
    rw [Reading.gathered, if_pos hkind]
    refine ⟨_, rfl, fun child hchild => exists_firstsBy Reading.same_trans _ child ?_⟩
    refine List.mem_filterMap.mpr ⟨y, List.mem_filter.mpr ⟨hy, ?_⟩, hchild⟩
    simpa using hyx.trans hkey.symm
  refine List.forall_mem_cons.mpr ⟨hpart row hrow rfl, List.forall_mem_singleton.mpr ?_⟩
  exact hpart row' hrow' hsame.symm

/-- The main objects of rows that were merged have one group key. -/
theorem groupKey_eq_of_together {main main' : Record} (h : m.Together results row row')
    (hmain : m.mainObject row = .ok main) (hmain' : m.mainObject row' = .ok main') :
    groupKey main = groupKey main' := by
  obtain ⟨shared, place, -, hparts⟩ := h
  obtain ⟨⟨x, hx, hkey, -⟩, hrest⟩ := List.forall_mem_cons.mp hparts
  obtain ⟨⟨y, hy, hkey', -⟩, -⟩ := List.forall_mem_cons.mp hrest
  rw [← Except.ok.inj (hx.1.symm.trans hmain), ← Except.ok.inj (hy.1.symm.trans hmain')]
  exact hkey.trans hkey'.symm

end Together

/-! ## Chosen columns -/

section Chosen

variable {m : Mapper} {r : Related} {keys : List String} {row row' : Record}

/-- Whether a row is what a select of keys gives: it has their columns, and its other columns are
none of the main table and have an alias if the relation's keys are declared. -/
structure IsChosen (m : Mapper) (keys : List String) (row : Record) : Prop where
  names : (Record.names row).Nodup
  chosen : ∀ key ∈ keys, toSnake key ∈ Record.names row
  others : ∀ name ∈ Record.names row, name ∈ keys.map toSnake ∨ name ∉ m.codec.columnNames ∧
    ∀ r ∈ m.related, r.relation.declaredKeys ≠ [] → ∃ column, name = r.relation.aliasOf column

/-- Whether rows that agree in the chosen columns are always merged. -/
def Merges (m : Mapper) (keys : List String) : Prop :=
  ∀ rows results : List Record, (∀ row ∈ rows, m.IsChosen keys row) →
    m.objects (rows.map .record) = .ok results → ∀ row ∈ rows, ∀ row' ∈ rows,
      (∀ key ∈ keys, Record.get? (toSnake key) row = Record.get? (toSnake key) row') →
        m.Together results (.record row) (.record row')

/-- The column of a key of the main table is claimed by it. -/
theorem isClaimed_column {key : String} (hkey : key ∈ m.codec.keys) : m.isClaimed (toSnake key) = true :=
  isClaimed_of_mem_columnNames (List.mem_map_of_mem hkey)

/-- With declared keys nothing in a row is passed on, so that the chosen columns give the main
object. -/
theorem mainObject_eq_of_agree (hr : r ∈ m.related) (hdeclared : r.relation.declaredKeys ≠ [])
    (hkeys : ∀ key ∈ keys, key ∈ m.codec.keys) (hrow : m.IsChosen keys row) (hrow' : m.IsChosen keys row')
    (hagree : ∀ key ∈ keys, Record.get? (toSnake key) row = Record.get? (toSnake key) row') :
    m.mainObject (.record row) = m.mainObject (.record row') := by
  have hnothing {row : Record} (hrow : m.IsChosen keys row) :
      row.filter (fun f => !m.isClaimed f.1) = [] := by
    refine List.filter_eq_nil_iff.mpr fun f hf => ?_
    obtain hchosen | ⟨-, haliased⟩ := hrow.others f.1 (List.mem_map_of_mem hf)
    · obtain ⟨key, hkey, hname⟩ := List.mem_map.mp hchosen
      simp [← hname, isClaimed_column (hkeys key hkey)]
    · obtain ⟨column, hname⟩ := haliased r hr hdeclared
      simp [hname, isClaimed_aliasOf hr]
  have habsent {row : Record} (hrow : m.IsChosen keys row) {key : String} (hkey : key ∈ m.codec.keys)
      (hother : toSnake key ∉ keys.map toSnake) : Record.get? (toSnake key) row = none := by
    refine Record.get?_eq_none fun hname => ?_
    exact ((hrow.others _ hname).resolve_left hother).1 (List.mem_map_of_mem hkey)
  have hobject : m.codec.toObject (.record row) "" = m.codec.toObject (.record row') "" := by
    refine Codec.decodeKeys_congr fun key hkey => ?_
    rw [String.empty_append, Codec.cell, Codec.cell]
    by_cases hchosen : toSnake key ∈ keys.map toSnake
    · obtain ⟨chosen, hmem, hcolumn⟩ := List.mem_map.mp hchosen
      rw [← hcolumn, hagree chosen hmem]
    · rw [habsent hrow hkey hchosen, habsent hrow' hkey hchosen]
  unfold mainObject
  rw [hobject]
  simp [rowFields, hnothing hrow, hnothing hrow', bind, Except.bind]

/-- With declared keys, rows that agree in the chosen columns are merged. -/
theorem merges_of_declared (hnames : (m.related.map (·.name)).Nodup) (hmany : m.hasChildren = true)
    (hr : r ∈ m.related) (hdeclared : r.relation.declaredKeys ≠ [])
    (hkeys : ∀ key ∈ keys, key ∈ m.codec.keys) : m.Merges keys := by
  intro rows results hrows h row hrow row' hrow' hagree
  refine together_of_mainObject_eq hnames hmany h (List.mem_map_of_mem hrow) (List.mem_map_of_mem hrow') ?_
  exact mainObject_eq_of_agree hr hdeclared hkeys (hrows row hrow) (hrows row' hrow') hagree

end Chosen

/-! ## Columns that no table claims -/

section Unclaimed

variable {m : Mapper} {r : Related} {keys : List String} {name : String}

/-- There is a column that no table claims, with a name of its own. -/
theorem exists_unclaimed (m : Mapper) (names : List String) : ∃ name ∉ names, m.isClaimed name = false := by
  have hinjective : Function.Injective fun n : Nat => String.ofList (List.replicate n 'x') := by
    intro n k h
    simpa using congrArg List.length (String.ofList_injective h)
  obtain ⟨name, ⟨n, rfl⟩, hnew⟩ :=
    (Set.infinite_range_of_injective hinjective).exists_notMem_finset (names ++ m.codec.columnNames).toFinset
  rw [List.mem_toFinset, List.mem_append, not_or] at hnew
  refine ⟨_, hnew.1, ?_⟩
  have hletters : ∀ letter ∈ (String.ofList (List.replicate n 'x')).toList, letter = 'x' := by
    intro letter hletter
    exact List.eq_of_mem_replicate (String.toList_ofList ▸ hletter)
  have halias : m.isAlias (String.ofList (List.replicate n 'x')) = false := by
    refine List.any_eq_false.mpr fun r _ hprefix => ?_
    -- Aliases have an underscore behind the name of their table.
    have hunderscore : '_' ∈ r.relation.aliasStart.toList := by simp [Sql.Relation.aliasStart]
    exact absurd (hletters '_' ((List.isPrefixOf_iff_prefix.mp hprefix).subset hunderscore)) (by decide)
  have hown : m.isOwn (String.ofList (List.replicate n 'x')) = false := by
    simpa only [Bool.eq_false_iff, ne_eq, isOwn_iff] using hnew.2
  simp [isClaimed, halias, hown]

/-- A row that has NULL in the chosen columns. -/
def blank (keys : List String) : Record := (keys.map toSnake).dedup.map fun column => (column, .null)

/-- The names of a blank row are the chosen columns. -/
theorem names_blank (keys : List String) : Record.names (blank keys) = (keys.map toSnake).dedup := by
  simp [blank, Record.names, Function.comp_def]

/-- A blank row with one small value besides has small values. -/
theorem isSmall_blank {v : Value} (hv : v.IsSmall) : ∀ f ∈ blank keys ++ [(name, v)], f.2.IsSmall := by
  intro f hf
  obtain hf | hf := List.mem_append.mp hf
  · obtain ⟨column, -, rfl⟩ := List.mem_map.mp hf
    exact .inl rfl
  · obtain rfl := List.mem_singleton.mp hf
    exact hv

/-- The main object of a blank row takes in a column that no table claims. -/
theorem exists_mainObject_blank (hpass : m.passOn = true) (hnodup : m.codec.keys.Nodup)
    (hkeys : ∀ key ∈ keys, key ∈ m.codec.keys) (hname : m.isClaimed name = false)
    (hnew : name ∉ m.codec.keys) :
    ∃ base : Record, (Record.names base ++ [name]).Nodup ∧ (∀ f ∈ base, f.2 = .null) ∧
      ∀ v, m.mainObject (.record (blank keys ++ [(name, v)])) = .ok (base ++ [(name, v)]) := by
  have hblank : ∀ f ∈ blank keys, f.2.IsSmall := by
    intro f hf
    obtain ⟨column, -, rfl⟩ := List.mem_map.mp hf
    exact .inl rfl
  obtain ⟨base, hbase⟩ := m.codec.exists_decodeKeys_small "" m.codec.keys hblank
  have hsublist := Codec.names_of_decodeKeys hbase
  have hfresh : name ∉ Record.names base := fun hmem => hnew (hsublist.subset hmem)
  refine ⟨base, ?_, fun f hf => ?_, fun v => ?_⟩
  · exact List.nodup_append.mpr ⟨hnodup.sublist hsublist, List.nodup_singleton name,
      fun a ha b hb hab => hfresh (List.mem_singleton.mp hb ▸ hab ▸ ha)⟩
  · obtain ⟨v, hv, hdecoded⟩ := Codec.decoded_of_mem hbase hf
    obtain ⟨column, -, hcolumn⟩ := List.mem_map.mp hv
    rw [← (Prod.mk.inj hcolumn).2, Codec.decode_null] at hdecoded
    exact (Except.ok.inj hdecoded).symm
  · have hcolumns : ∀ column ∈ m.codec.columnNames, column ∉ Record.names [(name, v)] := by
      intro column hcolumn hmem
      obtain rfl := List.mem_singleton.mp hmem
      exact Bool.false_ne_true (hname.symm.trans (isClaimed_of_mem_columnNames hcolumn))
    have hclaimed : (blank keys).filter (fun f => !m.isClaimed f.1) = [] := by
      refine List.filter_eq_nil_iff.mpr fun f hf => ?_
      obtain ⟨column, hcolumn, rfl⟩ := List.mem_map.mp hf
      obtain ⟨key, hkey, rfl⟩ := List.mem_map.mp (List.mem_dedup.mp hcolumn)
      simp [isClaimed_column (hkeys key hkey)]
    have hextra : (blank keys ++ [(name, v)]).filter (fun f => !m.isClaimed f.1) = [(name, v)] := by
      simp [List.filter_append, hclaimed, hname]
    have hadded : Record.setDefault name v base = base ++ [(name, v)] := by
      simp [Record.setDefault, Record.has, Record.get?_eq_none hfresh]
    rw [mainObject, Codec.toObject_append hcolumns]
    refine bind_eq_ok.mpr ⟨base, hbase, ?_⟩
    rw [if_pos hpass]
    refine bind_eq_ok.mpr ⟨_, rfl, ?_⟩
    dsimp only
    rw [hextra, List.foldl_cons, List.foldl_nil, hadded]
    rfl

/-- A blank row with a value that no table claims is what a select gives where no relation declares
keys. -/
theorem isChosen_blank {v : Value} (hkeys : ∀ key ∈ keys, key ∈ m.codec.keys)
    (hname : m.isClaimed name = false) (hkeyless : ∀ r ∈ m.related, r.relation.declaredKeys = []) :
    m.IsChosen keys (blank keys ++ [(name, v)]) := by
  have hown : name ∉ m.codec.columnNames := fun hmem =>
    Bool.false_ne_true (hname.symm.trans (isClaimed_of_mem_columnNames hmem))
  have hnames : Record.names (blank keys ++ [(name, v)]) = (keys.map toSnake).dedup ++ [name] := by
    rw [Record.names_append, names_blank]
    rfl
  refine ⟨?_, fun key hkey => ?_, fun other hother => ?_⟩
  · rw [hnames]
    refine List.nodup_append.mpr ⟨List.nodup_dedup _, List.nodup_singleton name, fun a ha b hb hab => hown ?_⟩
    obtain ⟨key, hkey, hcolumn⟩ := List.mem_map.mp (List.mem_dedup.mp ha)
    rw [← List.mem_singleton.mp hb, ← hab, ← hcolumn]
    exact List.mem_map_of_mem (hkeys key hkey)
  · rw [hnames]
    exact List.mem_append_left _ (List.mem_dedup.mpr (List.mem_map_of_mem hkey))
  · rw [hnames] at hother
    obtain hother | hother := List.mem_append.mp hother
    · exact .inl (List.mem_dedup.mp hother)
    · refine .inr ⟨List.mem_singleton.mp hother ▸ hown, fun r hr hdeclared => ?_⟩
      exact absurd (hkeyless r hr) hdeclared

/-- Without declared keys, rows with different values in an unclaimed column are not merged. -/
theorem not_merges_of_keyless {c : Codec} {chosen : List Value} {relations : List (String × Sql.Relation)}
    (hmake : make c chosen relations = .ok m) (hmany : m.hasChildren = true) (hpass : m.passOn = true)
    (hnodup : m.codec.keys.Nodup) (hkeys : ∀ key ∈ keys, key ∈ m.codec.keys)
    (hkeyless : ∀ r ∈ m.related, r.relation.declaredKeys = []) : ¬m.Merges keys := by
  obtain ⟨name, hnew, hname⟩ := exists_unclaimed m m.codec.keys
  obtain ⟨base, hfresh, hnull, hmain⟩ := exists_mainObject_blank hpass hnodup hkeys hname hnew
  let row (v : Value) : Record := blank keys ++ [(name, v)]
  have hone : (Value.int 1).IsSmall := .inr (.inl rfl)
  have hzero : Value.null.IsSmall := .inl rfl
  have hchosen (v : Value) : m.IsChosen keys (row v) := isChosen_blank hkeys hname hkeyless
  obtain ⟨x, hx⟩ := exists_reading (hmain .null) fun r _ =>
    exists_relatedObject?_small m r (isSmall_blank hzero)
  obtain ⟨y, hy⟩ := exists_reading (hmain (.int 1)) fun r _ =>
    exists_relatedObject?_small m r (isSmall_blank hone)
  have hsteady : ∀ w ∈ [row .null, row (.int 1)].map Value.record, w.isSteady = true := by
    have hsmall {v : Value} (hv : v.IsSmall) : (Value.record (row v)).isSteady = true := by
      refine Value.isSteady_record_iff.mpr ⟨(hchosen v).names, fun f hf => ?_⟩
      obtain hf | hf | hf := isSmall_blank hv f hf <;> rw [hf] <;> rfl
    exact List.forall_mem_cons.mpr ⟨hsmall hzero, List.forall_mem_cons.mpr ⟨hsmall hone, nofun⟩⟩
  have hfinds : List.Forall₂ m.Finds ([row .null, row (.int 1)].map Value.record) [x, y] :=
    .cons hx (.cons hy .nil)
  have hobjects := (objects_gives (of_make hmake).1 hmany hfinds).eq_ok fun hnot =>
    hnot (areSteady_of_rows hmake hsteady hfinds)
  intro hmerges
  have hagree : ∀ key ∈ keys,
      Record.get? (toSnake key) (row .null) = Record.get? (toSnake key) (row (.int 1)) := by
    intro key hkey
    have hcolumn : toSnake key ∈ Record.names (blank keys) := by
      rw [names_blank]
      exact List.mem_dedup.mpr (List.mem_map_of_mem hkey)
    obtain ⟨v, hv, -⟩ := Record.exists_of_mem_names hcolumn
    rw [Record.get?_append, Record.get?_append, hv]
    rfl
  have htogether := hmerges [row .null, row (.int 1)] _
    (List.forall_mem_cons.mpr ⟨hchosen _, List.forall_mem_cons.mpr ⟨hchosen _, nofun⟩⟩) hobjects
    (row .null) (by simp) (row (.int 1)) (by simp) hagree
  -- The texts of the main objects would be one, and so would their fields.
  have htexts := groupKey_eq_of_together htogether (hmain .null) (hmain (.int 1))
  have hfields {v : Value} (hv : v.IsSmall) :
      ∀ f ∈ base ++ [(name, v)], ∀ room, Json.Plain room f.2.toComparable.sorted := by
    intro f hf
    obtain hf | hf := List.mem_append.mp hf
    · exact Value.IsSmall.plain (.inl (hnull f hf))
    · rw [List.mem_singleton.mp hf]
      exact hv.plain
  have hnames (v : Value) : (Record.names (base ++ [(name, v)])).Nodup := by
    rw [Record.names_append]
    exact hfresh
  obtain ⟨f, hf, hf', hcompared⟩ := exists_of_groupKey_eq (hnames _) (hfields hzero) (hnames _) (hfields hone)
    htexts (name, .null) (List.mem_append_right _ List.mem_cons_self)
  obtain hf | hf := List.mem_append.mp hf
  · exact (List.nodup_append.mp hfresh).2.2 f.1 (List.mem_map_of_mem hf) name List.mem_cons_self hf'
  · rw [List.mem_singleton.mp hf] at hcompared
    simp [Value.toComparable, Json.sorted] at hcompared

end Unclaimed

/-! ## One relation -/

section Single

variable {settings : Settings} {declaration : Declaration} {repository : Repository} {s : Select} {m : Mapper}
  {name : String} {relation : Sql.Relation} {keys : List String}

/-- A mapper with one relation has a codec for it. -/
theorem related_of_make_single {c : Codec} {chosen : List Value}
    (h : make c chosen [(name, relation)] = .ok m) :
    ∃ codec, m = ⟨c, !chosen.isEmpty, [⟨name, relation, codec⟩]⟩ := by
  obtain ⟨related, hrelated, rfl⟩ := functor_map_eq_ok.mp h
  obtain ⟨codec, -, hrest⟩ := bind_eq_ok.mp hrelated
  obtain rfl := Except.ok.inj hrest
  exact ⟨codec, rfl⟩

/-- A select of some keys with a relation that may have many objects merges the rows of each parent
exactly if the relation declares keys; and rows without undefined numbers that can be read have
objects in any case. -/
theorem merges_iff (hrepository : Repository.ofDeclaration settings declaration = .ok repository)
    (hmake : make repository.codec s.columns (s.relations repository) = .ok m)
    (hrelation : s.relations repository = [(name, relation)]) (hmany : relation.kind = .hasMany)
    (hcolumns : s.columns = keys.map .text) (hsome : keys ≠ [])
    (hkeys : ∀ key ∈ keys, key ∈ repository.codec.keys) :
    (m.Merges keys ↔ relation.declaredKeys ≠ []) ∧
      ∀ rows readings, (∀ row ∈ rows, row.isSteady = true) → List.Forall₂ m.Finds rows readings →
        ∃ results, m.objects rows = .ok results := by
  have hsingle := hmake
  rw [hrelation] at hsingle
  obtain ⟨codec, rfl⟩ := related_of_make_single hsingle
  have hchildren : (⟨repository.codec, !s.columns.isEmpty, [⟨name, relation, codec⟩]⟩ : Mapper).hasChildren =
      true := by
    simp [hasChildren, hmany]
  obtain ⟨hnodup, -, -⟩ := Repository.of_ofDeclaration hrepository
  refine ⟨⟨fun hmerges hkeyless => ?_, fun hdeclared => ?_⟩, fun rows readings hrows hfinds => ?_⟩
  · refine not_merges_of_keyless hmake hchildren ?_ hnodup hkeys ?_ hmerges
    · simpa [hcolumns] using hsome
    · exact List.forall_mem_singleton.mpr hkeyless
  · exact merges_of_declared (of_make hmake).1 hchildren List.mem_cons_self hdeclared hkeys
  · exact ⟨_, (objects_gives (of_make hmake).1 hchildren hfinds).eq_ok fun hnot =>
      hnot (areSteady_of_rows hmake hrows hfinds)⟩

/-- Novels with their chapters, of which the given keys are read, or everything. -/
def serials (chapterKeys : Value) : Declaration where
  table := .text "novel"
  keys := .list [.text "id", .text "title"]
  relations := .record [("chapters", .record [("table", .text "chapter"), ("local_key", .text "id"),
    ("foreign_key", .text "novelId"), ("type", .text "hasMany"), ("keys", chapterKeys)])]

/-- The titles of novels with their chapters. -/
def titles : Select where
  columns := [.text "title"]
  related := ["chapters"]

/-- The mapper of titles. -/
def titleMapper (chapterKeys : Option (List String)) : Mapper where
  codec := ⟨["id", "title"], [], [], true, true⟩
  passOn := true
  related := [⟨"chapters",
    ⟨.text "chapter", .text "id", .text "novelId", .hasMany, none, chapterKeys.map (·.map .text)⟩,
    ⟨chapterKeys.getD [], [], [], true, true⟩⟩]

/-- With declared keys, rows with one title are merged. -/
theorem merges_iff_titles : ∃ repository,
    Repository.ofDeclaration {} (serials (.list [.text "pages"])) = .ok repository ∧
      make repository.codec titles.columns (titles.relations repository) =
        .ok (titleMapper (some ["pages"])) ∧
      (titleMapper (some ["pages"])).Merges ["title"] := by
  have hrepository : Repository.ofDeclaration {} (serials (.list [.text "pages"])) = .ok _ := rfl
  have hiff := @merges_iff {} _ _ titles (titleMapper (some ["pages"])) _ _ ["title"] hrepository rfl rfl rfl
    rfl (by decide) (by decide)
  exact ⟨_, hrepository, rfl, hiff.1.mpr (by decide)⟩

/-- The row of a novel with a chapter. -/
def pagesRow (pages : Int) : Record := [("title", .text "N"), ("pages", .int pages)]

/-- The main object of a row takes the pages of the relation along. -/
theorem mainObject_pagesRow (pages : Int) :
    (titleMapper none).mainObject (.record (pagesRow pages)) = .ok (pagesRow pages) := by
  have hextra : (pagesRow pages).filter (fun f => !(titleMapper none).isClaimed f.1) =
      [("pages", .int pages)] := by
    have htitle : (titleMapper none).isClaimed "title" = true := by decide
    have hpages : (titleMapper none).isClaimed "pages" = false := by decide
    simp [pagesRow, htitle, hpages]
  have hobject : (titleMapper none).codec.toObject (.record (pagesRow pages)) "" =
      .ok [("title", .text "N")] := rfl
  rw [mainObject, hobject]
  show Except.ok (((pagesRow pages).filter fun f => !(titleMapper none).isClaimed f.1).foldl _ _) = _
  rw [hextra]
  rfl

/-- A row is read as a title and its pages. -/
theorem finds_pagesRow (pages : Int) : (titleMapper none).Finds (.record (pagesRow pages))
    ⟨pagesRow pages, fun _ => some [("pages", .int pages)]⟩ :=
  ⟨mainObject_pagesRow pages, List.forall_mem_singleton.mpr rfl⟩

/-- Such a row is what a select of titles gives. -/
theorem isChosen_pagesRow (pages : Int) : (titleMapper none).IsChosen ["title"] (pagesRow pages) := by
  have hnames : Record.names (pagesRow pages) = ["title", "pages"] := rfl
  refine ⟨hnames ▸ by decide, hnames ▸ by decide, ?_⟩
  rw [hnames]
  refine List.forall_mem_cons.mpr ⟨.inl (by decide), List.forall_mem_singleton.mpr (.inr ⟨by decide, ?_⟩)⟩
  exact List.forall_mem_singleton.mpr fun hdeclared => absurd rfl hdeclared

/-- Rows with different pages have different group keys. -/
theorem groupKey_pagesRow : groupKey (pagesRow 10) ≠ groupKey (pagesRow 20) := by
  intro h
  have hplain (pages : Int) (hshort : Number.digitCount pages.natAbs ≤ Number.maxDigits) :
      ∀ f ∈ pagesRow pages, ∀ room, Json.Plain room f.2.toComparable.sorted := by
    refine List.forall_mem_cons.mpr ⟨fun room => ?_, List.forall_mem_singleton.mpr fun room => ?_⟩
    · simpa [Value.toComparable, Json.sorted] using Json.Plain.text "N"
    · simpa [Value.toComparable, Json.sorted] using Json.Plain.int hshort
  obtain ⟨f, hf, hname, hcompared⟩ := exists_of_groupKey_eq (by decide) (hplain 10 (by decide)) (by decide)
    (hplain 20 (by decide)) h _ (List.mem_cons_of_mem _ List.mem_cons_self)
  obtain rfl | hf := List.mem_cons.mp hf
  · exact absurd hname (by decide)
  · rw [List.mem_singleton.mp hf] at hcompared
    simp [Value.toComparable, Json.sorted] at hcompared

/-- Two chapters of one novel give two novels. -/
theorem titles_not_merged : ∃ repository, Repository.ofDeclaration {} (serials .null) = .ok repository ∧
    make repository.codec titles.columns (titles.relations repository) = .ok (titleMapper none) ∧
    (titleMapper none).objects [.record (pagesRow 10), .record (pagesRow 20)] =
      .ok [[("title", .text "N"), ("pages", .int 10), ("chapters", .list [.record [("pages", .int 10)]])],
        [("title", .text "N"), ("pages", .int 20), ("chapters", .list [.record [("pages", .int 20)]])]] ∧
    ¬(titleMapper none).Merges ["title"] := by
  have hmake : make ⟨["id", "title"], [], [], true, true⟩ titles.columns
      [("chapters", ⟨.text "chapter", .text "id", .text "novelId", .hasMany, none, none⟩)] =
        .ok (titleMapper none) := rfl
  have hfinds : List.Forall₂ (titleMapper none).Finds ([pagesRow 10, pagesRow 20].map .record) _ :=
    .cons (finds_pagesRow 10) (.cons (finds_pagesRow 20) .nil)
  have hobjects := (objects_gives (of_make hmake).1 rfl hfinds).eq_ok fun hnot =>
    hnot (areSteady_of_rows hmake (by decide) hfinds)
  have hgroups (x y : Reading) (hne : x.key ≠ y.key) : regrouped (titleMapper none).related [x, y] =
      [assembled (titleMapper none).related x [x], assembled (titleMapper none).related y [y]] := by
    simp [regrouped, leaders, firstsBy, Reading.fellows, hne, hne.symm]
  refine ⟨_, rfl, hmake, ?_, fun hmerges => ?_⟩
  · refine hobjects.trans (congrArg Except.ok ((hgroups _ _ ?_).trans rfl))
    exact groupKey_pagesRow
  · have htogether := hmerges [pagesRow 10, pagesRow 20] _
      (List.forall_mem_cons.mpr ⟨isChosen_pagesRow 10, List.forall_mem_singleton.mpr (isChosen_pagesRow 20)⟩)
      hobjects (pagesRow 10) (by simp) (pagesRow 20) (by simp) (List.forall_mem_singleton.mpr rfl)
    exact groupKey_pagesRow
      (groupKey_eq_of_together htogether (mainObject_pagesRow 10) (mainObject_pagesRow 20))

end Single

end Mapper

end Quarry
