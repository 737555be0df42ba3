import Quarry.Proofs.Repository.Children
import Quarry.Proofs.Row.Object

/-!
# The rows of a join

Behind the columns of a parent, a joined row has the columns of one child for each relation, under
their aliases. A parent without children for a relation has one child there all of whose columns are
NULL. As no two columns have the same name, a mapper finds in each row exactly the children that it
was made from.
-/

set_option autoImplicit false

namespace Quarry

open Text.Name (toSnake)

/-! ## Children in rows -/

namespace Related

/-- The names that the columns of a relation have in joined rows. -/
def labels (r : Related) : List String := r.codec.columnNames.map r.relation.aliasOf

/-- A row of the related table as a part of a joined row. -/
def aliased (r : Related) (child : Record) : Record :=
  child.map fun f => (r.relation.aliasOf f.1, f.2)

/-- What stands in a joined row where there is no child. -/
def absent (r : Related) : Record := r.codec.columnNames.map fun column => (column, .null)

/-- Whether the children are known column by column, by distinct names and without declared
kinds. -/
structure IsPlain (r : Related) : Prop where
  declared : r.relation.declaredKeys.isEmpty = false
  kinds : r.codec.kinds = []
  columns : r.codec.columnNames.Nodup

variable {r : Related} {child front back : Record}

/-- The keys of a plain relation are different. -/
theorem IsPlain.keys (h : r.IsPlain) : r.codec.keys.Nodup := h.columns.of_map

/-- The names of a child under their aliases are the labels. -/
theorem names_aliased (h : Record.names child = r.codec.columnNames) :
    Record.names (r.aliased child) = r.labels := by
  rw [labels, ← h]
  simp [aliased, Record.names]

/-- The names of an absent child are the columns. -/
theorem names_absent (r : Related) : Record.names r.absent = r.codec.columnNames := by
  simp [absent, Record.names, Function.comp_def]

/-- A column is found under its alias. -/
theorem get?_aliased (r : Related) (column : String) (child : Record) :
    Record.get? (r.relation.aliasOf column) (r.aliased child) = Record.get? column child := by
  induction child with
  | nil => rfl
  | cons field child ih =>
    obtain ⟨k, v⟩ := field
    by_cases hk : k = column
    · simp [aliased, Record.get?, hk]
    · have halias : r.relation.aliasOf k ≠ r.relation.aliasOf column := by
        simpa [Sql.Relation.aliasOf] using hk
      unfold aliased at ih
      simp [aliased, Record.get?, hk, halias, ih]

/-- The object read from a joined row is that of the child's own row. -/
theorem toObject_aliased (hfront : ∀ label ∈ r.labels, label ∉ Record.names front)
    (hchild : Record.names child = r.codec.columnNames) :
    r.codec.toObject (.record (front ++ (r.aliased child ++ back))) r.relation.aliasStart =
      r.codec.toObject (.record child) "" := by
  refine Codec.decodeKeys_congr fun key hkey => ?_
  have hcolumn : toSnake key ∈ r.codec.columnNames := List.mem_map_of_mem hkey
  have hlabel : r.relation.aliasStart ++ toSnake key ∉ Record.names front :=
    hfront _ (List.mem_map_of_mem hcolumn)
  obtain ⟨v, hv, -⟩ := Record.exists_of_mem_names (hchild ▸ hcolumn)
  have hget : Record.get? (r.relation.aliasStart ++ toSnake key) (r.aliased child) = some v :=
    (get?_aliased r (toSnake key) child).trans hv
  simp [Codec.cell, Record.get?_append, Record.get?_eq_none hlabel, hget, hv]

/-- Where all columns are NULL, so are all keys. -/
theorem toObject_absent (r : Related) :
    r.codec.toObject (.record r.absent) "" = .ok (r.codec.keys.map fun key => (key, .null)) := by
  have hall (keys : List String) (h : ∀ key ∈ keys, key ∈ r.codec.keys) :
      r.codec.decodeKeys (.record r.absent) "" keys = .ok (keys.map fun key => (key, .null)) := by
    induction keys with
    | nil => rfl
    | cons key keys ih =>
      obtain ⟨hkey, hkeys⟩ := List.forall_mem_cons.mp h
      have hname : toSnake key ∈ Record.names r.absent := by
        rw [names_absent]
        exact List.mem_map_of_mem hkey
      obtain ⟨v, hv, hmem⟩ := Record.exists_of_mem_names hname
      obtain rfl : .null = v := by
        obtain ⟨_, -, heq⟩ := List.mem_map.mp hmem
        exact congrArg Prod.snd heq
      simp [Codec.decodeKeys_cons, Codec.cell, hv, Codec.decode_null, ih hkeys]
  exact hall r.codec.keys fun _ => id

end Related

namespace Mapper

variable {r : Related}

/-- A child is absent exactly if all its values are NULL. -/
theorem relatedObject?_of_object {row : Value} {object : Record} (m : Mapper) (hr : r.IsPlain)
    (hobject : r.codec.toObject row r.relation.aliasStart = .ok object) :
    m.relatedObject? row r = .ok (if object.all fun f => f.2.isNull then none else some object) := by
  simp [relatedObject?, relatedFields, hr.declared, hobject, Except.map]

/-- A child with a value is there. -/
theorem relatedObject?_of_present {row : Value} {object : Record} (m : Mapper) (hr : r.IsPlain)
    (hobject : r.codec.toObject row r.relation.aliasStart = .ok object)
    (hpresent : ∃ f ∈ object, f.2.isNull = false) :
    m.relatedObject? row r = .ok (some object) := by
  obtain ⟨f, hf, hnull⟩ := hpresent
  have hall : (object.all fun f => f.2.isNull) = false :=
    List.all_eq_false.mpr ⟨f, hf, by simp [hnull]⟩
  rw [relatedObject?_of_object m hr hobject, hall]
  rfl

/-- A child without a value is absent. -/
theorem relatedObject?_of_absent {row : Value} (m : Mapper) (hr : r.IsPlain)
    (hobject : r.codec.toObject row r.relation.aliasStart =
      .ok (r.codec.keys.map fun key => (key, .null))) : m.relatedObject? row r = .ok none := by
  have hall : ((r.codec.keys.map fun key => (key, Value.null)).all fun f => f.2.isNull) = true := by
    simp [Value.isNull]
  rw [relatedObject?_of_object m hr hobject, if_pos hall]

end Mapper

/-! ## The children of one parent -/

/-- The children of one parent for one relation: their rows, each with a value other than NULL and
none with an undefined number, and the objects read from them, of which no two are equal. -/
structure Offspring where
  related : Related
  stored : List Record
  decoded : List Record
  columns : ∀ child ∈ stored, Record.names child = related.codec.columnNames
  present : ∀ child ∈ stored, ∃ f ∈ child, f.2.isNull = false
  steady : ∀ child ∈ stored, ∀ f ∈ child, f.2.isSteady = true
  decodes : stored.mapM (fun child => related.codec.toObject (.record child) "") = .ok decoded
  different : decoded.Pairwise fun a b => Value.same? (.record a) (.record b) = some false

namespace Offspring

/-- The rows with which a left join extends the row of the parent. -/
def blocks (o : Offspring) : List Record :=
  if o.stored.isEmpty then [o.related.absent] else o.stored

/-- What stands behind the columns of the parent in its rows, for several relations one after the
other: nested loops, the last relation the innermost. -/
def tails : List Offspring → List Record
  | [] => [[]]
  | o :: rest => o.blocks.flatMap fun child => (tails rest).map (o.related.aliased child ++ ·)

/-- The names behind the columns of the parent. -/
def labels (os : List Offspring) : List String := os.flatMap (·.related.labels)

variable {o : Offspring} {os : List Offspring}

/-- A block has the columns of its relation. -/
theorem names_of_mem_blocks {block : Record} (h : block ∈ o.blocks) :
    Record.names block = o.related.codec.columnNames := by
  unfold blocks at h
  split_ifs at h
  · rw [List.mem_singleton.mp h]
    exact o.related.names_absent
  · exact o.columns block h

/-- A tail has the labels of all relations. -/
theorem names_of_mem_tails {tail : Record} (h : tail ∈ tails os) :
    Record.names tail = labels os := by
  induction os generalizing tail with
  | nil =>
    rw [List.mem_singleton.mp h]
    rfl
  | cons o os ih =>
    obtain ⟨block, hblock, h⟩ := List.mem_flatMap.mp h
    obtain ⟨rest, hrest, rfl⟩ := List.mem_map.mp h
    rw [Record.names_append, Related.names_aliased (names_of_mem_blocks hblock), ih hrest]
    rfl

/-- There is always a tail. -/
theorem tails_ne_nil (os : List Offspring) : tails os ≠ [] := by
  induction os with
  | nil => simp [tails]
  | cons o os ih =>
    have hblocks : o.blocks ≠ [] := by
      unfold blocks
      split_ifs with hstored
      · simp
      · simpa using hstored
    obtain ⟨block, more, hmore⟩ := List.exists_cons_of_ne_nil hblocks
    simp [tails, hmore, ih]

/-- The children of a plain relation are distinct. -/
theorem distinct (ho : o.related.IsPlain) : Mapper.Distinct o.decoded := by
  refine ⟨o.different, fun object hobject => ?_⟩
  obtain ⟨child, hchild, hdecoded⟩ := (mem_iff_of_mapM_eq_ok o.decodes).mp hobject
  exact Value.same?_self _
    (Codec.isSteady_toObject ho.kinds ho.keys (o.steady child hchild) hdecoded)

/-- The object of a child is not taken for the absence of a child. -/
theorem exists_not_null (ho : o.related.IsPlain) {child object : Record} (hchild : child ∈ o.stored)
    (hdecoded : o.related.codec.toObject (.record child) "" = .ok object) :
    ∃ f ∈ object, f.2.isNull = false := by
  obtain ⟨f, hf, hnull⟩ := o.present child hchild
  have hnames := o.columns child hchild
  have hname : f.1 ∈ o.related.codec.columnNames := hnames ▸ List.mem_map_of_mem hf
  have hget := Record.get?_of_mem (show (Record.names child).Nodup from hnames ▸ ho.columns) hf
  exact Codec.exists_not_null ho.kinds hdecoded hname hget hnull

/-- The row of a left join brings the child that it was made from, wherever its columns stand. -/
theorem blocks_bring (m : Mapper) (ho : o.related.IsPlain) :
    List.Forall₂ (fun block choice => ∀ front back,
        (∀ label ∈ o.related.labels, label ∉ Record.names front) →
        m.relatedObject? (.record (front ++ (o.related.aliased block ++ back))) o.related =
          .ok choice) o.blocks (Mapper.options o.decoded) := by
  have hall := mapM_eq_ok_iff.mp o.decodes
  unfold blocks Mapper.options
  by_cases hstored : o.stored = []
  · -- The one row there is all NULL, and so is what is read from it.
    have hdecoded : o.decoded = [] := List.forall₂_nil_left_iff.mp (hstored ▸ hall)
    rw [hstored, hdecoded]
    refine .cons (fun front back hfront => ?_) .nil
    refine m.relatedObject?_of_absent ho ?_
    rw [Related.toObject_aliased hfront o.related.names_absent]
    exact o.related.toObject_absent
  · have hdecoded : o.decoded ≠ [] := fun h => hstored (List.forall₂_nil_right_iff.mp (h ▸ hall))
    rw [if_neg (by simpa using hstored), if_neg (by simpa using hdecoded),
      List.forall₂_map_right_iff]
    have hmem := (List.forall₂_and_left o.stored o.decoded).mpr ⟨fun _ => id, hall⟩
    refine hmem.imp fun child object ⟨hchild, hobject⟩ front back hfront => ?_
    refine m.relatedObject?_of_present ho ?_ (exists_not_null ho hchild hobject)
    rw [Related.toObject_aliased hfront (o.columns child hchild)]
    exact hobject

/-- The rows of a parent bring one child for each relation, in the order of nested loops. -/
theorem tails_bring (m : Mapper) (hos : ∀ o ∈ os, o.related.IsPlain) (hlabels : (labels os).Nodup) :
    List.Forall₂ (fun tail row => ∀ front, (∀ label ∈ labels os, label ∉ Record.names front) →
        List.Forall₂ (fun o choice =>
          m.relatedObject? (.record (front ++ tail)) o.related = .ok choice) os row)
      (tails os) (Mapper.choices (os.map (·.decoded))) := by
  induction os with
  | nil => exact .cons (fun _ _ => .nil) .nil
  | cons o os ih =>
    obtain ⟨ho, hos⟩ := List.forall_mem_cons.mp hos
    obtain ⟨-, hrest, hdisjoint⟩ := List.nodup_append.mp hlabels
    have hblocks := (List.forall₂_and_left o.blocks _).mpr ⟨fun _ => id, blocks_bring m ho⟩
    refine List.rel_flatMap hblocks ?_
    intro block choice ⟨hblock, hbrings⟩
    refine List.rel_map ?_ (ih hos hrest)
    intro tail row htail front hfront
    have hfirst := hbrings front tail fun label hl => hfront label (List.mem_append_left _ hl)
    refine .cons hfirst ?_
    -- For the other relations the child of the first one stands in front.
    have hnames := Related.names_aliased (names_of_mem_blocks hblock)
    have hbehind : ∀ label ∈ labels os, label ∉ Record.names (front ++ o.related.aliased block) := by
      intro label hlabel hmem
      rw [Record.names_append, hnames] at hmem
      obtain hmem | hmem := List.mem_append.mp hmem
      · exact hfront label (List.mem_append_right _ hlabel) hmem
      · exact hdisjoint label hmem label hlabel rfl
    have hothers := htail (front ++ o.related.aliased block) hbehind
    rw [List.append_assoc] at hothers
    exact hothers

end Offspring

end Quarry
