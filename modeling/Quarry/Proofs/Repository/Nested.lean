import Quarry.Proofs.Repository.JoinedRow
import Quarry.Proofs.Row.Declared
import Quarry.Proofs.Row.Kinds
import Quarry.Repository.Select

/-!
# Nested objects and objects of their own

The same stored row can be read twice: by the repository of its table, and nested in the objects of
another repository that has a relation to this table. A relation declares keys but no kinds, so
nested columns are read as their names suggest. Where the kinds of the repository read like these,
the nested object is the repository's, restricted to the keys of the relation (`Mapper.NestsAsOwn`);
where a column has another kind, some stored row makes them differ.
-/

set_option autoImplicit false

namespace Quarry

open Text.Name (toSnake)

/-! ## Objects of rows with some columns -/

namespace Codec

variable {c : Codec} {keys : List String} {row object : Record}

/-- An object has all its keys if the row has all their columns. -/
theorem names_of_present
    (h : c.decodeKeys (.record row) "" keys = .ok object)
    (hpresent : ∀ key ∈ keys, ∃ v, Record.get? (toSnake key) row = some v) :
    Record.names object = keys := by
  induction keys generalizing object with
  | nil =>
    obtain rfl := Except.ok.inj h
    rfl
  | cons key rest ih =>
    obtain ⟨⟨v, hv⟩, hrest⟩ := List.forall_mem_cons.mp hpresent
    obtain ⟨others, hothers, ⟨hnone, -⟩ | ⟨_, w, -, -, rfl⟩⟩ := of_decodeKeys_cons h
    · rw [hv] at hnone
      exact nomatch hnone
    · rw [Record.names_cons, ih hothers hrest]

/-- What an object has under a key is what its column holds. -/
theorem get?_decodeKeys {key : String} {v : Value} (hkeys : keys.Nodup)
    (h : c.decodeKeys (.record row) "" keys = .ok object) (hkey : key ∈ keys)
    (hv : Record.get? (toSnake key) row = some v) :
    ∃ w, Record.get? key object = some w ∧ c.decode (toSnake key) v = .ok w := by
  obtain ⟨w, hmem, hw⟩ := mem_of_decoded h hkey hv
  have hnodup : (Record.names object).Nodup := hkeys.sublist (names_of_decodeKeys h)
  exact ⟨w, Record.get?_of_mem hnodup hmem, hw⟩

end Codec

/-! ## Mappers -/

namespace Mapper

variable {c : Codec} {m : Mapper} {r : Related}

/-- The codec of a relation is made of its declared keys. -/
theorem codec_of_readRelated {relations : List (String × Sql.Relation)} {related : List Related}
    (h : readRelated c relations = .ok related) :
    ∀ r ∈ related, Codec.make r.relation.declaredKeys (.tuple []) .null c.utc c.parseJson = .ok r.codec := by
  induction relations generalizing related with
  | nil =>
    obtain rfl := Except.ok.inj h
    exact nofun
  | cons named rest ih =>
    obtain ⟨codec, hcodec, hrest⟩ := bind_eq_ok.mp h
    obtain ⟨others, hothers, rfl⟩ := functor_map_eq_ok.mp hrest
    exact List.forall_mem_cons.mpr ⟨hcodec, ih hothers⟩

/-- The codec of a relation is made from the keys of the relation and nothing else. -/
theorem codec_of_make {chosen : List Value} {relations : List (String × Sql.Relation)}
    (h : make c chosen relations = .ok m) (hr : r ∈ m.related) :
    r.relation.declaredKeys = r.codec.keys.map .text ∧ r.codec.keys.Nodup ∧
      r.codec = ⟨r.codec.keys, [], [], c.utc, c.parseJson⟩ := by
  obtain ⟨related, hrelated, rfl⟩ := functor_map_eq_ok.mp h
  have hcodec := codec_of_readRelated hrelated r hr
  obtain ⟨hkeys, hnodup, -, -⟩ := Codec.of_make hcodec
  exact ⟨hkeys, hnodup, Codec.eq_of_make_plain hcodec⟩

/-- Rows that hold the same in the columns of a relation, one under its own names and the other
under the relation's aliases. -/
def Carries (r : Related) (stored flat : Record) : Prop :=
  ∀ key ∈ r.codec.keys, ∃ v, Record.get? (toSnake key) stored = some v ∧
    Record.get? (r.relation.aliasOf (toSnake key)) flat = some v

/-- Whether a nested object is the object that a codec reads from the stored row by itself,
restricted to the keys of the relation, whenever the row has a value other than NULL there. -/
def NestsAsOwn (m : Mapper) (own : Codec) (r : Related) : Prop :=
  ∀ stored flat object, Carries r stored flat →
    (∃ key ∈ r.codec.keys, Record.get? (toSnake key) stored ≠ some .null) →
    own.toObject (.record stored) "" = .ok object →
    ∃ child, m.relatedObject? (.record flat) r = .ok (some child) ∧ Record.names child = r.codec.keys ∧
      ∀ key ∈ r.codec.keys, Record.get? key child = Record.get? key object

/-- The codecs of a relation and of its table know the same settings, and the relation's keys are
keys of the table, which it declares without kinds. -/
structure Reads (own : Codec) (r : Related) : Prop where
  codec : r.codec = ⟨r.codec.keys, [], [], own.utc, own.parseJson⟩
  declared : r.relation.declaredKeys.isEmpty = false
  keys : r.codec.keys.Nodup
  ownKeys : own.keys.Nodup
  subset : ∀ key ∈ r.codec.keys, key ∈ own.keys

/-- Whether a key is read alike by itself and nested. -/
def ReadAlike (own : Codec) (key : String) : Prop :=
  Kind.ReadAlike own.parseJson (own.kindOf? (toSnake key)) (Kind.ofColumn? (toSnake key))

/-- Whether a key is read alike can be computed. -/
instance (own : Codec) (key : String) : Decidable (ReadAlike own key) :=
  inferInstanceAs (Decidable (Kind.ReadAlike ..))

variable {own : Codec} {stored flat object child : Record} {key : String}

/-- A relation decodes a column without a declared kind. -/
theorem Reads.decode_eq (h : Reads own r) (column : String) (v : Value) :
    r.codec.decode column v = Codec.decodeAs own.utc own.parseJson (Kind.ofColumn? column) v := by
  rw [h.codec]
  rfl

/-- A relation decodes a column as its own table does, if the key is read alike. -/
theorem Reads.decode_eq_own (h : Reads own r) (halike : ReadAlike own key) (v : Value) :
    r.codec.decode (toSnake key) v = own.decode (toSnake key) v := by
  rw [h.decode_eq, Codec.decode]
  exact (Kind.decodeAs_of_readAlike halike v).symm

/-- What is read under the aliases is what the stored row holds. -/
theorem relatedFields_of_carries (m : Mapper) (h : Reads own r) (hcarries : Carries r stored flat) :
    m.relatedFields r (.record flat) = r.codec.decodeKeys (.record stored) "" r.codec.keys := by
  rw [relatedFields, h.declared, if_neg Bool.false_ne_true]
  apply Codec.decodeKeys_congr
  intro key hkey
  obtain ⟨v, hstored, hflat⟩ := hcarries key hkey
  have halias : Record.get? (r.relation.aliasStart ++ toSnake key) flat = some v := hflat
  rw [String.empty_append, Codec.cell, Codec.cell, hstored, halias]

/-- The related object is made of its fields. -/
theorem fields_of_relatedObject? {row : Value} (h : m.relatedObject? row r = .ok (some child)) :
    m.relatedFields r row = .ok child := by
  obtain ⟨fields, hfields, hsome⟩ := map_eq_ok.mp h
  split_ifs at hsome
  rw [hfields, Option.some.inj hsome]

/-- A nested value whose kinds read alike is the one of the table's own object. -/
theorem get?_nested (h : Reads own r) (hcarries : Carries r stored flat)
    (hobject : own.toObject (.record stored) "" = .ok object)
    (hchild : m.relatedObject? (.record flat) r = .ok (some child)) (hkey : key ∈ r.codec.keys)
    (halike : ReadAlike own key) : Record.get? key child = Record.get? key object := by
  have hfields := fields_of_relatedObject? hchild
  rw [relatedFields_of_carries m h hcarries] at hfields
  obtain ⟨v, hstored, -⟩ := hcarries key hkey
  obtain ⟨w, hw, hdecoded⟩ := Codec.get?_decodeKeys h.keys hfields hkey hstored
  obtain ⟨w', hw', hown⟩ := Codec.get?_decodeKeys h.ownKeys hobject (h.subset key hkey) hstored
  rw [h.decode_eq_own halike, hown] at hdecoded
  rw [hw, hw', Except.ok.inj hdecoded]

/-- A row that can be read by itself brings a nested object if all kinds read alike. -/
theorem exists_nested (m : Mapper) (h : Reads own r) (hcarries : Carries r stored flat)
    (hobject : own.toObject (.record stored) "" = .ok object)
    (hsome : ∃ key ∈ r.codec.keys, Record.get? (toSnake key) stored ≠ some .null)
    (halike : ∀ key ∈ r.codec.keys, ReadAlike own key) :
    ∃ child, m.relatedObject? (.record flat) r = .ok (some child) ∧ Record.names child = r.codec.keys := by
  have hcells : ∀ key ∈ r.codec.keys, ∀ v, Record.get? (toSnake key) stored = some v →
      ∃ w, r.codec.decode (toSnake key) v = .ok w := by
    intro key hkey v hv
    obtain ⟨w, -, hw⟩ := Codec.get?_decodeKeys h.ownKeys hobject (h.subset key hkey) hv
    exact ⟨w, by rw [h.decode_eq_own (halike key hkey), hw]⟩
  obtain ⟨child, hchild⟩ : ∃ child, r.codec.decodeKeys (.record stored) "" r.codec.keys = .ok child :=
    Codec.exists_decodeKeys (by simpa using hcells)
  have hpresent : ∀ key ∈ r.codec.keys, ∃ v, Record.get? (toSnake key) stored = some v := by
    intro key hkey
    obtain ⟨v, hv, -⟩ := hcarries key hkey
    exact ⟨v, hv⟩
  have hkinds : r.codec.kinds = [] := by rw [h.codec]
  obtain ⟨key, hkey, hne⟩ := hsome
  obtain ⟨v, hv⟩ := hpresent key hkey
  have hnull : v.isNull = false := by
    apply Value.isNull_eq_false_iff.mpr
    rintro rfl
    exact hne hv
  obtain ⟨f, hf, hgiven⟩ := Codec.exists_not_null hkinds hchild (List.mem_map_of_mem hkey) hv hnull
  have hall : (child.all fun f => f.2.isNull) = false := List.all_eq_false.mpr ⟨f, hf, by simp [hgiven]⟩
  refine ⟨child, ?_, Codec.names_of_present hchild hpresent⟩
  rw [relatedObject?, relatedFields_of_carries m h hcarries, hchild]
  show Except.ok (if child.all fun f => f.2.isNull then none else some child) = _
  rw [hall, if_neg Bool.false_ne_true]

/-! ## Rows that are read apart -/

/-- The stored row that has a value in one column and NULL in the others of a relation. -/
def single (r : Related) (column : String) (v : Value) : Record :=
  r.codec.keys.map fun key => (toSnake key, if toSnake key = column then v else .null)

/-- A row of a single column has NULL elsewhere. -/
theorem get?_single (hkey : key ∈ r.codec.keys) (column : String) (v : Value) :
    Record.get? (toSnake key) (single r column v) = some (if toSnake key = column then v else .null) := by
  have hname : toSnake key ∈ Record.names (single r column v) := by
    simp only [single, Record.names, List.map_map, Function.comp_def]
    exact List.mem_map_of_mem hkey
  obtain ⟨w, hw, hmem⟩ := Record.exists_of_mem_names hname
  obtain ⟨other, -, hsame⟩ := List.mem_map.mp hmem
  obtain ⟨hcolumn, hvalue⟩ := Prod.mk.inj hsame
  rw [hw, ← hvalue, hcolumn]

/-- A row of a single column carries it under its alias. -/
theorem carries_single (r : Related) (column : String) (v : Value) :
    Carries r (single r column v) (r.aliased (single r column v)) := by
  intro key hkey
  refine ⟨_, get?_single hkey column v, ?_⟩
  rw [Related.get?_aliased, get?_single hkey column v]

/-- The row can be read if its one value can. -/
theorem exists_toObject_single {column : String} {v w : Value} (r : Related)
    (hw : own.decode column v = .ok w) :
    ∃ object, own.toObject (.record (single r column v)) "" = .ok object := by
  apply Codec.exists_decodeKeys
  intro other _ u hu
  rw [String.empty_append] at hu
  obtain ⟨key, -, hsame⟩ := List.mem_map.mp (Record.mem_of_get? hu)
  obtain ⟨hcolumn, hvalue⟩ := Prod.mk.inj hsame
  rw [← hvalue, hcolumn]
  split_ifs with hwhich
  · rw [hwhich]
    exact ⟨w, hw⟩
  · exact ⟨.null, Codec.decode_null own _⟩

/-- A key whose kinds do not read alike tells a nested object from the table's own. -/
theorem not_nestsAsOwn_of_not_readAlike (m : Mapper) (h : Reads own r) (hkey : key ∈ r.codec.keys)
    (hnot : ¬ReadAlike own key) : ¬m.NestsAsOwn own r := by
  obtain ⟨v, w, w', hw, hw', hne, hgiven⟩ :=
    Kind.exists_read_apart own.utc hnot (Codec.ofColumn?_cases (toSnake key))
  obtain ⟨object, hobject⟩ := exists_toObject_single r hw
  have hheld : Record.get? (toSnake key) (single r (toSnake key) v) = some v := by
    rw [get?_single hkey, if_pos rfl]
  have hgivenStored : Record.get? (toSnake key) (single r (toSnake key) v) ≠ some .null := by
    rw [hheld]
    intro hnull
    rw [Option.some.inj hnull] at hw'
    have hread : Codec.decodeAs own.utc own.parseJson (Kind.ofColumn? (toSnake key)) .null = .ok .null := by
      unfold Codec.decodeAs
      rfl
    exact hgiven (Except.ok.inj (hw'.symm.trans hread))
  -- Both sides read the same stored value, the relation by the column's name and the table as declared.
  intro hnests
  obtain ⟨child, hchild, -, hsame⟩ := hnests (single r (toSnake key) v) _ object (carries_single r _ v)
    ⟨key, hkey, hgivenStored⟩ hobject
  have hfields := fields_of_relatedObject? hchild
  rw [relatedFields_of_carries m h (carries_single r _ v)] at hfields
  obtain ⟨x, hx, hnested⟩ := Codec.get?_decodeKeys h.keys hfields hkey hheld
  obtain ⟨y, hy, hdecoded⟩ := Codec.get?_decodeKeys h.ownKeys hobject (h.subset key hkey) hheld
  rw [h.decode_eq, hw'] at hnested
  rw [Codec.decode, hw] at hdecoded
  have hvalues := hsame key hkey
  rw [hx, hy] at hvalues
  apply hne
  rw [Except.ok.inj hnested, Except.ok.inj hdecoded, Option.some.inj hvalues]

/-! ## Repositories -/

/-- Nested objects are those of the related table exactly when all their columns have kinds that
read like what their names suggest; and a column that has one reads the same in any case. -/
theorem nestsAsOwn_iff {settings : Settings} {declaration relatedDeclaration : Declaration}
    {parent related : Repository} {s : Select}
    (hparent : Repository.ofDeclaration settings declaration = .ok parent)
    (hrelated : Repository.ofDeclaration settings relatedDeclaration = .ok related)
    (hm : make parent.codec s.columns (s.relations parent) = .ok m) (hr : r ∈ m.related)
    (hkeys : r.codec.keys ≠ [])
    (hdeclared : ∀ key ∈ r.codec.keys, key ∈ related.codec.keys) :
    (m.NestsAsOwn related.codec r ↔ ∀ key ∈ r.codec.keys, ReadAlike related.codec key) ∧
      ∀ key ∈ r.codec.keys, ReadAlike related.codec key → ∀ stored flat object child,
        Carries r stored flat → related.codec.toObject (.record stored) "" = .ok object →
        m.relatedObject? (.record flat) r = .ok (some child) →
        Record.get? key child = Record.get? key object := by
  obtain ⟨-, hutc, hparse⟩ := Repository.of_ofDeclaration hparent
  obtain ⟨hownKeys, hutc', hparse'⟩ := Repository.of_ofDeclaration hrelated
  obtain ⟨htexts, hnodup, hcodec⟩ := codec_of_make hm hr
  rw [hutc, hparse, ← hutc', ← hparse'] at hcodec
  have hreads : Reads related.codec r := by
    refine ⟨hcodec, ?_, hnodup, hownKeys, hdeclared⟩
    rw [htexts]
    simpa using hkeys
  constructor
  · constructor
    · intro hnests key hkey
      by_contra hnot
      exact not_nestsAsOwn_of_not_readAlike m hreads hkey hnot hnests
    · intro halike stored flat object hcarries hsome hobject
      obtain ⟨child, hchild, hnames⟩ := exists_nested m hreads hcarries hobject hsome halike
      refine ⟨child, hchild, hnames, ?_⟩
      intro key hkey
      exact get?_nested hreads hcarries hobject hchild hkey (halike key hkey)
  · intro key hkey halike stored flat object child hcarries hobject hchild
    exact get?_nested hreads hcarries hobject hchild hkey halike

/-- Chapters of novels, of which the keys `id` and `title` are read. -/
def chapters : Declaration where
  table := .text "chapter"
  keys := .list [.text "id"]
  relations := .record [("novel", .record [("table", .text "novel"), ("local_key", .text "novelId"),
    ("foreign_key", .text "id"), ("type", .text "belongsTo"), ("keys", .list [.text "id", .text "title"])])]

/-- Novels with declared kinds. -/
def novels (kinds : Record) : Declaration where
  table := .text "novel"
  keys := .list [.text "id", .text "title", .text "isDraft"]
  kinds := .record kinds

/-- The chapters' relation to novels with its codec. -/
def novelOfChapter : Related where
  name := "novel"
  relation := ⟨.text "novel", .text "novelId", .text "id", .belongsTo, none, some [.text "id", .text "title"]⟩
  codec := ⟨["id", "title"], [], [], true, true⟩

/-- The mapper of chapters with their novels. -/
def chapterMapper : Mapper := ⟨⟨["id"], [], [], true, true⟩, false, [novelOfChapter]⟩

/-- A mapper of chapters with their novel. -/
theorem make_chapters : ∃ parent, Repository.ofDeclaration {} chapters = .ok parent ∧
    make parent.codec [] (Select.relations parent { related := ["novel"] }) = .ok chapterMapper :=
  ⟨_, rfl, rfl⟩

/-- With drafts declared as truth values, novels are nested as their own. -/
theorem nestsAsOwn_iff_drafts :
    ∃ related, Repository.ofDeclaration {} (novels [("isDraft", .text "boolean")]) = .ok related ∧
      chapterMapper.NestsAsOwn related.codec novelOfChapter := by
  obtain ⟨parent, hparent, hm⟩ := make_chapters
  have hrelated : Repository.ofDeclaration {} (novels [("isDraft", .text "boolean")]) = .ok _ := rfl
  have hiff := nestsAsOwn_iff (s := { related := ["novel"] }) hparent hrelated hm List.mem_cons_self
    (by decide) (by decide)
  exact ⟨_, hrelated, hiff.1.mpr (by decide)⟩

/-- A title that is declared as text is read as it is, but nested it is taken for JSON. -/
theorem not_nestsAsOwn_titles :
    ∃ related, Repository.ofDeclaration {} (novels [("title", .text "text")]) = .ok related ∧
      related.codec.toObject (.record [("id", .int 1), ("title", .text "[1]")]) "" =
        .ok [("id", .int 1), ("title", .text "[1]")] ∧
      chapterMapper.relatedObject? (.record [("id", .int 5), ("novel__id", .int 1),
        ("novel__title", .text "[1]")]) novelOfChapter =
          .ok (some [("id", .int 1), ("title", .list [.int 1])]) ∧
      ¬chapterMapper.NestsAsOwn related.codec novelOfChapter := by
  have hrelated : Repository.ofDeclaration {} (novels [("title", .text "text")]) = .ok _ := rfl
  refine ⟨_, hrelated, rfl, rfl, ?_⟩
  have htitle : "title" ∈ novelOfChapter.codec.keys := by decide
  apply not_nestsAsOwn_of_not_readAlike chapterMapper ⟨rfl, rfl, by decide, by decide, by decide⟩ htitle
  decide

end Mapper

end Quarry
