import Mathlib.Data.List.Dedup
import Quarry.Proofs.Repository.Nested
import Quarry.Proofs.Repository.Surviving

/-!
# What relations add

With relations that have one object at most, each row gives its own object, and the related objects
are put under the names of their relations. An object keeps its own fields by that, as they are
without the relations, unless a relation has the name of a key: then the related object takes the
place of the field.

So relations only add fields (`Mapper.OnlyAdds`) exactly if none of them is named like a key.
Whether there are objects at all depends on the rows: all that is asked for must be readable.
-/

set_option autoImplicit false

namespace Quarry

open Text.Name (toSnake)

/-! ## Fields of some keys -/

namespace Record

variable {keys : List String} {name : String} {object : Record}

/-- The fields that have one of some keys. -/
def restrict (keys : List String) (object : Record) : Record := object.filter fun f => keys.contains f.1

/-- Setting another name does not change what is restricted to some. -/
theorem restrict_set (h : name ∉ keys) (v : Value) (object : Record) :
    restrict keys (object.set name v) = restrict keys object := by
  induction object with
  | nil => simp [restrict, set, h]
  | cons field rest ih =>
    by_cases hk : field.1 = name
    · have hfield : field.1 ∉ keys := hk ▸ h
      simp [restrict, set, hk, h]
    · simp only [restrict, set, if_neg hk] at ih ⊢
      rw [List.filter_cons, List.filter_cons, ih]

/-- A name to which is restricted keeps its value. -/
theorem get?_restrict (h : name ∈ keys) (object : Record) :
    get? name (restrict keys object) = get? name object := by
  induction object with
  | nil => rfl
  | cons field rest ih =>
    by_cases hk : field.1 = name
    · simp [restrict, get?, hk, h]
    · by_cases hfield : field.1 ∈ keys
      · simpa [restrict, get?, hk, hfield] using ih
      · simpa [restrict, get?, hk, hfield] using ih

/-- What has no other names is not changed by restricting it. -/
theorem restrict_of_subset (h : names object ⊆ keys) : restrict keys object = object :=
  List.filter_eq_self.mpr fun _ hf => by simpa using h (List.mem_map_of_mem hf)

end Record

namespace Mapper

/-! ## One object for each row -/

section Nesting

variable {m : Mapper} {related : List Related} {row : Value} {object full : Record} {keys : List String}
  {name : String}

/-- An object is nested if its related ones are made. -/
theorem exists_nest (h : ∀ r ∈ related, ∃ child, m.relatedObject? row r = .ok child) (object : Record) :
    ∃ full, m.nest row object related = .ok full := by
  induction related generalizing object with
  | nil => exact ⟨object, rfl⟩
  | cons r related ih =>
    obtain ⟨⟨child, hchild⟩, hrest⟩ := List.forall_mem_cons.mp h
    exact exists_bind_eq_ok hchild (ih hrest _)

/-- A nested object has had its related ones made. -/
theorem exists_relatedObject?_of_nest (h : m.nest row object related = .ok full) :
    ∀ r ∈ related, ∃ child, m.relatedObject? row r = .ok child := by
  induction related generalizing object with
  | nil => exact nofun
  | cons r related ih =>
    obtain ⟨child, hchild, hrest⟩ := bind_eq_ok.mp h
    exact List.forall_mem_cons.mpr ⟨⟨child, hchild⟩, ih hrest⟩

/-- Nesting changes nothing under the names of keys. -/
theorem restrict_nest (h : m.nest row object related = .ok full) (hnames : ∀ r ∈ related, r.name ∉ keys) :
    Record.restrict keys full = Record.restrict keys object := by
  induction related generalizing object with
  | nil => rw [Except.ok.inj h]
  | cons r related ih =>
    obtain ⟨child, -, hrest⟩ := bind_eq_ok.mp h
    obtain ⟨hr, hnames⟩ := List.forall_mem_cons.mp hnames
    rw [ih hrest hnames, Record.restrict_set hr]

/-- Under the name of a relation there is a related object or NULL. -/
theorem get?_nest (h : m.nest row object related = .ok full)
    (hname : (∃ child, Record.get? name object = some (Value.ofOption .record child)) ∨
      name ∈ related.map (·.name)) :
    ∃ child, Record.get? name full = some (Value.ofOption .record child) := by
  induction related generalizing object with
  | nil =>
    rw [← Except.ok.inj h]
    exact hname.resolve_right List.not_mem_nil
  | cons r related ih =>
    obtain ⟨child, -, hrest⟩ := bind_eq_ok.mp h
    apply ih hrest
    by_cases hr : name = r.name
    · rw [hr]
      exact .inl ⟨child, Record.get?_set_self r.name _ object⟩
    · rw [Record.get?_set_of_ne hr]
      simpa [hr] using hname

end Nesting

section Rows

variable {m plain : Mapper} {rows : List Value} {row : Value} {r : Related}

/-- Whether relations change nothing in the fields of keys: whenever rows have objects without them
and the related objects can be read, each row has one object, and the fields of keys in it are the
object without relations. -/
def OnlyAdds (m plain : Mapper) : Prop :=
  ∀ rows own, plain.objects rows = .ok own →
    (∀ row ∈ rows, ∀ r ∈ m.related, ∃ child, m.relatedObject? row r = .ok child) →
    ∃ full, m.objects rows = .ok full ∧
      List.Forall₂ (fun object bare => Record.restrict m.codec.keys object = bare) full own

/-- Where nothing is passed on, the main object is the decoded row. -/
theorem mainObject_of_not_passOn (hpass : m.passOn = false) (row : Value) :
    m.mainObject row = m.codec.toObject row "" := by
  unfold mainObject
  rw [hpass]
  cases m.codec.toObject row "" <;> rfl

/-- With single relations alone each row is decoded and nested. -/
theorem objects_of_single (hsingle : ∀ r ∈ m.related, r.relation.kind ≠ .hasMany) (hpass : m.passOn = false)
    (rows : List Value) :
    m.objects rows =
      rows.mapM fun row => m.codec.toObject row "" >>= fun main => m.nest row main m.related := by
  have hchildren : m.hasChildren = false := List.any_eq_false.mpr fun r hr => by simpa using hsingle r hr
  rw [objects, hchildren, if_neg Bool.false_ne_true]
  simp only [mainObject_of_not_passOn hpass]

/-- Without relations the objects of rows are read one by one. -/
theorem objects_plain_eq_ok_iff (c : Codec) {own : List Record} :
    objects ⟨c, false, []⟩ rows = .ok own ↔
      List.Forall₂ (fun row object => c.toObject row "" = .ok object) rows own := by
  rw [objects_of_single (fun _ hr => absurd hr List.not_mem_nil) rfl]
  refine mapM_eq_ok_iff_of_mem fun row _ object => ?_
  simp [nest]

/-- There are objects exactly if there are objects without relations and all related objects can be
read. -/
theorem exists_objects_iff (hsingle : ∀ r ∈ m.related, r.relation.kind ≠ .hasMany) (hpass : m.passOn = false)
    (rows : List Value) :
    (∃ full, m.objects rows = .ok full) ↔
      (∃ own, objects ⟨m.codec, false, []⟩ rows = .ok own) ∧
        ∀ row ∈ rows, ∀ r ∈ m.related, ∃ child, m.relatedObject? row r = .ok child := by
  rw [objects_of_single hsingle hpass]
  constructor
  · rintro ⟨full, hfull⟩
    have hrow : ∀ row ∈ rows, (∃ main, m.codec.toObject row "" = .ok main) ∧
        ∀ r ∈ m.related, ∃ child, m.relatedObject? row r = .ok child := by
      intro row hrow
      obtain ⟨object, -, hobject⟩ := exists_of_mapM_eq_ok hfull hrow
      obtain ⟨main, hmain, hnest⟩ := bind_eq_ok.mp hobject
      exact ⟨⟨main, hmain⟩, exists_relatedObject?_of_nest hnest⟩
    obtain ⟨own, hown⟩ := exists_mapM_eq_ok fun row hmem => (hrow row hmem).1
    exact ⟨⟨own, (objects_plain_eq_ok_iff m.codec).mpr (mapM_eq_ok_iff.mp hown)⟩,
      fun row hmem => (hrow row hmem).2⟩
  · rintro ⟨⟨own, hown⟩, hrelated⟩
    refine exists_mapM_eq_ok fun row hrow => ?_
    obtain ⟨main, -, hmain⟩ := exists_of_forall₂ ((objects_plain_eq_ok_iff m.codec).mp hown) row hrow
    exact exists_bind_eq_ok hmain (exists_nest (hrelated row hrow) main)

/-- Relations that are named like no key leave the fields of keys alone. -/
theorem onlyAdds_of_names (hsingle : ∀ r ∈ m.related, r.relation.kind ≠ .hasMany) (hpass : m.passOn = false)
    (hnames : ∀ r ∈ m.related, r.name ∉ m.codec.keys) : m.OnlyAdds ⟨m.codec, false, []⟩ := by
  intro rows own hown hrelated
  obtain ⟨full, hfull⟩ := (exists_objects_iff hsingle hpass rows).mpr ⟨⟨own, hown⟩, hrelated⟩
  refine ⟨full, hfull, ?_⟩
  rw [objects_of_single hsingle hpass, mapM_eq_ok_iff] at hfull
  refine forall₂_trans (fun object row bare hobject hbare => ?_) hfull.flip
    ((objects_plain_eq_ok_iff m.codec).mp hown)
  obtain ⟨main, hmain, hnest⟩ := bind_eq_ok.mp hobject
  obtain rfl : main = bare := Except.ok.inj (hmain.symm.trans hbare)
  rw [restrict_nest hnest hnames]
  exact Record.restrict_of_subset (Codec.names_of_decodeKeys hmain).subset

/-! ## Relations named like keys -/

/-- Where a relation is named like a key, a field that is given is lost. -/
theorem not_onlyAdds_of_name (hsingle : ∀ r ∈ m.related, r.relation.kind ≠ .hasMany)
    (hpass : m.passOn = false) (hkeys : m.codec.keys.Nodup) (hr : r ∈ m.related)
    (hname : r.name ∈ m.codec.keys) : ¬m.OnlyAdds ⟨m.codec, false, []⟩ := by
  intro hadds
  let fields : Record := m.codec.columnNames.dedup.map fun column => (column, .int 1)
  have hsmall : ∀ f ∈ fields, f.2.IsSmall := by
    intro f hf
    obtain ⟨column, -, rfl⟩ := List.mem_map.mp hf
    exact .inr (.inl rfl)
  obtain ⟨bare, hbare⟩ := Codec.exists_decodeKeys_small m.codec "" m.codec.keys hsmall
  have hown : objects ⟨m.codec, false, []⟩ [.record fields] = .ok [bare] :=
    (objects_plain_eq_ok_iff m.codec).mpr (.cons hbare .nil)
  obtain ⟨full, hfull, hsame⟩ := hadds _ _ hown
    (List.forall_mem_singleton.mpr fun q _ => exists_relatedObject?_small m q hsmall)
  rw [objects_of_single hsingle hpass, mapM_eq_ok_iff] at hfull
  -- The field of the key is a one in the bare object, and a related object or NULL in the full one.
  obtain ⟨object, ⟨main, -, hnest⟩, hobject⟩ : ∃ object,
      (∃ main, m.codec.toObject (.record fields) "" = .ok main ∧
        m.nest (.record fields) main m.related = .ok object) ∧
      Record.restrict m.codec.keys object = bare := by
    cases hfull with
    | cons hfirst hrest =>
      cases hsame with
      | cons hrestricted _ => exact ⟨_, bind_eq_ok.mp hfirst, hrestricted⟩
  obtain ⟨child, hchild⟩ := get?_nest hnest (.inr (List.mem_map_of_mem hr))
  have hgiven : Record.get? (toSnake r.name) fields = some (.int 1) := by
    have hcolumn : toSnake r.name ∈ Record.names fields := by
      simp only [fields, Record.names, List.map_map, Function.comp_def, List.map_id']
      exact List.mem_dedup.mpr (List.mem_map_of_mem hname)
    obtain ⟨v, hv, hmem⟩ := Record.exists_of_mem_names hcolumn
    obtain ⟨column, -, hfield⟩ := List.mem_map.mp hmem
    rw [hv, ← (Prod.mk.inj hfield).2]
  obtain ⟨w, hw, hdecoded⟩ := Codec.get?_decodeKeys hkeys hbare hname hgiven
  obtain ⟨one, hone, hnull, hrecord⟩ := m.codec.exists_decode_one (toSnake r.name) (v := .int 1) (.inl rfl)
  obtain rfl : w = one := Except.ok.inj (hdecoded.symm.trans hone)
  rw [← hobject, Record.get?_restrict hname, hchild] at hw
  cases child with
  | none => exact hnull (Option.some.inj hw).symm
  | some child => exact hrecord child (Option.some.inj hw).symm

end Rows

/-! ## Repositories -/

section Repositories

variable {settings : Settings} {declaration : Declaration} {repository : Repository} {s : Select}
  {m plain : Mapper}

/-- Relations with one object at most only add fields exactly if none is named like a key, and there
are objects exactly if there are objects without relations and the related objects can be read. -/
theorem onlyAdds_iff (hrepository : Repository.ofDeclaration settings declaration = .ok repository)
    (hcolumns : s.columns = []) (hmake : make repository.codec s.columns (s.relations repository) = .ok m)
    (hplain : make repository.codec s.columns [] = .ok plain)
    (hsingle : ∀ r ∈ m.related, r.relation.kind ≠ .hasMany) :
    (m.OnlyAdds plain ↔ ∀ r ∈ m.related, r.name ∉ repository.codec.keys) ∧
      ∀ rows, (∃ full, m.objects rows = .ok full) ↔
        (∃ own, plain.objects rows = .ok own) ∧
          ∀ row ∈ rows, ∀ r ∈ m.related, ∃ child, m.relatedObject? row r = .ok child := by
  rw [hcolumns] at hmake hplain
  obtain rfl := Except.ok.inj hplain
  obtain ⟨related, -, rfl⟩ := functor_map_eq_ok.mp hmake
  obtain ⟨hkeys, -, -⟩ := Repository.of_ofDeclaration hrepository
  refine ⟨⟨fun hadds r hr hname => ?_, onlyAdds_of_names hsingle rfl⟩, exists_objects_iff hsingle rfl⟩
  exact not_onlyAdds_of_name hsingle rfl hkeys hr hname hadds

/-- Posts with their authors, of which the names are read. -/
def signedPosts (relation : String) : Declaration where
  table := .text "post"
  keys := .list [.text "id", .text "author"]
  relations := .record [(relation, .record [("table", .text "user"), ("local_key", .text "author"),
    ("foreign_key", .text "id"), ("type", .text "belongsTo"), ("keys", .list [.text "name"])])]

/-- The mapper of posts with their authors. -/
def postMapper (relation : String) : Mapper where
  codec := ⟨["id", "author"], [], [], true, true⟩
  passOn := false
  related := [⟨relation, ⟨.text "user", .text "author", .text "id", .belongsTo, none, some [.text "name"]⟩,
    ⟨["name"], [], [], true, true⟩⟩]

/-- Posts with a writer only add to what their rows have. -/
theorem onlyAdds_iff_writer : ∃ repository,
    Repository.ofDeclaration {} (signedPosts "writer") = .ok repository ∧
      make repository.codec [] (Select.relations repository { related := ["writer"] }) =
        .ok (postMapper "writer") ∧
      (postMapper "writer").OnlyAdds ⟨repository.codec, false, []⟩ := by
  have hrepository : Repository.ofDeclaration {} (signedPosts "writer") = .ok _ := rfl
  have hiff := @onlyAdds_iff {} _ _ { related := ["writer"] } (postMapper "writer") _ hrepository rfl rfl rfl
    (by decide)
  exact ⟨_, hrepository, rfl, hiff.1.mpr (by decide)⟩

/-- The author of a post is lost when the user takes its place. -/
theorem author_overwritten : ∃ repository,
    Repository.ofDeclaration {} (signedPosts "author") = .ok repository ∧
      make repository.codec [] (Select.relations repository { related := ["author"] }) =
        .ok (postMapper "author") ∧
      objects ⟨repository.codec, false, []⟩
          [.record [("id", .int 1), ("author", .text "x"), ("user__name", .text "A")]] =
        .ok [[("id", .int 1), ("author", .text "x")]] ∧
      (postMapper "author").objects
          [.record [("id", .int 1), ("author", .text "x"), ("user__name", .text "A")]] =
        .ok [[("id", .int 1), ("author", .record [("name", .text "A")])]] ∧
      ¬(postMapper "author").OnlyAdds ⟨repository.codec, false, []⟩ := by
  have hplain : objects ⟨⟨["id", "author"], [], [], true, true⟩, false, []⟩
      [.record [("id", .int 1), ("author", .text "x"), ("user__name", .text "A")]] =
        .ok [[("id", .int 1), ("author", .text "x")]] := rfl
  have hread : (postMapper "author").objects
      [.record [("id", .int 1), ("author", .text "x"), ("user__name", .text "A")]] =
        .ok [[("id", .int 1), ("author", .record [("name", .text "A")])]] := rfl
  refine ⟨_, rfl, rfl, hplain, hread, fun hadds => ?_⟩
  obtain ⟨full, hfull, hsame⟩ := hadds _ _ hplain (List.forall_mem_singleton.mpr
    (List.forall_mem_singleton.mpr ⟨some [("name", .text "A")], rfl⟩))
  obtain rfl := Except.ok.inj (hread.symm.trans hfull)
  cases hsame with
  | cons hfirst _ => exact absurd hfirst (by simp [Record.restrict, postMapper])

end Repositories

end Mapper

end Quarry
