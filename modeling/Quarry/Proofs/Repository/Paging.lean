import Quarry.Proofs.Repository.Built
import Quarry.Proofs.Repository.Merging
import Quarry.Proofs.Session.Answered
import Quarry.Proofs.Session.Sequential

/-!
# Pages

A limit and an offset stand in the statement and are counted in rows. Without relations that may
have many objects each row is an object, and a page of the rows gives the page of the objects.
Otherwise the rows of one parent are brought together, and the objects fall behind the rows: the
page that starts where the objects end still has rows, and so it has an object that should not be
there.

So the pages of a select are pages of its objects exactly if no relation asked for may have many
objects, or the answer at hand has one row for each parent (`Select.pages_iff`).
-/

set_option autoImplicit false

namespace Quarry

open Reading (assembled gathered leaders overlay regrouped)
open Sql (Dialect Fragment Piece Relation Statement)

/-- What an offset and then a limit leave of a list. -/
def pageOf {α : Type} (limit offset : Nat) (xs : List α) : List α := (xs.drop offset).take limit

section Lists

variable {α β : Type} {xs : List α} {ys : List β}

/-- The page of a list that was changed one by one. -/
theorem pageOf_map (f : α → β) (n k : Nat) (xs : List α) :
    pageOf n k (xs.map f) = (pageOf n k xs).map f := by
  rw [pageOf, pageOf, List.map_take, List.map_drop]

/-- A page is a part of the list in its order. -/
theorem pageOf_sublist (n k : Nat) (xs : List α) : (pageOf n k xs).Sublist xs :=
  (List.take_sublist _ _).trans (List.drop_sublist _ _)

/-- Lists that agree one by one have pages that do. -/
theorem forall₂_pageOf {R : α → β → Prop} (h : List.Forall₂ R xs ys) (n k : Nat) :
    List.Forall₂ R (pageOf n k xs) (pageOf n k ys) :=
  List.forall₂_take n (List.forall₂_drop k h)

/-- Behind the last member there is nothing. -/
theorem pageOf_length (n : Nat) (xs : List α) : pageOf n xs.length xs = [] := by
  rw [pageOf, List.drop_length, List.take_nil]

/-- A page of one has the member at its place. -/
theorem pageOf_one {k : Nat} (hk : k < xs.length) : pageOf 1 k xs = [xs[k]] := by
  rw [pageOf, List.drop_eq_getElem_cons hk]
  rfl

end Lists

/-! ## Rows of separate parents -/

namespace Mapper

section Separate

variable {m : Mapper} {r : Related} {row : Value} {rows : List Value} {x : Reading} {readings : List Reading}
  {parent child changed : Record} {related : List Related} {parents : List (String × Record)}
  {objects : List Record}

/-- The first child is put where none is yet, whatever it is. -/
theorem placeChild_first (hchild : x.child r = some child)
    (hheld : Record.get? r.name parent = some (gathered r [])) :
    placeChild parent r child = .ok (parent.set r.name (gathered r [x])) := by
  have hgetD : parent.getD r.name = gathered r [] := by rw [Record.getD, hheld, Option.getD_some]
  unfold placeChild
  rw [hgetD]
  unfold gathered
  simp only [List.filterMap_cons, List.filterMap_nil, hchild]
  cases r.relation.kind <;> rfl

/-- A row puts its children into a parent that has none. -/
theorem placeChildren_first (hfinds : ∀ r ∈ related, m.relatedObject? row r = .ok (x.child r))
    (hnames : (related.map (·.name)).Nodup)
    (hheld : ∀ r ∈ related, Record.get? r.name parent = some (gathered r [])) :
    m.placeChildren row parent related = .ok (overlay (gathered · [x]) related parent) := by
  induction related generalizing parent with
  | nil => rfl
  | cons r related ih =>
    obtain ⟨hr, hfinds⟩ := List.forall_mem_cons.mp hfinds
    obtain ⟨hheldr, hheld⟩ := List.forall_mem_cons.mp hheld
    rw [List.map_cons, List.nodup_cons] at hnames
    have hplaced : m.placeChildren row (parent.set r.name (gathered r [x])) related =
        .ok (overlay (gathered · [x]) (r :: related) parent) := by
      refine ih hfinds hnames.2 fun q hq => ?_
      have hne : q.name ≠ r.name := fun heq => hnames.1 (heq ▸ List.mem_map_of_mem hq)
      rw [Record.get?_set_of_ne hne]
      exact hheld q hq
    rw [placeChildren, hr]
    cases hchild : x.child r with
    | none =>
      have hstays : gathered r ([] ++ [x]) = gathered r [] := Reading.gathered_of_none hchild
      rw [List.nil_append] at hstays
      rw [hstays, Record.set_of_get? hheldr] at hplaced
      exact hplaced
    | some child =>
      refine bind_eq_ok.mpr ⟨some child, rfl, ?_⟩
      exact bind_eq_ok.mpr ⟨_, placeChild_first hchild hheldr, hplaced⟩

/-- A row puts its children into its own main object. -/
theorem placeChildren_withPlaces (hfinds : m.Finds row x) (hnames : (m.related.map (·.name)).Nodup) :
    m.placeChildren row (m.withPlaces x.main) m.related = .ok (assembled m.related x [x]) := by
  rw [withPlaces_eq_overlay,
    placeChildren_first hfinds.2 hnames (Reading.get?_overlay (gathered · []) hnames x.main),
    Reading.overlay_overlay hnames]
  rfl

/-- A parent with a new key comes behind the others. -/
theorem alter_of_new {key : String} {change : Record → Except Error Record}
    (hnew : key ∉ parents.map (·.1)) (hchange : change parent = .ok changed) :
    alter key parent change parents = .ok (parents ++ [(key, changed)]) := by
  induction parents with
  | nil => exact bind_eq_ok.mpr ⟨changed, hchange, rfl⟩
  | cons entry parents ih =>
    obtain ⟨hne, hnew⟩ := not_or.mp (List.mem_cons.not.mp hnew)
    rw [alter, if_neg (Ne.symm hne)]
    exact bind_eq_ok.mpr ⟨_, ih hnew, rfl⟩

/-- Rows of separate parents give one object each, behind the parents that there are. -/
theorem group_separate (hnames : (m.related.map (·.name)).Nodup) (hfinds : List.Forall₂ m.Finds rows readings)
    (hkeys : (parents.map (·.1) ++ readings.map (·.key)).Nodup) :
    m.group parents rows = .ok (parents ++ readings.map fun x => (x.key, assembled m.related x [x])) := by
  induction hfinds generalizing parents with
  | nil => simp [group]
  | @cons row x rows readings hx _ ih =>
    have hnew : x.key ∉ parents.map (·.1) := by
      intro hmem
      exact (List.nodup_append.mp hkeys).2.2 _ hmem _ List.mem_cons_self rfl
    rw [group]
    refine bind_eq_ok.mpr ⟨x.main, hx.1, ?_⟩
    refine bind_eq_ok.mpr ⟨_, alter_of_new hnew (placeChildren_withPlaces hx hnames), ?_⟩
    rw [ih (by simpa [Reading.key] using hkeys)]
    simp [Reading.key]

/-- Rows with different keys make an object each. -/
theorem objects_separate (hnames : (m.related.map (·.name)).Nodup) (hmany : m.hasChildren = true)
    (hfinds : List.Forall₂ m.Finds rows readings) (hkeys : (readings.map (·.key)).Nodup) :
    m.objects rows = .ok (readings.map fun x => assembled m.related x [x]) := by
  have hgroup : m.group [] rows = .ok ([] ++ readings.map fun x => (x.key, assembled m.related x [x])) :=
    group_separate hnames hfinds hkeys
  rw [Mapper.objects, if_pos hmany, hgroup]
  simp

/-- There is an object for each row only if the rows are of separate parents. -/
theorem nodup_keys_of_length {related : List Related}
    (hlength : (regrouped related readings).length = readings.length) : (readings.map (·.key)).Nodup := by
  have hall : leaders readings = readings := by
    rw [regrouped, List.length_map] at hlength
    exact (firstsBy_sublist _ [] readings).eq_of_length hlength
  exact hall ▸ Reading.nodup_keys_leaders readings

/-- Without children to collect, the objects of a page are the page of the objects. -/
theorem objects_page_single (hone : m.hasChildren = false) (h : m.objects rows = .ok objects) (n k : Nat) :
    m.objects (pageOf n k rows) = .ok (pageOf n k objects) := by
  rw [Mapper.objects, hone, if_neg Bool.false_ne_true, mapM_eq_ok_iff] at h ⊢
  exact forall₂_pageOf h n k

/-- Rows with children have been read, and there are no more objects than rows. -/
theorem exists_readings_of_objects (hnames : (m.related.map (·.name)).Nodup) (hmany : m.hasChildren = true)
    (h : m.objects rows = .ok objects) :
    ∃ readings, List.Forall₂ m.Finds rows readings ∧ objects = regrouped m.related readings ∧
      objects.length ≤ rows.length := by
  have hgroup := h
  rw [Mapper.objects, if_pos hmany] at hgroup
  obtain ⟨grown, hgrown, -⟩ := bind_eq_ok.mp hgroup
  obtain ⟨readings, hfinds⟩ := exists_readings hgrown
  obtain rfl := (objects_gives hnames hmany hfinds).eq_of_ok h
  refine ⟨readings, hfinds, rfl, ?_⟩
  rw [regrouped, List.length_map, hfinds.length_eq]
  exact (firstsBy_sublist _ [] readings).length_le

/-- Where there is an object for each row, the pages of the rows give the pages of the objects. -/
theorem objects_page_separate (hnames : (m.related.map (·.name)).Nodup) (hmany : m.hasChildren = true)
    (h : m.objects rows = .ok objects) (hlength : objects.length = rows.length) (n k : Nat) :
    m.objects (pageOf n k rows) = .ok (pageOf n k objects) := by
  obtain ⟨readings, hfinds, rfl, -⟩ := exists_readings_of_objects hnames hmany h
  have hkeys := nodup_keys_of_length (hlength.trans hfinds.length_eq)
  rw [objects_separate hnames hmany hfinds hkeys] at h
  rw [← Except.ok.inj h, pageOf_map]
  refine objects_separate hnames hmany (forall₂_pageOf hfinds n k) (hkeys.sublist ?_)
  exact (pageOf_sublist n k readings).map _

/-- Where there are fewer objects than rows, the page of one row where the objects end has an
object. -/
theorem exists_object_behind (hnames : (m.related.map (·.name)).Nodup) (hmany : m.hasChildren = true)
    (h : m.objects rows = .ok objects) (hfewer : objects.length < rows.length) :
    ∃ object, m.objects (pageOf 1 objects.length rows) = .ok [object] := by
  obtain ⟨readings, hfinds, -, -⟩ := exists_readings_of_objects hnames hmany h
  have hread : objects.length < readings.length := hfinds.length_eq ▸ hfewer
  have hfound := forall₂_pageOf hfinds 1 objects.length
  rw [pageOf_one hread] at hfound
  exact ⟨_, objects_separate hnames hmany hfound (List.nodup_singleton _)⟩

end Separate

section Making

variable {c : Codec} {m : Mapper} {relations : List (String × Relation)} {related : List Related}

/-- To leave out what has the name of something before it keeps nothing new and one of each name. -/
theorem eraseDupsBy_names (relations : List (String × Relation)) :
    (relations.eraseDupsBy fun a b => a.1 == b.1) ⊆ relations ∧
      ∀ e ∈ relations, ∃ kept ∈ relations.eraseDupsBy fun a b => a.1 == b.1, kept.1 = e.1 := by
  -- Behind the first one it goes on with those of other names, which are fewer.
  induction hlength : relations.length using Nat.strong_induction_on generalizing relations with
  | h count ih =>
    cases relations with
    | nil => exact ⟨List.Subset.refl _, nofun⟩
    | cons first rest =>
      rw [List.eraseDupsBy_cons]
      have hfewer : (rest.filter fun b => decide ((b.1 == first.1) = false)).length < count := by
        rw [← hlength]
        exact Nat.lt_succ_of_le (List.length_filter_le _ rest)
      obtain ⟨hsubset, hnames⟩ := ih _ hfewer _ rfl
      refine ⟨List.cons_subset_cons first fun e he => List.mem_of_mem_filter (hsubset he), fun e he => ?_⟩
      by_cases hname : first.1 = e.1
      · exact ⟨first, List.mem_cons_self, hname⟩
      · have hrest : e ∈ rest :=
          (List.mem_cons.mp he).resolve_left fun heq => hname (congrArg Prod.fst heq.symm)
        obtain ⟨kept, hkept, hsame⟩ := hnames e (List.mem_filter.mpr ⟨hrest, by simpa using Ne.symm hname⟩)
        exact ⟨kept, List.mem_cons_of_mem first hkept, hsame⟩

/-- The relations that are read are those that were named. -/
theorem relations_of_readRelated (h : readRelated c relations = .ok related) :
    related.map (·.relation) = relations.map (·.2) := by
  induction relations generalizing related with
  | nil =>
    obtain rfl := Except.ok.inj h
    rfl
  | cons named rest ih =>
    obtain ⟨codec, -, hrest⟩ := bind_eq_ok.mp h
    obtain ⟨others, hothers, rfl⟩ := functor_map_eq_ok.mp hrest
    rw [List.map_cons, List.map_cons, ih hothers]

/-- A select has a mapper that brings rows together if a relation asked for may have many
objects. -/
theorem hasChildren_eq_false_iff {r : Repository} {s : Select}
    (hmake : make r.codec s.columns (s.relations r) = .ok m) :
    m.hasChildren = false ↔ ∀ e ∈ s.relations r, e.2.kind ≠ .hasMany := by
  obtain ⟨related, hrelated, rfl⟩ := functor_map_eq_ok.mp hmake
  obtain ⟨hsubset, hnames⟩ := eraseDupsBy_names (s.relations r)
  have hchildren : (⟨r.codec, !s.columns.isEmpty, related⟩ : Mapper).hasChildren = false ↔
      ∀ relation ∈ related.map (·.relation), relation.kind ≠ .hasMany := by simp [hasChildren]
  rw [hchildren, relations_of_readRelated hrelated, List.forall_mem_map]
  refine ⟨fun h e he => ?_, fun h e he => h e (hsubset he)⟩
  -- A name stands for one relation.
  have hdeclared {e : String × Relation} (he : e ∈ s.relations r) : r.relation? e.1 = some e.2 := by
    obtain ⟨name, -, hname⟩ := List.mem_filterMap.mp he
    obtain ⟨relation, hrelation, rfl⟩ := Option.map_eq_some_iff.mp hname
    exact hrelation
  obtain ⟨kept, hkept, hname⟩ := hnames e he
  have hsame : kept.2 = e.2 := Option.some.inj
    ((hdeclared (hsubset hkept)).symm.trans ((congrArg r.relation? hname).trans (hdeclared he)))
  exact hsame ▸ h kept hkept

end Making

end Mapper

/-! ## Statements of pages -/

/-- A statement with a limit and an offset behind it. -/
def Sql.Statement.page (st : Statement) (limit offset : Nat) : Statement :=
  ⟨st.sql ++ " LIMIT " ++ toString limit ++ " OFFSET " ++ toString offset, st.params⟩

namespace Select

variable {d : Dialect} {r : Repository} {s : Select} {st : Statement}

/-- A select with a limit and then an offset. -/
def page (s : Select) (limit offset : Nat) : Select := { s with limit := .int limit, offset := .int offset }

/-- A limit and an offset make a select that of a page. -/
theorem applyAll_page (r : Repository) (s : Select) (n k : Nat) :
    Modifier.applyAll r s [.limit (.int n), .offset (.int k)] = .ok (s.page n k) := rfl

/-- The statement of a page. -/
theorem statement_page (f : Fragment) (n k : Nat) :
    Fragment.statement d (f ++ [.word " LIMIT ", .word (toString n), .word " OFFSET ", .word (toString k)]) =
      (Fragment.statement d f).page n k := by
  refine congrArg₂ Statement.mk (String.toList_injective ?_) ?_
  · simp [Fragment.sql, Fragment.chars, Piece.chars, Fragment.statement]
  · simp [Fragment.params, Piece.param?, Fragment.statement]

/-- The statement of a page is that of the select with the limit and the offset behind it. -/
theorem build_page (hall : s.amount = .all) (hlimit : s.limit = .null) (hoffset : s.offset = .null)
    (hbuild : s.build d r = .ok st) (n k : Nat) : (s.page n k).build d r = .ok (st.page n k) := by
  obtain ⟨columns, f, tables, order, limits, hcolumns, hf, htables, horder, hlimits, rfl⟩ := of_build hbuild
  have hnone : s.effectiveLimit r = .null := by rw [effectiveLimit, hall, hlimit]
  have hcount : (s.page n k).effectiveLimit r = .int n := by rw [effectiveLimit, page, hall]
  rw [hnone, hoffset] at hlimits
  obtain rfl : limits = [] := (Except.ok.inj hlimits).symm
  have hcounts : Sql.limitClause d ((s.page n k).effectiveLimit r) (s.page n k).offset =
      .ok [.word " LIMIT ", .word (toString n), .word " OFFSET ", .word (toString k)] := by
    rw [hcount]
    rfl
  rw [build_eq]
  refine map_eq_ok.mpr ⟨_, bind_eq_ok.mpr ⟨columns, hcolumns, bind_eq_ok.mpr ⟨f, hf,
    bind_eq_ok.mpr ⟨tables, htables, bind_eq_ok.mpr ⟨order, horder,
      bind_eq_ok.mpr ⟨_, hcounts, rfl⟩⟩⟩⟩⟩, ?_⟩
  rw [List.append_nil, ← List.cons_append]
  exact statement_page _ n k

end Select

/-! ## Pages of objects -/

section Pages

variable {δ : Type} {x : Session δ} {r : Repository} {s : Select} {given : Option Connection} {w : World δ}
  {st : Statement} {rows objects : List Record}

/-- The pages of the rows that a select is answered with have the pages of its objects exactly if no
relation asked for may have many objects or there is an object for each row. -/
theorem Select.pages_iff (hall : s.amount = .all) (hlimit : s.limit = .null) (hoffset : s.offset = .null)
    (hbuild : s.build x.database.dialect r = .ok st) (hanswers : x.Answers r given st w rows)
    (hobjects : ((x.objects r s given).runOn w).1 = .ok (some objects))
    (given' : Option Connection) (worlds : Nat → Nat → World δ)
    (hpages : ∀ n k, x.Answers r given' (st.page n k) (worlds n k) (pageOf n k rows)) :
    (∀ n k : Nat, ∃ p, Modifier.applyAll r s [.limit (.int n), .offset (.int k)] = .ok p ∧
      ((x.select r p given').runOn (worlds n k)).1 = .ok (.list ((pageOf n k objects).map .record))) ↔
      (∀ e ∈ s.relations r, e.2.kind ≠ .hasMany) ∨ objects.length = rows.length := by
  have hmapped := (Session.objects_eq_some_iff hbuild hanswers).mp hobjects
  obtain ⟨m, hmake, hmapped⟩ := bind_eq_ok.mp hmapped
  have hnames := (Mapper.of_make hmake).1
  have hselect (n k : Nat) {found : List Record}
      (hfound : m.objects ((pageOf n k rows).map .record) = .ok found) :
      ((x.select r (s.page n k) given').runOn (worlds n k)).1 = .ok (.list (found.map .record)) := by
    refine Session.select_of_objects hall ?_
    refine (Session.objects_eq_some_iff (build_page hall hlimit hoffset hbuild n k) (hpages n k)).mpr ?_
    exact bind_eq_ok.mpr ⟨m, hmake, hfound⟩
  constructor
  · intro hright
    rw [← Mapper.hasChildren_eq_false_iff hmake]
    refine or_iff_not_imp_left.mpr fun hmany => ?_
    have hmany : m.hasChildren = true := by simpa using hmany
    obtain ⟨-, -, -, hle⟩ := Mapper.exists_readings_of_objects hnames hmany hmapped
    rw [List.length_map] at hle
    refine hle.antisymm (not_lt.mp fun hfewer => ?_)
    obtain ⟨object, hobject⟩ := Mapper.exists_object_behind hnames hmany hmapped (by simpa using hfewer)
    rw [pageOf_map] at hobject
    obtain ⟨p, hp, hgives⟩ := hright 1 objects.length
    obtain rfl := Except.ok.inj ((applyAll_page r s 1 objects.length).symm.trans hp)
    rw [hselect 1 objects.length hobject, pageOf_length] at hgives
    simp at hgives
  · intro hseparate n k
    refine ⟨s.page n k, applyAll_page r s n k, hselect n k ?_⟩
    rw [← pageOf_map]
    cases hmany : m.hasChildren with
    | false => exact Mapper.objects_page_single hmany hmapped n k
    | true =>
      refine Mapper.objects_page_separate hnames hmany hmapped ?_ n k
      rw [List.length_map]
      refine hseparate.resolve_left fun hnone => ?_
      exact Bool.false_ne_true (((Mapper.hasChildren_eq_false_iff hmake).mpr hnone).symm.trans hmany)

/-! ## Novels with their chapters -/

/-- A file that answers every request with what is outside. -/
def mirror : Session Answer := ⟨⟨.sqlite ":memory:", {}⟩, ⟨fun _ => get⟩⟩

/-- Novels with their chapters, of which the ids are read. -/
def novels : Repository where
  table := .text "novel"
  codec := ⟨["id", "title"], [], [], true, true⟩
  relations := [("chapters",
    ⟨.text "chapter", .text "id", .text "novelId", .hasMany, none, some [.text "id"]⟩)]
  printQuery := .bool false
  options := .proper {}

/-- All novels with their chapters. -/
def withChapters : Select := { related := ["chapters"] }

/-- A row with the ids of a novel and one of its chapters. -/
def chapterRow : Int × Int → Record
  | (novel, chapter) => [("id", .int novel), ("chapter__id", .int chapter)]

/-- The outside that answers with rows of novels and chapters. -/
def stocked (rows : List (Int × Int)) : World Answer where
  outside := {
    columns := some [⟨"id", 253, 0⟩, ⟨"chapter__id", 253, 0⟩]
    rows := rows.map fun ids => [.int ids.1, .int ids.2] }

/-- A novel with its chapters. -/
def novelWith (novel : Int) (chapters : List Int) : Record :=
  [("id", .int novel), ("chapters", .list (chapters.map fun id => .record [("id", .int id)]))]

/-- The mapper of novels with their chapters. -/
def novelMapper : Mapper where
  codec := novels.codec
  passOn := false
  related := [⟨"chapters",
    ⟨.text "chapter", .text "id", .text "novelId", .hasMany, none, some [.text "id"]⟩,
    ⟨["id"], [], [], true, true⟩⟩]

/-- What is read in a row. -/
def chapterReading : Int × Int → Reading
  | (novel, chapter) => ⟨[("id", .int novel)], fun _ => some [("id", .int chapter)]⟩

/-- The objects for chapters are the novels that they make up. -/
theorem objectsOf_chapters (rows : List (Int × Int)) : withChapters.objectsOf novels (rows.map chapterRow) =
    .ok (regrouped novelMapper.related (rows.map chapterReading)) := by
  have hmake : Mapper.make novels.codec withChapters.columns (withChapters.relations novels) =
      .ok novelMapper := rfl
  have hfinds : List.Forall₂ novelMapper.Finds ((rows.map chapterRow).map .record)
      (rows.map chapterReading) := by
    rw [List.map_map, List.forall₂_map_left_iff, List.forall₂_map_right_iff, List.forall₂_same]
    exact fun ids _ => ⟨rfl, List.forall_mem_singleton.mpr rfl⟩
  have hsteady : Reading.AreSteady novelMapper.related (rows.map chapterReading) := by
    refine List.forall_mem_map.mpr fun ids _ r _ child hchild => ?_
    obtain rfl := Option.some.inj hchild
    rfl
  rw [Select.objectsOf, hmake]
  exact (Mapper.objects_gives (Mapper.of_make hmake).1 rfl hfinds).eq_ok fun hnot => hnot hsteady

/-- The select of novels with chapters is built. -/
theorem build_novels : ∃ st, withChapters.build mirror.database.dialect novels = .ok st := ⟨_, rfl⟩

/-- A world stocked with rows answers with these. -/
theorem answers_stocked (st : Statement) (rows : List (Int × Int)) :
    mirror.Answers novels (some ⟨"c1"⟩) st (stocked rows) (rows.map chapterRow) := by
  obtain ⟨values, hvalues⟩ : ∃ values, boundValues (.list st.params) = .ok values := by
    unfold boundValues
    split_ifs <;> exact ⟨_, rfl⟩
  have hrows : (rows.map fun ids => [Value.int ids.1, .int ids.2]).mapM
      (Sqlite.zipRow [⟨"id", 253, 0⟩, ⟨"chapter__id", 253, 0⟩]) = .ok (rows.map chapterRow) := by
    rw [mapM_eq_ok_iff, List.forall₂_map_left_iff, List.forall₂_map_right_iff, List.forall₂_same]
    exact fun ids _ => rfl
  have hfetch (log : Log) : ((mirror.database.fetchAll ⟨"c1"⟩ st.sql (.list st.params)).runOn
      { stocked rows with log := log }).1 = .ok (rows.map chapterRow) := by
    show ((Sqlite.fetchAll mirror.wire ⟨"c1"⟩ st.sql (.list st.params)).runOn _).1 = _
    unfold Sqlite.fetchAll
    rw [hvalues]
    exact hrows
  unfold Session.Answers
  rw [Session.joinRead_given, Act.runOn_bind_pure]
  refine map_eq_ok.mpr ⟨_, ?_, rfl⟩
  unfold Session.fetch Session.logged
  obtain hreport | ⟨level, text, hreport⟩ := Database.runOn_reportStatement mirror.database.toAdapter st.sql
    st.params novels.printQuery.isTrue (stocked rows)
  · rw [Act.runOn_bind_ok hreport]
    exact hfetch (stocked rows).log
  · rw [Act.runOn_bind_ok hreport]
    exact hfetch _

/-- A world stocked with a page of rows answers with this page. -/
theorem answers_pageOf (st : Statement) (rows : List (Int × Int)) (n k : Nat) :
    mirror.Answers novels (some ⟨"c1"⟩) (st.page n k) (stocked (pageOf n k rows))
      (pageOf n k (rows.map chapterRow)) := by
  rw [pageOf_map]
  exact answers_stocked _ _

/-- What comes back from a stocked world are the objects of its rows. -/
theorem objects_stocked {rows : List (Int × Int)} {objects : List Record}
    (h : withChapters.objectsOf novels (rows.map chapterRow) = .ok objects) :
    ((mirror.objects novels withChapters (some ⟨"c1"⟩)).runOn (stocked rows)).1 = .ok (some objects) := by
  obtain ⟨st, hbuild⟩ := build_novels
  exact (Session.objects_eq_some_iff hbuild (answers_stocked st rows)).mpr h

/-- The second page of two novels of one chapter each is the second novel. -/
theorem Select.pages_iff_one_chapter_each :
    ∃ p, Modifier.applyAll novels withChapters [.limit (.int 1), .offset (.int 1)] = .ok p ∧
      ((mirror.select novels p (some ⟨"c1"⟩)).runOn (stocked [(2, 20)])).1 =
        .ok (.list [.record (novelWith 2 [20])]) := by
  obtain ⟨st, hbuild⟩ := build_novels
  have hmapped : withChapters.objectsOf novels ([(1, 10), (2, 20)].map chapterRow) =
      .ok [novelWith 1 [10], novelWith 2 [20]] := by
    rw [objectsOf_chapters]
    cbv
  have hpages := (Select.pages_iff rfl rfl rfl hbuild (answers_stocked st [(1, 10), (2, 20)])
    (objects_stocked hmapped) (some ⟨"c1"⟩) (fun n k => stocked (pageOf n k [(1, 10), (2, 20)]))
    (answers_pageOf st [(1, 10), (2, 20)])).mpr (.inr rfl)
  exact hpages 1 1

/-- The chapters of two novels. -/
def fourChapters : List (Int × Int) := [(1, 1), (1, 2), (1, 3), (2, 4)]

/-- Four chapters make two novels. -/
theorem objectsOf_fourChapters : withChapters.objectsOf novels (fourChapters.map chapterRow) =
    .ok [novelWith 1 [1, 2, 3], novelWith 2 [4]] := by
  rw [objectsOf_chapters]
  cbv

/-- Two chapters make one novel. -/
theorem objectsOf_twoChapters : withChapters.objectsOf novels ([(1, 1), (1, 2)].map chapterRow) =
    .ok [novelWith 1 [1, 2]] := by
  rw [objectsOf_chapters]
  cbv

/-- The first page of two novels is one novel, without its last chapter. -/
theorem Select.page_of_two_novels :
    Repository.ofDeclaration mirror.settings (Mapper.serials (.list [.text "id"])) = .ok novels ∧
    ∃ st, withChapters.build mirror.database.dialect novels = .ok st ∧
      mirror.Answers novels (some ⟨"c1"⟩) st (stocked fourChapters) (fourChapters.map chapterRow) ∧
      (∀ n k, mirror.Answers novels (some ⟨"c1"⟩) (st.page n k) (stocked (pageOf n k fourChapters))
        (pageOf n k (fourChapters.map chapterRow))) ∧
      ((mirror.select novels withChapters (some ⟨"c1"⟩)).runOn (stocked fourChapters)).1 =
        .ok (.list ([novelWith 1 [1, 2, 3], novelWith 2 [4]].map .record)) ∧
      ∃ p, Modifier.applyAll novels withChapters [.limit (.int 2), .offset (.int 0)] = .ok p ∧
        ((mirror.select novels p (some ⟨"c1"⟩)).runOn (stocked (pageOf 2 0 fourChapters))).1 =
          .ok (.list ([novelWith 1 [1, 2]].map .record)) ∧
        ((mirror.select novels p (some ⟨"c1"⟩)).runOn (stocked (pageOf 2 0 fourChapters))).1 ≠
          .ok (.list ((pageOf 2 0 [novelWith 1 [1, 2, 3], novelWith 2 [4]]).map .record)) := by
  obtain ⟨st, hbuild⟩ := build_novels
  have hbuilt := build_page rfl rfl rfl hbuild 2 0
  have hobjects := (Session.objects_eq_some_iff hbuilt (answers_pageOf st fourChapters 2 0)).mpr
    objectsOf_twoChapters
  have hselect := Session.select_of_objects rfl hobjects
  refine ⟨rfl, st, hbuild, answers_stocked st fourChapters, answers_pageOf st fourChapters, ?_, _,
    applyAll_page novels withChapters 2 0, hselect, ?_⟩
  · exact Session.select_of_objects rfl (objects_stocked objectsOf_fourChapters)
  · rw [hselect]
    simp [pageOf]

end Pages

end Quarry
