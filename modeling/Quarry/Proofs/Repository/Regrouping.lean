import Quarry.Proofs.Repository.JoinedRow

/-!
# Joined rows as objects again

A mapper undoes a left join. The rows of each parent stand together and have one main object, whose
text no other parent shares; so they make one entry, which is the last while its rows are read. The
lists of this entry grow as those of `acceptAll` do, and in the end hold the parent's children.
-/

set_option autoImplicit false

namespace Quarry

namespace Mapper

/-! ## Mappers -/

section Making

variable {c : Codec} {m : Mapper}

/-- Without duplicates the relations have different names. -/
theorem names_eraseDupsBy (relations : List (String × Sql.Relation)) :
    ((relations.eraseDupsBy fun a b => a.1 == b.1).map (·.1)).Nodup := by
  have hloop (rest kept : List (String × Sql.Relation)) (h : (kept.map (·.1)).Nodup) :
      ((List.eraseDupsBy.loop (fun a b => a.1 == b.1) rest kept).map (·.1)).Nodup := by
    -- A relation joins those kept only if none of them has its name.
    induction rest generalizing kept with
    | nil => simpa [List.eraseDupsBy.loop] using h
    | cons r rest ih =>
      unfold List.eraseDupsBy.loop
      cases hkept : kept.any fun k => r.1 == k.1 with
      | true => exact ih kept h
      | false =>
        have hnew : r.1 ∉ kept.map (·.1) := by
          intro hmem
          obtain ⟨k, hk, hname⟩ := List.mem_map.mp hmem
          simpa [hname] using List.any_eq_false.mp hkept k hk
        exact ih (r :: kept) (List.nodup_cons.mpr ⟨hnew, h⟩)
  exact hloop relations [] List.nodup_nil

/-- The relations that are read have the names that were given, and no kinds. -/
theorem of_readRelated {relations : List (String × Sql.Relation)} {related : List Related}
    (h : readRelated c relations = .ok related) :
    related.map (·.name) = relations.map (·.1) ∧ ∀ r ∈ related, r.codec.kinds = [] := by
  induction relations generalizing related with
  | nil =>
    obtain rfl := Except.ok.inj h
    simp
  | cons named relations ih =>
    obtain ⟨codec, hcodec, h⟩ := bind_eq_ok.mp h
    obtain ⟨rest, hrest, h⟩ := bind_eq_ok.mp h
    obtain rfl := pure_eq_ok.mp h
    have hkinds : codec.kinds = [] := by
      obtain ⟨names, -, hcodec⟩ := bind_eq_ok.mp hcodec
      obtain ⟨items, -, hcodec⟩ := bind_eq_ok.mp hcodec
      obtain ⟨assigned, -, hcodec⟩ := bind_eq_ok.mp hcodec
      obtain ⟨fields, hfields, hcodec⟩ := bind_eq_ok.mp hcodec
      obtain ⟨declared, hdeclared, hcodec⟩ := bind_eq_ok.mp hcodec
      obtain rfl := Except.ok.inj hfields
      obtain rfl := Except.ok.inj hdeclared
      obtain rfl := pure_eq_ok.mp hcodec
      rfl
    obtain ⟨hnames, hall⟩ := ih hrest
    exact ⟨by rw [List.map_cons, List.map_cons, hnames], List.forall_mem_cons.mpr ⟨hkinds, hall⟩⟩

/-- The relations of a mapper have distinct names, and their columns no declared kinds. -/
theorem of_make {chosen : List Value} {relations : List (String × Sql.Relation)}
    (h : make c chosen relations = .ok m) :
    (m.related.map (·.name)).Nodup ∧ ∀ r ∈ m.related, r.codec.kinds = [] := by
  obtain ⟨related, hrelated, h⟩ := bind_eq_ok.mp h
  obtain rfl := pure_eq_ok.mp h
  obtain ⟨hnames, hkinds⟩ := of_readRelated hrelated
  exact ⟨hnames ▸ names_eraseDupsBy relations, hkinds⟩

end Making

/-- The names of the columns of all relations. -/
def labels (m : Mapper) : List String := m.related.flatMap Related.labels

/-- Whether a mapper brings together rows in which all that it looks for has a name of its own: each
relation may have many objects and has declared keys, is named like no key, and shares no column
alias with another relation or with the main table. -/
structure Separates (m : Mapper) : Prop where
  hasMany : ∀ r ∈ m.related, r.relation.kind = .hasMany
  declared : ∀ r ∈ m.related, r.relation.declaredKeys ≠ []
  names : ∀ r ∈ m.related, r.name ∉ m.codec.keys
  labels : m.labels.Nodup
  columns : ∀ label ∈ m.labels, label ∉ m.codec.columnNames

/-! ## Main objects -/

section Main

variable {m : Mapper} {main tail object : Record}

/-- A table has the columns of its keys for its own. -/
theorem isOwn_iff {name : String} : m.isOwn name = true ↔ name ∈ m.codec.columnNames := by simp [isOwn]

/-- The columns of the main table are claimed. -/
theorem isClaimed_of_mem_columnNames {name : String} (h : name ∈ m.codec.columnNames) :
    m.isClaimed name = true := by
  simp [isClaimed, isOwn_iff.mpr h]

/-- The columns of a relation with declared keys are claimed. -/
theorem isClaimed_aliasOf {r : Related} (hr : r ∈ m.related) (column : String) :
    m.isClaimed (r.relation.aliasOf column) = true := by
  have halias : m.isAlias (r.relation.aliasOf column) = true :=
    List.any_eq_true.mpr ⟨r, hr, by simp [Sql.Relation.aliasOf]⟩
  simp [isClaimed, halias]

/-- All labels are claimed. -/
theorem isClaimed_of_mem_labels {name : String} (h : name ∈ m.labels) : m.isClaimed name = true := by
  obtain ⟨r, hr, h⟩ := List.mem_flatMap.mp h
  obtain ⟨column, -, rfl⟩ := List.mem_map.mp h
  exact isClaimed_aliasOf hr column

/-- The main object does not depend on the columns of relations behind those of the main table. -/
theorem mainObject_append (hcolumns : ∀ column ∈ m.codec.columnNames, column ∉ Record.names tail)
    (htail : ∀ f ∈ tail, m.isClaimed f.1 = true) :
    m.mainObject (.record (main ++ tail)) = m.mainObject (.record main) := by
  have hextra : tail.filter (fun f => !m.isClaimed f.1) = [] :=
    List.filter_eq_nil_iff.mpr fun f hf => by simp [htail f hf]
  unfold mainObject
  rw [Codec.toObject_append hcolumns]
  simp [rowFields, hextra, bind, Except.bind]

/-- Setting a default adds at most its name. -/
theorem names_setDefault {name name' : String} {v : Value}
    (h : name ∈ Record.names (Record.setDefault name' v object)) :
    name ∈ Record.names object ∨ name = name' := by
  unfold Record.setDefault at h
  split_ifs at h
  · exact .inl h
  · simpa [Record.names] using h

/-- The fields of a main object are named by keys or by columns that are passed on. -/
theorem of_mem_names_mainObject {name : String} (h : m.mainObject (.record main) = .ok object)
    (hname : name ∈ Record.names object) :
    name ∈ m.codec.keys ∨ ∃ f ∈ main, m.isClaimed f.1 = false ∧ f.1 = name := by
  -- What is passed on is added field by field, and only under its own name.
  have hfold (extra object : Record)
      (hmem : name ∈ Record.names (extra.foldl (fun o f => Record.setDefault f.1 f.2 o) object)) :
      name ∈ Record.names object ∨ ∃ f ∈ extra, f.1 = name := by
    induction extra generalizing object with
    | nil => exact .inl hmem
    | cons f extra ih =>
      obtain hmem | ⟨g, hg, hname⟩ := ih _ hmem
      · obtain hmem | rfl := names_setDefault hmem
        · exact .inl hmem
        · exact .inr ⟨f, List.mem_cons_self, rfl⟩
      · exact .inr ⟨g, List.mem_cons_of_mem _ hg, hname⟩
  obtain ⟨keyed, hkeyed, h⟩ := bind_eq_ok.mp h
  have hkeys := (Codec.names_of_decodeKeys hkeyed).subset
  split_ifs at h
  · obtain rfl : _ = object := by simpa [rowFields, pure, Except.pure, bind, Except.bind] using h
    obtain hmem | ⟨f, hf, rfl⟩ := hfold _ _ hname
    · exact .inl (hkeys hmem)
    · obtain ⟨hf, hclaimed⟩ := List.mem_filter.mp hf
      exact .inr ⟨f, hf, by simpa using hclaimed, rfl⟩
  · obtain rfl := pure_eq_ok.mp h
    exact .inl (hkeys hname)

end Main

/-! ## Growing lists -/

/-- Fields for relations, each with a list. -/
def holding (related : List Related) (lists : List (List Value)) : Record :=
  List.zipWith (fun r children => (r.name, .list children)) related lists

/-- What becomes of a parent by its rows. -/
def placeAll (m : Mapper) (rows : List Value) (parent : Record) : Except Error Record :=
  rows.foldlM (fun parent row => m.placeChildren row parent m.related) parent

/-- Rows place their children one after the other. -/
theorem placeAll_cons (m : Mapper) (row : Value) (rows : List Value) (parent : Record) :
    m.placeAll (row :: rows) parent = m.placeChildren row parent m.related >>= m.placeAll rows :=
  List.foldlM_cons

section Placing

variable {m : Mapper} {row : Value} {r : Related} {related : List Related} {front back : Record}
  {choices : List (Option Record)} {lists grown : List (List Value)}

/-- The lists of all relations are held one behind the other. -/
theorem append_holding_cons (children : List Value) :
    front ++ holding (r :: related) (children :: lists) =
      front ++ [(r.name, .list children)] ++ holding related lists := by
  rw [List.append_assoc]
  rfl

/-- The name of a relation stays new to the others. -/
theorem name_not_mem_behind (v : Value) (hname : r.name ∉ related.map (·.name))
    (hfront : ∀ q ∈ related, q.name ∉ Record.names front) :
    ∀ q ∈ related, q.name ∉ Record.names (front ++ [(r.name, v)]) := by
  intro q hq hmem
  rw [Record.names_append] at hmem
  obtain hmem | hmem := List.mem_append.mp hmem
  · exact hfront q hq hmem
  · have hsame : q.name = r.name := List.mem_singleton.mp hmem
    exact hname (hsame ▸ List.mem_map_of_mem hq)

/-- A child is placed into the list of its relation. -/
theorem placeChild_holding {child : Record} {children more : List Value}
    (hmany : r.relation.kind = .hasMany) (hname : r.name ∉ Record.names front)
    (h : addChild child children = .ok more) :
    placeChild (front ++ holding (r :: related) (children :: lists)) r child =
      .ok (front ++ holding (r :: related) (more :: lists)) := by
  have hget : Record.getD r.name (front ++ holding (r :: related) (children :: lists)) =
      .list children := by
    simp [Record.getD, Record.get?_append, Record.get?_eq_none hname, holding, Record.get?]
  have hset : Record.set r.name (.list more) (front ++ holding (r :: related) (children :: lists)) =
      front ++ holding (r :: related) (more :: lists) := by
    simp [Record.set_append hname, holding, Record.set]
  unfold placeChild
  rw [hmany, hget]
  simp [h, hset]

/-- A row lets the list of each relation grow by what it brings for the relation. -/
theorem placeChildren_holding
    (hbrings : List.Forall₂ (fun r choice => m.relatedObject? row r = .ok choice) related choices)
    (hmany : ∀ r ∈ related, r.relation.kind = .hasMany) (hnames : (related.map (·.name)).Nodup)
    (hfront : ∀ r ∈ related, r.name ∉ Record.names front) (hlength : lists.length = related.length)
    (h : acceptEach choices lists = .ok grown) :
    m.placeChildren row (front ++ holding related lists) related =
      .ok (front ++ holding related grown) := by
  -- A field goes to the front once its list has grown.
  induction hbrings generalizing front lists grown with
  | nil => simp [placeChildren, holding]
  | @cons r choice related choices hchoice hrest ih =>
    obtain ⟨children, lists, rfl⟩ := List.exists_cons_of_length_eq_add_one hlength
    obtain ⟨more, hmore, h⟩ := bind_eq_ok.mp h
    obtain ⟨others, hothers, h⟩ := bind_eq_ok.mp h
    obtain rfl := pure_eq_ok.mp h
    obtain ⟨hr, hmany⟩ := List.forall_mem_cons.mp hmany
    obtain ⟨hname, hfront⟩ := List.forall_mem_cons.mp hfront
    rw [List.map_cons, List.nodup_cons] at hnames
    have hbehind := name_not_mem_behind (.list more) hnames.1 hfront
    have hothers := ih hmany hnames.2 hbehind (Nat.succ.inj hlength) hothers
    rw [← append_holding_cons, ← append_holding_cons] at hothers
    unfold placeChildren
    refine bind_eq_ok.mpr ⟨choice, hchoice, ?_⟩
    cases choice with
    | none =>
      obtain rfl := Except.ok.inj hmore
      exact hothers
    | some child => exact bind_eq_ok.mpr ⟨_, placeChild_holding hr hname hmore, hothers⟩

/-- Each list stays, whether it grows or not. -/
theorem length_of_acceptEach (hlengths : choices.length = lists.length)
    (h : acceptEach choices lists = .ok grown) : grown.length = lists.length := by
  induction choices generalizing lists grown with
  | nil =>
    obtain rfl := List.length_eq_zero_iff.mp hlengths.symm
    obtain rfl := Except.ok.inj h
    rfl
  | cons choice choices ih =>
    obtain ⟨children, lists, rfl⟩ := List.exists_cons_of_length_eq_add_one hlengths.symm
    obtain ⟨more, -, h⟩ := bind_eq_ok.mp h
    obtain ⟨others, hothers, h⟩ := bind_eq_ok.mp h
    obtain rfl := pure_eq_ok.mp h
    rw [List.length_cons, List.length_cons, ih (Nat.succ.inj hlengths) hothers]

/-- The rows of a parent let its lists grow as adding what they bring does. -/
theorem placeAll_holding {rows : List Value} {brought : List (List (Option Record))}
    {object : Record}
    (hbrings : List.Forall₂ (fun row choices =>
      List.Forall₂ (fun r choice => m.relatedObject? row r = .ok choice) m.related choices)
      rows brought)
    (hmany : ∀ r ∈ m.related, r.relation.kind = .hasMany)
    (hnames : (m.related.map (·.name)).Nodup)
    (hobject : ∀ r ∈ m.related, r.name ∉ Record.names object)
    (hlength : lists.length = m.related.length) (h : acceptAll brought lists = .ok grown) :
    m.placeAll rows (object ++ holding m.related lists) =
      .ok (object ++ holding m.related grown) := by
  induction hbrings generalizing lists with
  | nil =>
    obtain rfl := Except.ok.inj h
    rfl
  | @cons row choices rows brought hrow _ ih =>
    rw [acceptAll_cons] at h
    obtain ⟨next, hnext, h⟩ := bind_eq_ok.mp h
    have hplaced := placeChildren_holding hrow hmany hnames hobject hlength hnext
    have hnextLength : next.length = m.related.length :=
      (length_of_acceptEach (hrow.length_eq.symm.trans hlength.symm) hnext).trans hlength
    have hothers := ih hnextLength h
    rw [placeAll_cons]
    exact bind_eq_ok.mpr ⟨_, hplaced, hothers⟩

/-- The places for children are empty lists behind the object. -/
theorem withPlaces_eq {object : Record} (hmany : ∀ r ∈ m.related, r.relation.kind = .hasMany)
    (hnames : (m.related.map (·.name)).Nodup)
    (hobject : ∀ r ∈ m.related, r.name ∉ Record.names object) :
    m.withPlaces object = object ++ holding m.related (m.related.map fun _ => []) := by
  unfold withPlaces
  generalize m.related = related at hmany hnames hobject
  induction related generalizing object with
  | nil => simp [holding]
  | cons r related ih =>
    obtain ⟨hr, hmany⟩ := List.forall_mem_cons.mp hmany
    obtain ⟨hname, hobject⟩ := List.forall_mem_cons.mp hobject
    rw [List.map_cons, List.nodup_cons] at hnames
    have hset : Record.set r.name (.list []) object = object ++ [(r.name, .list [])] := by
      simpa [Record.set] using Record.set_append hname (.list []) []
    have hbehind := name_not_mem_behind (.list []) hnames.1 hobject
    rw [List.foldl_cons, if_pos hr, hset, ih hmany hnames.2 hbehind, List.append_assoc]
    rfl

end Placing

/-! ## Bringing rows together -/

section Grouping

variable {m : Mapper} {key : String} {done : List (String × Record)} {object parent grown : Record}
  {rows : List Value}

/-- A key that earlier entries lack is looked for behind them. -/
theorem alter_append {fresh : Record} {change : Record → Except Error Record}
    {entries altered : List (String × Record)} (hkey : key ∉ done.map (·.1))
    (h : alter key fresh change entries = .ok altered) :
    alter key fresh change (done ++ entries) = .ok (done ++ altered) := by
  induction done with
  | nil => exact h
  | cons entry done ih =>
    obtain ⟨k, other⟩ := entry
    obtain ⟨hk, hdone⟩ : key ≠ k ∧ key ∉ done.map (·.1) := by simpa using hkey
    simp [alter, Ne.symm hk, ih hdone]

/-- Rows are grouped one after the other. -/
theorem group_append (parents : List (String × Record)) (rows more : List Value) :
    m.group parents (rows ++ more) = m.group parents rows >>= fun grown => m.group grown more := by
  induction rows generalizing parents with
  | nil => rfl
  | cons row rows ih => simp only [List.cons_append, group, bind_assoc, ih]

/-- Further rows of the last parent change its entry only. -/
theorem group_last (hrows : ∀ row ∈ rows, m.mainObject row = .ok object)
    (hkey : groupKey object ∉ done.map (·.1)) (h : m.placeAll rows parent = .ok grown) :
    m.group (done ++ [(groupKey object, parent)]) rows =
      .ok (done ++ [(groupKey object, grown)]) := by
  induction rows generalizing parent with
  | nil =>
    obtain rfl := Except.ok.inj h
    rfl
  | cons row rows ih =>
    obtain ⟨hrow, hrows⟩ := List.forall_mem_cons.mp hrows
    rw [placeAll_cons] at h
    obtain ⟨next, hnext, h⟩ := bind_eq_ok.mp h
    have hentry : alter (groupKey object) (m.withPlaces object)
        (fun parent => m.placeChildren row parent m.related) [(groupKey object, parent)] =
        .ok [(groupKey object, next)] := by simp [alter, hnext]
    have haltered := alter_append hkey hentry
    exact bind_eq_ok.mpr ⟨object, hrow, bind_eq_ok.mpr ⟨_, haltered, ih hrows h⟩⟩

/-- The rows of a new parent make one entry behind the others. -/
theorem group_new (hsome : rows ≠ []) (hrows : ∀ row ∈ rows, m.mainObject row = .ok object)
    (hkey : groupKey object ∉ done.map (·.1))
    (h : m.placeAll rows (m.withPlaces object) = .ok grown) :
    m.group done rows = .ok (done ++ [(groupKey object, grown)]) := by
  obtain ⟨row, rest, rfl⟩ := List.exists_cons_of_ne_nil hsome
  obtain ⟨hrow, hrest⟩ := List.forall_mem_cons.mp hrows
  rw [placeAll_cons] at h
  obtain ⟨next, hnext, h⟩ := bind_eq_ok.mp h
  have hentry : alter (groupKey object) (m.withPlaces object)
      (fun parent => m.placeChildren row parent m.related) [] = .ok [(groupKey object, next)] := by
    simp [alter, hnext]
  have haltered := alter_append hkey hentry
  rw [List.append_nil] at haltered
  exact bind_eq_ok.mpr ⟨object, hrow, bind_eq_ok.mpr ⟨_, haltered, group_last hrest hkey h⟩⟩

end Grouping

end Mapper

/-! ## Families -/

/-- A parent with its children, as they are stored and as they are read: the columns that a select
brings of the main table, the object read from them, and the children for each relation of the
mapper. A column that is passed on is named like no relation. -/
structure Family (m : Mapper) where
  main : Record
  object : Record
  offspring : List Offspring
  decodes : m.mainObject (.record main) = .ok object
  complete : offspring.map (·.related) = m.related
  apart : ∀ label ∈ m.labels, label ∉ Record.names main
  passedOn : ∀ f ∈ main, m.isClaimed f.1 = false → ∀ r ∈ m.related, r.name ≠ f.1

namespace Family

variable {m : Mapper}

/-- The rows of the left join for the parent. -/
def rows (f : Family m) : List Value :=
  (Offspring.tails f.offspring).map fun tail => .record (f.main ++ tail)

/-- The parent with the list of its children under the name of each relation. -/
def assembled (f : Family m) : Record :=
  f.object ++ f.offspring.map fun o => (o.related.name, .list (o.decoded.map .record))

/-- The labels of a family's children are those of the relations. -/
theorem labels_offspring (f : Family m) : Offspring.labels f.offspring = m.labels := by
  unfold Mapper.labels Offspring.labels
  rw [← f.complete, List.flatMap_map]

/-- All rows of a family have its object as the main one. -/
theorem mainObject_of_mem_rows (hm : m.Separates) (f : Family m) {row : Value} (h : row ∈ f.rows) :
    m.mainObject row = .ok f.object := by
  obtain ⟨tail, htail, rfl⟩ := List.mem_map.mp h
  have hnames : Record.names tail = m.labels :=
    (Offspring.names_of_mem_tails htail).trans f.labels_offspring
  have hcolumns : ∀ column ∈ m.codec.columnNames, column ∉ Record.names tail :=
    fun column hcolumn hmem => hm.columns column (hnames ▸ hmem) hcolumn
  have hclaimed : ∀ field ∈ tail, m.isClaimed field.1 = true := fun field hfield =>
    Mapper.isClaimed_of_mem_labels (hnames ▸ List.mem_map_of_mem hfield)
  rw [Mapper.mainObject_append hcolumns hclaimed]
  exact f.decodes

/-- The object of a family has no relation's name. -/
theorem name_not_mem_object (hm : m.Separates) (f : Family m) :
    ∀ r ∈ m.related, r.name ∉ Record.names f.object := by
  intro r hr hmem
  obtain hkey | ⟨field, hfield, hclaimed, hname⟩ := Mapper.of_mem_names_mainObject f.decodes hmem
  · exact hm.names r hr hkey
  · exact f.passedOn field hfield hclaimed r hr hname.symm

/-- The rows of a family bring all its children, each list in its order. -/
theorem placeAll_rows {c : Codec} {chosen : List Value} {relations : List (String × Sql.Relation)}
    (hmake : Mapper.make c chosen relations = .ok m) (hm : m.Separates) (f : Family m) :
    m.placeAll f.rows (m.withPlaces f.object) = .ok f.assembled := by
  obtain ⟨hnames, hkinds⟩ := Mapper.of_make hmake
  have hobject := f.name_not_mem_object hm
  have hplain : ∀ o ∈ f.offspring, o.related.IsPlain := by
    intro o ho
    have hmem : o.related ∈ m.related := f.complete ▸ List.mem_map_of_mem ho
    have hlabels : o.related.labels.Nodup := (List.nodup_flatMap.mp hm.labels).1 _ hmem
    exact ⟨by simpa using hm.declared _ hmem, hkinds _ hmem, hlabels.of_map⟩
  have hlabels : (Offspring.labels f.offspring).Nodup := f.labels_offspring ▸ hm.labels
  have hbrings : List.Forall₂ (fun row choices =>
      List.Forall₂ (fun r choice => m.relatedObject? row r = .ok choice) m.related choices)
      f.rows (Mapper.choices (f.offspring.map (·.decoded))) := by
    refine List.forall₂_map_left_iff.mpr ((Offspring.tails_bring m hplain hlabels).imp ?_)
    intro tail choices htail
    have hfront := htail f.main fun label hlabel => f.apart label (f.labels_offspring ▸ hlabel)
    rw [← f.complete, List.forall₂_map_left_iff]
    exact hfront
  have haccepted := Mapper.acceptAll_choices fun children hchildren => by
    obtain ⟨o, ho, rfl⟩ := List.mem_map.mp hchildren
    exact Offspring.distinct (hplain o ho)
  -- The lists are those of the relations, empty at first and complete in the end.
  have hempty : (f.offspring.map (·.decoded)).map (fun _ => ([] : List Value)) =
      m.related.map fun _ => [] := by simp [← f.complete, Function.comp_def]
  rw [hempty] at haccepted
  rw [Mapper.withPlaces_eq hm.hasMany hnames hobject, Mapper.placeAll_holding hbrings hm.hasMany hnames
    hobject (by simp) haccepted]
  have hlists : Mapper.holding m.related ((f.offspring.map (·.decoded)).map (·.map .record)) =
      f.offspring.map fun o => (o.related.name, .list (o.decoded.map .record)) := by
    rw [← f.complete]
    simp [Mapper.holding, List.zipWith_map]
  rw [hlists]
  rfl

end Family

namespace Mapper

/-- Grouping the rows of families, one family after the other, makes one entry for each. -/
theorem group_families {c : Codec} {chosen : List Value}
    {relations : List (String × Sql.Relation)} {m : Mapper}
    (hmake : make c chosen relations = .ok m) (hm : m.Separates) (families : List (Family m))
    (done : List (String × Record))
    (hkeys : (done.map (·.1) ++ families.map fun f => groupKey f.object).Nodup) :
    m.group done (families.flatMap Family.rows) =
      .ok (done ++ families.map fun f => (groupKey f.object, f.assembled)) := by
  -- No later row has the key of an earlier family, so what is done stays as it is.
  induction families generalizing done with
  | nil => simp [group]
  | cons f families ih =>
    have hkey : groupKey f.object ∉ done.map (·.1) := fun hmem =>
      (List.nodup_append.mp hkeys).2.2 _ hmem _ List.mem_cons_self rfl
    have hsome : f.rows ≠ [] := by simpa [Family.rows] using Offspring.tails_ne_nil f.offspring
    have hfirst := group_new hsome (fun row hrow => f.mainObject_of_mem_rows hm hrow) hkey
      (f.placeAll_rows hmake hm)
    have hrest := ih (done ++ [(groupKey f.object, f.assembled)]) (by simpa using hkeys)
    rw [List.append_assoc] at hrest
    rw [List.flatMap_cons, group_append]
    exact bind_eq_ok.mpr ⟨_, hfirst, hrest⟩

/-- Without relations each family has one row and no lists. -/
theorem mapM_families {m : Mapper} (hrelated : m.related = []) (families : List (Family m)) :
    (families.flatMap Family.rows).mapM (fun row => do m.nest row (← m.mainObject row) m.related) =
      .ok (families.map Family.assembled) := by
  have hoffspring (f : Family m) : f.offspring = [] :=
    List.map_eq_nil_iff.mp (f.complete.trans hrelated)
  have hrows (f : Family m) : f.rows = [.record f.main] := by
    simp [Family.rows, hoffspring, Offspring.tails]
  have hassembled (f : Family m) : f.assembled = f.object := by
    simp [Family.assembled, hoffspring]
  refine mapM_eq_ok_iff.mpr ?_
  induction families with
  | nil => exact .nil
  | cons f families ih =>
    have hnest : m.nest (.record f.main) f.object m.related = .ok f.assembled := by
      rw [hrelated, hassembled]
      rfl
    rw [List.flatMap_cons, hrows, List.singleton_append, List.map_cons]
    exact .cons (bind_eq_ok.mpr ⟨f.object, f.decodes, hnest⟩) ih

/-- A mapper undoes a left join: from the rows of families, one family after the other, it makes the
parents in their order, each with the lists of its children in theirs. -/
theorem objects_families {c : Codec} {chosen : List Value}
    {relations : List (String × Sql.Relation)} {m : Mapper}
    (hmake : make c chosen relations = .ok m) (hm : m.Separates) (families : List (Family m))
    (hkeys : (families.map fun f => groupKey f.object).Nodup) :
    m.objects (families.flatMap Family.rows) = .ok (families.map Family.assembled) := by
  unfold objects
  by_cases hrelated : m.related = []
  · have hnone : m.hasChildren = false := by simp [hasChildren, hrelated]
    rw [if_neg (by simp [hnone])]
    exact mapM_families hrelated families
  · have hsome : m.hasChildren = true := by
      obtain ⟨r, hr⟩ := List.exists_mem_of_ne_nil _ hrelated
      exact List.any_eq_true.mpr ⟨r, hr, by simp [hm.hasMany r hr]⟩
    have hgroup := group_families hmake hm families [] (by simpa using hkeys)
    rw [if_pos hsome, hgroup]
    simp [Function.comp_def, pure, Except.pure, bind, Except.bind]

/-- Two novels, with chapters and tags that each row pairs, and without chapters. -/
theorem objects_families_of_novels :
    let chapters : Related := ⟨"chapters",
      ⟨.text "chapter", .text "id", .text "novel_id", .hasMany, none,
        some [.text "id", .text "isRead"]⟩, ⟨["id", "isRead"], [], [], true, true⟩⟩
    let tags : Related := ⟨"tags",
      ⟨.text "tag", .text "id", .text "novel_id", .hasMany, none, some [.text "name"]⟩,
      ⟨["name"], [], [], true, true⟩⟩
    let m : Mapper := ⟨⟨["id"], [], [], true, true⟩, false, [chapters, tags]⟩
    make m.codec [] [("chapters", chapters.relation), ("tags", tags.relation)] = .ok m ∧
      m.Separates ∧ ∃ families : List (Family m),
        (families.map fun f => groupKey f.object).Nodup ∧
        families.flatMap Family.rows =
          [.record [("id", .int 1), ("chapter__id", .int 1), ("chapter__is_read", .int 0),
              ("tag__name", .text "war")],
            .record [("id", .int 1), ("chapter__id", .int 1), ("chapter__is_read", .int 0),
              ("tag__name", .text "peace")],
            .record [("id", .int 1), ("chapter__id", .int 2), ("chapter__is_read", .null),
              ("tag__name", .text "war")],
            .record [("id", .int 1), ("chapter__id", .int 2), ("chapter__is_read", .null),
              ("tag__name", .text "peace")],
            .record [("id", .int 2), ("chapter__id", .null), ("chapter__is_read", .null),
              ("tag__name", .text "war")]] ∧
        m.objects (families.flatMap Family.rows) =
          .ok [[("id", .int 1),
              ("chapters", .list [.record [("id", .int 1), ("isRead", .bool false)],
                .record [("id", .int 2), ("isRead", .null)]]),
              ("tags", .list [.record [("name", .text "war")], .record [("name", .text "peace")]])],
            [("id", .int 2), ("chapters", .list []),
              ("tags", .list [.record [("name", .text "war")]])]] := by
  intro chapters tags m
  have hmake : make m.codec [] [("chapters", chapters.relation), ("tags", tags.relation)] = .ok m :=
    rfl
  have hm : m.Separates := ⟨by decide, by decide, by decide, by decide, by decide⟩
  let written : Offspring :=
    ⟨chapters, [[("id", .int 1), ("is_read", .int 0)], [("id", .int 2), ("is_read", .null)]],
      [[("id", .int 1), ("isRead", .bool false)], [("id", .int 2), ("isRead", .null)]],
      by decide, by decide, by decide, rfl, by decide⟩
  let unwritten : Offspring := ⟨chapters, [], [], by decide, by decide, by decide, rfl, by decide⟩
  let warAndPeace : Offspring :=
    ⟨tags, [[("name", .text "war")], [("name", .text "peace")]],
      [[("name", .text "war")], [("name", .text "peace")]],
      by decide, by decide, by decide, rfl, by decide⟩
  let war : Offspring :=
    ⟨tags, [[("name", .text "war")]], [[("name", .text "war")]],
      by decide, by decide, by decide, rfl, by decide⟩
  let families : List (Family m) :=
    [⟨[("id", .int 1)], [("id", .int 1)], [written, warAndPeace], rfl, rfl, by decide, by decide⟩,
      ⟨[("id", .int 2)], [("id", .int 2)], [unwritten, war], rfl, rfl, by decide, by decide⟩]
  have hkeys : (families.map fun f => groupKey f.object).Nodup := by decide +kernel
  exact ⟨hmake, hm, families, hkeys, rfl, objects_families hmake hm families hkeys⟩

end Mapper

end Quarry
