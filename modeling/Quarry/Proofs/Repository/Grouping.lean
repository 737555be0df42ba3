import Quarry.Proofs.Repository.Nested
import Quarry.Proofs.Repository.Reference

/-!
# Grouping

A mapper goes through the rows once and changes the parents that it finds by their texts. The loop
keeps up that the parents are those that the reference gives for the rows so far
(`Mapper.group_gives`): a row alters the parent of its group and no other, or adds one at the end,
and it adds a child to a list exactly where the child equals none of those that are kept.

Where children hold undefined numbers, a comparison may fail; otherwise the reference is what
grouping gives. In rows without undefined numbers no child holds one.
-/

set_option autoImplicit false

namespace Quarry

/-! ## Results that may be missing -/

section Gives

variable {α β : Type} {p q : Prop} {x : Except Error α} {f : α → Except Error β} {a : α} {b : β}

/-- Whether a computation has a result unless something is the case, and then fails. -/
def GivesUnless (p : Prop) (x : Except Error α) (a : α) : Prop := x = .ok a ∨ p ∧ ∃ e, x = .error e

/-- The exception may be widened. -/
theorem GivesUnless.mono (h : GivesUnless p x a) (hpq : p → q) : GivesUnless q x a :=
  h.imp_right fun hfails => ⟨hpq hfails.1, hfails.2⟩

/-- Two steps give a result unless there is the exception. -/
theorem GivesUnless.bind (hx : GivesUnless p x a) (hf : GivesUnless p (f a) b) :
    GivesUnless p (x >>= f) b := by
  obtain rfl | ⟨hp, e, rfl⟩ := hx
  · exact hf
  · exact .inr ⟨hp, e, rfl⟩

/-- What is given is the one result. -/
theorem GivesUnless.eq_of_ok {a' : α} (h : GivesUnless p x a) (hx : x = .ok a') : a' = a := by
  obtain hok | ⟨-, e, hfails⟩ := h
  · exact Except.ok.inj (hx.symm.trans hok)
  · exact nomatch hx.symm.trans hfails

/-- Without the exception the result is given. -/
theorem GivesUnless.eq_ok (h : GivesUnless p x a) (hp : ¬p) : x = .ok a :=
  h.resolve_right fun hfails => hp hfails.1

end Gives

namespace Mapper

open Reading

/-- Whether something is what a mapper reads in a row. -/
def Finds (m : Mapper) (row : Value) (x : Reading) : Prop :=
  m.mainObject row = .ok x.main ∧ ∀ r ∈ m.related, m.relatedObject? row r = .ok (x.child r)

/-! ## Children -/

section Children

variable {child : Record} {children : List Record} {r : Related} {x : Reading} {group : List Reading}
  {parent : Record}

/-- Children are compared up to the first that is equal, unless a number is undefined. -/
theorem isAmong_gives (child : Record) (children : List Record) :
    GivesUnless (¬∀ c ∈ child :: children, (Value.record c).isSteady = true)
      (isAmong child (children.map .record))
      (children.any fun c => Value.same (.record c) (.record child)) := by
  induction children with
  | nil => exact .inl rfl
  | cons c rest ih =>
    rw [List.map_cons, isAmong, List.any_cons, Value.same]
    cases hsame : Value.same? (.record c) (.record child) with
    | some b =>
      cases b with
      | true => exact .inl rfl
      | false =>
        refine ih.mono fun hnot hall => hnot ?_
        intro d hd
        obtain rfl | hd := List.mem_cons.mp hd
        · exact hall d List.mem_cons_self
        · exact hall d (List.mem_cons_of_mem _ (List.mem_cons_of_mem _ hd))
    | none =>
      refine .inr ⟨fun hall => ?_, _, rfl⟩
      obtain ⟨b, hb⟩ := Value.exists_same? (hall c (by simp)) (hall child (by simp))
      rw [hsame] at hb
      cases hb

/-- A child is added where it equals none of those before it. -/
theorem addChild_gives (child : Record) (children : List Record) :
    GivesUnless (¬∀ c ∈ children ++ [child], (Value.record c).isSteady = true)
      (addChild child ((distinct children).map .record))
      ((distinct (children ++ [child])).map .record) := by
  have hamong := (isAmong_gives child (distinct children)).mono
    (q := ¬∀ c ∈ children ++ [child], (Value.record c).isSteady = true) fun hnot hall => hnot ?_
  · refine hamong.bind (.inl ?_)
    rw [distinct_append_singleton]
    split_ifs <;> simp [pure, Except.pure]
  · intro c hc
    obtain rfl | hc := List.mem_cons.mp hc
    · exact hall c (List.mem_append_right _ List.mem_cons_self)
    · exact hall c (List.mem_append_left _ ((firstsBy_sublist _ [] children).subset hc))

/-- The child of a row is put to those of the rows before it. -/
theorem placeChild_gives (hchild : x.child r = some child)
    (hheld : Record.get? r.name parent = some (gathered r group)) :
    GivesUnless (¬∀ c ∈ group.filterMap (·.child r) ++ [child], (Value.record c).isSteady = true)
      (placeChild parent r child) (parent.set r.name (gathered r (group ++ [x]))) := by
  have hgetD : parent.getD r.name = gathered r group := by rw [Record.getD, hheld, Option.getD_some]
  have hchildren : (group ++ [x]).filterMap (·.child r) = group.filterMap (·.child r) ++ [child] := by
    simp [hchild]
  unfold placeChild
  rw [hgetD]
  unfold gathered at hheld ⊢
  rw [hchildren]
  dsimp only at hheld ⊢
  by_cases hmany : r.relation.kind = .hasMany
  · simp only [hmany, if_true]
    exact (addChild_gives child _).bind (.inl rfl)
  · rw [if_neg hmany] at hheld
    simp only [if_neg hmany]
    cases hbefore : group.filterMap (·.child r) with
    | nil =>
      refine .inl ?_
      cases hkind : r.relation.kind <;> first | exact absurd hkind hmany | rfl
    | cons first rest =>
      rw [hbefore] at hheld
      have hstays : Record.set r.name (.record first) parent = parent := Record.set_of_get? hheld
      refine .inl ?_
      simp only [List.cons_append, List.head?_cons, Value.ofOption, hstays]
      cases hkind : r.relation.kind <;> first | exact absurd hkind hmany | rfl

end Children

/-! ## Objects of groups -/

section Objects

variable {m : Mapper} {row : Value} {x y : Reading} {group : List Reading} {related : List Related}
  {parent : Record}

/-- The places for children are those of no rows. -/
theorem withPlaces_eq_overlay (m : Mapper) (object : Record) :
    m.withPlaces object = overlay (gathered · []) m.related object := by
  have hplace (r : Related) :
      gathered r [] = if r.relation.kind = .hasMany then .list [] else .null := by
    unfold gathered
    split_ifs <;> rfl
  simp only [withPlaces, overlay, hplace]

/-- A row adds its children to an object that holds those of other rows. -/
theorem placeChildren_gives (hfinds : ∀ r ∈ related, m.relatedObject? row r = .ok (x.child r))
    (hnames : (related.map (·.name)).Nodup)
    (hheld : ∀ r ∈ related, Record.get? r.name parent = some (gathered r group)) :
    GivesUnless (¬AreSteady related (group ++ [x])) (m.placeChildren row parent related)
      (overlay (gathered · (group ++ [x])) related parent) := by
  induction related generalizing parent with
  | nil => exact .inl rfl
  | cons r related ih =>
    obtain ⟨hr, hfinds⟩ := List.forall_mem_cons.mp hfinds
    obtain ⟨hheldr, hheld⟩ := List.forall_mem_cons.mp hheld
    rw [List.map_cons, List.nodup_cons] at hnames
    have hrest (parent : Record)
        (hheld : ∀ q ∈ related, Record.get? q.name parent = some (gathered q group)) :=
      (ih hfinds hnames.2 hheld).mono (q := ¬AreSteady (r :: related) (group ++ [x]))
        fun hnot hall => hnot fun y hy q hq => hall y hy q (List.mem_cons_of_mem _ hq)
    rw [placeChildren, hr]
    cases hchild : x.child r with
    | none =>
      show GivesUnless _ (m.placeChildren row parent related)
        (overlay _ related (parent.set r.name (gathered r (group ++ [x]))))
      rw [gathered_of_none hchild, Record.set_of_get? hheldr]
      exact hrest parent hheld
    | some child =>
      have hplaced := (placeChild_gives hchild hheldr).mono (q := ¬AreSteady (r :: related) (group ++ [x]))
        fun hnot hall => hnot ?_
      · refine hplaced.bind (hrest _ fun q hq => ?_)
        have hne : q.name ≠ r.name := fun heq => hnames.1 (heq ▸ List.mem_map_of_mem hq)
        rw [Record.get?_set_of_ne hne]
        exact hheld q hq
      · intro c hc
        obtain hc | hc := List.mem_append.mp hc
        · obtain ⟨y, hy, hbrought⟩ := List.mem_filterMap.mp hc
          exact hall y (List.mem_append_left _ hy) r List.mem_cons_self c hbrought
        · obtain rfl := List.mem_singleton.mp hc
          exact hall x (List.mem_append_right _ List.mem_cons_self) r List.mem_cons_self c hchild

/-- A row of a group changes the object of the group to that with the row. -/
theorem placeChildren_assembled (hfinds : m.Finds row y) (hnames : (m.related.map (·.name)).Nodup)
    (x : Reading) (group : List Reading) :
    GivesUnless (¬AreSteady m.related (group ++ [y]))
      (m.placeChildren row (assembled m.related x group) m.related)
      (assembled m.related x (group ++ [y])) := by
  have hgives := placeChildren_gives hfinds.2 hnames (get?_overlay (gathered · group) hnames x.main)
  rwa [overlay_overlay hnames] at hgives

end Objects

/-! ## Parents -/

section Parents

variable {m : Mapper} {rows : List Value} {row : Value} {x y : Reading}
  {done readings : List Reading} {p : Prop}

/-- The parents after some rows, with their texts. -/
def entries (related : List Related) (readings : List Reading) : List (String × Record) :=
  (leaders readings).map fun x => (x.key, assembled related x (x.fellows readings))

/-- Of parents with distinct texts the one with a text is changed, or there is a new one behind
them. -/
theorem alter_gives (old new : Reading → Record) {key : String} {fresh changed : Record}
    {change : Record → Except Error Record} {xs : List Reading} (hkeys : (xs.map (·.key)).Nodup)
    (hfresh : GivesUnless p (change fresh) changed)
    (hsame : ∀ x ∈ xs, x.key = key → GivesUnless p (change (old x)) (new x))
    (hother : ∀ x ∈ xs, x.key ≠ key → old x = new x) :
    GivesUnless p (alter key fresh change (xs.map fun x => (x.key, old x)))
      ((xs.map fun x => (x.key, new x)) ++ if key ∈ xs.map (·.key) then [] else [(key, changed)]) := by
  induction xs with
  | nil => exact hfresh.bind (.inl rfl)
  | cons x xs ih =>
    obtain ⟨hsamex, hsame⟩ := List.forall_mem_cons.mp hsame
    obtain ⟨hotherx, hother⟩ := List.forall_mem_cons.mp hother
    rw [List.map_cons, List.nodup_cons] at hkeys
    rw [List.map_cons, alter]
    split_ifs with hx hmem hmem
    · -- The keys behind are other ones.
      have hrest : (xs.map fun x => (x.key, old x)) = xs.map fun x => (x.key, new x) := by
        refine List.map_congr_left fun z hz => ?_
        rw [hother z hz fun heq => hkeys.1 (hx.trans heq.symm ▸ List.mem_map_of_mem hz)]
      rw [hrest]
      refine (hsamex hx).bind (.inl ?_)
      simp [pure, Except.pure]
    · exact absurd (hx ▸ List.mem_cons_self) hmem
    · have hmem : key ∈ xs.map (·.key) := by simpa [Ne.symm hx] using hmem
      have hrest := ih hkeys.2 hsame hother
      rw [if_pos hmem] at hrest
      rw [hotherx hx]
      refine hrest.bind (.inl ?_)
      simp [pure, Except.pure]
    · have hmem : key ∉ xs.map (·.key) := fun hin => hmem (List.mem_cons_of_mem _ hin)
      have hrest := ih hkeys.2 hsame hother
      rw [if_neg hmem] at hrest
      rw [hotherx hx]
      refine hrest.bind (.inl ?_)
      simp [pure, Except.pure]

/-- One row more changes the objects of the groups that there are, and may bring a group. -/
theorem entries_append_singleton (related : List Related) (done : List Reading) (y : Reading) :
    entries related (done ++ [y]) =
      ((leaders done).map fun x => (x.key, assembled related x (x.fellows (done ++ [y])))) ++
        if y.key ∈ (leaders done).map (·.key) then [] else [(y.key, assembled related y [y])] := by
  rw [entries, leaders_append_singleton, List.map_append]
  congr 1
  split_ifs with hmem
  · rfl
  · rw [List.map_singleton, fellows_append_singleton, if_pos rfl, fellows_of_new hmem, List.nil_append]

/-- The step of the loop: the parents that the reference gives are altered to those with one row
more. -/
theorem alter_entries (hfinds : m.Finds row y) (hnames : (m.related.map (·.name)).Nodup)
    (done : List Reading) :
    GivesUnless (¬AreSteady m.related (done ++ [y]))
      (alter y.key (m.withPlaces y.main) (fun parent => m.placeChildren row parent m.related)
        (entries m.related done)) (entries m.related (done ++ [y])) := by
  have hchanged (x : Reading) (group : List Reading) (hgroup : ∀ z ∈ group, z ∈ done) :
      GivesUnless (¬AreSteady m.related (done ++ [y]))
        (m.placeChildren row (assembled m.related x group) m.related)
        (assembled m.related x (group ++ [y])) := by
    refine (placeChildren_assembled hfinds hnames x group).mono fun hnot hall => hnot fun z hz => hall z ?_
    exact (List.mem_append.mp hz).elim (fun hz => List.mem_append_left _ (hgroup z hz))
      (List.mem_append_right _)
  have hfresh := hchanged y [] fun _ hz => absurd hz List.not_mem_nil
  rw [withPlaces_eq_overlay, entries_append_singleton]
  refine alter_gives (fun x => assembled m.related x (x.fellows done))
    (fun x => assembled m.related x (x.fellows (done ++ [y]))) (nodup_keys_leaders done) hfresh ?_ ?_
  · intro x hx hkey
    rw [fellows_append_singleton, if_pos hkey.symm]
    exact hchanged x _ fun z hz => (List.mem_filter.mp hz).1
  · intro x hx hkey
    rw [fellows_append_singleton, if_neg (Ne.symm hkey), List.append_nil]

/-- Grouping goes from the parents of the rows so far to those of all rows. -/
theorem group_gives (hnames : (m.related.map (·.name)).Nodup) (hfinds : List.Forall₂ m.Finds rows readings)
    (done : List Reading) :
    GivesUnless (¬AreSteady m.related (done ++ readings)) (m.group (entries m.related done) rows)
      (entries m.related (done ++ readings)) := by
  induction hfinds generalizing done with
  | nil =>
    rw [List.append_nil]
    exact .inl rfl
  | @cons row y rows readings hy hrest ih =>
    have hall : done ++ y :: readings = (done ++ [y]) ++ readings := by simp
    have hstep := (alter_entries hy hnames done).mono (q := ¬AreSteady m.related (done ++ y :: readings))
      fun hnot hall => hnot fun z hz => hall z (by simp at hz ⊢; tauto)
    rw [group, hy.1]
    refine hstep.bind ?_
    rw [hall]
    exact ih (done ++ [y])

/-- With a relation that may have many objects, rows give what the reference gives. -/
theorem objects_gives (hnames : (m.related.map (·.name)).Nodup) (hmany : m.hasChildren = true)
    (hfinds : List.Forall₂ m.Finds rows readings) :
    GivesUnless (¬AreSteady m.related readings) (m.objects rows) (regrouped m.related readings) := by
  rw [objects, if_pos hmany]
  refine (group_gives hnames hfinds []).bind (.inl ?_)
  simp [entries, regrouped]

end Parents

/-! ## Steady rows -/

section Steady

variable {c : Codec} {chosen : List Value} {relations : List (String × Sql.Relation)} {m : Mapper}
  {r : Related} {row : Value} {fields object collected child : Record} {readings : List Reading}
  {rows : List Value}

/-- A steady object stays so with a steady value. -/
theorem isSteady_set {name : String} {v : Value} (hobject : (Value.record object).isSteady = true)
    (hv : v.isSteady = true) : (Value.record (object.set name v)).isSteady = true := by
  obtain ⟨hnames, hfields⟩ := Value.isSteady_record_iff.mp hobject
  refine Value.isSteady_record_iff.mpr ⟨?_, fun f hf => ?_⟩
  · rw [Record.names_set]
    split_ifs with hmem
    · exact hnames
    · exact List.nodup_append.mpr ⟨hnames, List.nodup_singleton name, by rintro _ hk _ hl rfl; simp_all⟩
  · obtain heq | hf := Record.mem_set hf
    · rw [heq]
      exact hv
    · exact hfields f hf

/-- The columns of a relation without declared keys are collected in a steady object. -/
theorem isSteady_collect (hkinds : r.codec.kinds = []) (hobject : (Value.record object).isSteady = true)
    (hfields : ∀ f ∈ fields, f.2.isSteady = true) (h : m.collect r object fields = .ok collected) :
    (Value.record collected).isSteady = true := by
  induction fields generalizing object with
  | nil =>
    obtain rfl := Except.ok.inj h
    exact hobject
  | cons f fields ih =>
    obtain ⟨hf, hfields⟩ := List.forall_mem_cons.mp hfields
    rw [collect] at h
    cases hname : m.ownName? r f.1 with
    | none =>
      rw [hname] at h
      exact ih hobject hfields h
    | some name =>
      rw [hname] at h
      obtain ⟨w, hw, hrest⟩ := bind_eq_ok.mp h
      exact ih (isSteady_set hobject (Codec.isSteady_of_decode hkinds hf hw)) hfields hrest

/-- A cell belongs to a record. -/
theorem record_of_cell {name : String} {v : Value} (h : Codec.cell row name = .ok (some v)) :
    ∃ fields, row = .record fields ∧ Record.get? name fields = some v := by
  unfold Codec.cell at h
  split at h
  · exact ⟨_, rfl, Except.ok.inj h⟩
  · split_ifs at h
    · exact nomatch h
    · exact nomatch Except.ok.inj h
  · split_ifs at h
    · exact nomatch Except.ok.inj h
    · exact nomatch h

/-- The child in a steady row is steady. -/
theorem isSteady_relatedObject? (hmake : make c chosen relations = .ok m) (hr : r ∈ m.related)
    (hrow : row.isSteady = true) (h : m.relatedObject? row r = .ok (some child)) :
    (Value.record child).isSteady = true := by
  have hkinds := (of_make hmake).2 r hr
  have hchild := fields_of_relatedObject? h
  rw [relatedFields] at hchild
  split_ifs at hchild with hkeyless
  · obtain ⟨fields, hfields, hcollect⟩ := bind_eq_ok.mp hchild
    unfold rowFields at hfields
    split at hfields
    · obtain rfl := Except.ok.inj hfields
      exact isSteady_collect hkinds rfl (Value.isSteady_record_iff.mp hrow).2 hcollect
    · cases hfields
  · have hnames := (codec_of_make hmake hr).2.1.sublist (Codec.names_of_decodeKeys hchild)
    refine Value.isSteady_record_iff.mpr ⟨hnames, fun f hf => ?_⟩
    obtain ⟨v, hcell, hv⟩ := Codec.cell_of_mem_decodeKeys hchild hf
    obtain ⟨fields, rfl, hget⟩ := record_of_cell hcell
    have hvalue := (Value.isSteady_record_iff.mp hrow).2 _ (Record.mem_of_get? hget)
    exact Codec.isSteady_of_decode hkinds hvalue hv

/-- Steady rows make steady readings. -/
theorem areSteady_of_rows (hmake : make c chosen relations = .ok m)
    (hrows : ∀ row ∈ rows, row.isSteady = true) (hfinds : List.Forall₂ m.Finds rows readings) :
    AreSteady m.related readings := by
  induction hfinds with
  | nil => exact nofun
  | cons hfind _ ih =>
    obtain ⟨hrow, hrows⟩ := List.forall_mem_cons.mp hrows
    refine List.forall_mem_cons.mpr ⟨fun r hr child hchild => ?_, ih hrows⟩
    have hfound := hfind.2 r hr
    rw [hchild] at hfound
    exact isSteady_relatedObject? hmake hr hrow hfound

end Steady

/-! ## Grouping is its reference -/

section Regrouped

variable {c : Codec} {chosen : List Value} {relations : List (String × Sql.Relation)} {m : Mapper}
  {rows : List Value} {readings : List Reading}

/-- Rows without undefined numbers that can be read give the objects of the reference. Each row has
a part in the object of its group: the object has the main fields of the group's first row, the list
of a relation that may have many objects has an equal of the row's child, and whatever is in the
list is a child of a row of the group. -/
theorem objects_regrouped (hmake : make c chosen relations = .ok m) (hmany : m.hasChildren = true)
    (hrows : ∀ row ∈ rows, row.isSteady = true) (hfinds : List.Forall₂ m.Finds rows readings) :
    m.objects rows = .ok (regrouped m.related readings) ∧
      ∀ x ∈ readings, ∃ first ∈ leaders readings, first.key = x.key ∧
        assembled m.related first (first.fellows readings) ∈ regrouped m.related readings ∧
        (∀ name ∉ m.related.map (·.name),
          Record.get? name (assembled m.related first (first.fellows readings)) =
            Record.get? name first.main) ∧
        ∀ r ∈ m.related, r.relation.kind = .hasMany → ∃ kids : List Record,
          Record.get? r.name (assembled m.related first (first.fellows readings)) =
            some (.list (kids.map .record)) ∧
          (∀ child, x.child r = some child → ∃ kid ∈ kids, Value.same (.record kid) (.record child) = true) ∧
          ∀ kid ∈ kids, ∃ y ∈ readings, y.key = x.key ∧ y.child r = some kid := by
  have hnames := (of_make hmake).1
  have hsteady := areSteady_of_rows hmake hrows hfinds
  refine ⟨(objects_gives hnames hmany hfinds).eq_ok fun hnot => hnot hsteady, fun x hx => ?_⟩
  obtain ⟨first, hfirst, hkey⟩ := List.mem_map.mp (mem_keys_leaders_iff.mpr ⟨x, hx, rfl⟩)
  refine ⟨first, hfirst, hkey, List.mem_map_of_mem hfirst, ?_, ?_⟩
  · exact fun name hname => get?_overlay_of_ne hname first.main
  · intro r hr hkind
    have hheld := get?_overlay (gathered · (first.fellows readings)) hnames first.main r hr
    rw [gathered, if_pos hkind] at hheld
    refine ⟨_, hheld, fun child hchild => ?_, fun kid hkid => ?_⟩
    · apply exists_mem_distinct
      · intro d hd
        obtain ⟨y, hy, hbrought⟩ := List.mem_filterMap.mp hd
        exact hsteady y (List.mem_filter.mp hy).1 r hr d hbrought
      · refine List.mem_filterMap.mpr ⟨x, List.mem_filter.mpr ⟨hx, ?_⟩, hchild⟩
        simpa using hkey.symm
    · obtain ⟨y, hy, hbrought⟩ := List.mem_filterMap.mp ((distinct_sublist _).subset hkid)
      obtain ⟨hmem, hsame⟩ := List.mem_filter.mp hy
      exact ⟨y, hmem, (beq_iff_eq.mp hsame).trans hkey, hbrought⟩

/-- Two novels with rows in turn. A chapter comes back with a truth value for the number one, and an
author is missing from the first row. -/
theorem objects_regrouped_in_turn :
    let chapters : Sql.Relation := ⟨.text "chapter", .text "id", .text "novel_id", .hasMany, none,
      some [.text "id", .text "isRead"]⟩
    let author : Sql.Relation := ⟨.text "author", .text "author_id", .text "id", .belongsTo, none,
      some [.text "name"]⟩
    let row (id chapter read : Value) (author : Value) : Value :=
      .record [("id", id), ("chapter__id", chapter), ("chapter__is_read", read), ("author__name", author)]
    ∃ m, make ⟨["id"], [], [], true, true⟩ [] [("chapters", chapters), ("author", author)] = .ok m ∧
      m.objects [row (.int 1) (.int 1) (.int 0) .null, row (.int 2) (.int 1) (.int 1) (.text "Ba"),
          row (.int 1) (.int 2) .null (.text "Li"), row (.int 1) (.bool true) (.int 0) (.text "Li"),
          row (.int 2) .null .null (.text "Lu")] =
        .ok [[("id", .int 1),
            ("chapters", .list [.record [("id", .int 1), ("isRead", .bool false)],
              .record [("id", .int 2), ("isRead", .null)]]),
            ("author", .record [("name", .text "Li")])],
          [("id", .int 2), ("chapters", .list [.record [("id", .int 1), ("isRead", .bool true)]]),
            ("author", .record [("name", .text "Ba")])]] := by
  intro chapters author row
  let m : Mapper := ⟨⟨["id"], [], [], true, true⟩, false,
    [⟨"chapters", chapters, ⟨["id", "isRead"], [], [], true, true⟩⟩,
      ⟨"author", author, ⟨["name"], [], [], true, true⟩⟩]⟩
  have hmake : make ⟨["id"], [], [], true, true⟩ [] [("chapters", chapters), ("author", author)] = .ok m :=
    rfl
  let reading (id : Value) (chapter author : Option Record) : Reading :=
    ⟨[("id", id)], fun r => if r.name = "chapters" then chapter else author⟩
  have hfinds : List.Forall₂ m.Finds
      [row (.int 1) (.int 1) (.int 0) .null, row (.int 2) (.int 1) (.int 1) (.text "Ba"),
          row (.int 1) (.int 2) .null (.text "Li"), row (.int 1) (.bool true) (.int 0) (.text "Li"),
          row (.int 2) .null .null (.text "Lu")]
      [reading (.int 1) (some [("id", .int 1), ("isRead", .bool false)]) none,
        reading (.int 2) (some [("id", .int 1), ("isRead", .bool true)]) (some [("name", .text "Ba")]),
        reading (.int 1) (some [("id", .int 2), ("isRead", .null)]) (some [("name", .text "Li")]),
        reading (.int 1) (some [("id", .bool true), ("isRead", .bool false)]) (some [("name", .text "Li")]),
        reading (.int 2) none (some [("name", .text "Lu")])] := by
    have hfound {row : Value} {x : Reading} (hmain : m.mainObject row = .ok x.main)
        (hchapter : m.relatedObject? row m.related[0] = .ok (x.child m.related[0]))
        (hauthor : m.relatedObject? row m.related[1] = .ok (x.child m.related[1])) : m.Finds row x :=
      ⟨hmain, List.forall_mem_cons.mpr ⟨hchapter, List.forall_mem_cons.mpr ⟨hauthor, nofun⟩⟩⟩
    exact .cons (hfound rfl rfl rfl) (.cons (hfound rfl rfl rfl) (.cons (hfound rfl rfl rfl)
      (.cons (hfound rfl rfl rfl) (.cons (hfound rfl rfl rfl) .nil))))
  refine ⟨m, hmake, (objects_regrouped hmake (by decide) (by decide) hfinds).1.trans ?_⟩
  cbv

end Regrouped

end Mapper

end Quarry
