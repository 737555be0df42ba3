import Quarry.Proofs.Repository.Regrouping
import Quarry.Proofs.Value.Transitive

/-!
# The reference of grouping

What a mapper makes of rows can be said without a loop (`Reading.regrouped`): the rows fall into
groups by the text of the main object; each group gives one object, in the order of the first rows;
and under the name of a relation it has the children of its rows, those left out that equal an
earlier one, or the first child alone.

One row more changes little: its child is put behind the others of its group unless it equals one
that is kept, and a new text brings a new group behind the others. Since equality goes over from one
child to the next, it does not matter whether an equal one was kept or left out itself.
-/

set_option autoImplicit false

namespace Quarry

/-! ## First members -/

section Firsts

variable {α : Type} {same : α → α → Bool} {earlier xs : List α} {x y : α}

/-- The members of a list that are the same as no earlier one. -/
def firstsBy (same : α → α → Bool) (earlier : List α) : List α → List α
  | [] => []
  | x :: rest =>
    if earlier.any (same · x) then firstsBy same (earlier ++ [x]) rest
    else x :: firstsBy same (earlier ++ [x]) rest

/-- One more member is the first of its kind unless there was one like it before. -/
theorem firstsBy_append_singleton (same : α → α → Bool) (earlier xs : List α) (y : α) :
    firstsBy same earlier (xs ++ [y]) =
      firstsBy same earlier xs ++ if (earlier ++ xs).any (same · y) then [] else [y] := by
  induction xs generalizing earlier with
  | nil => simp [firstsBy]
  | cons x rest ih =>
    have hrest := ih (earlier ++ [x])
    rw [List.append_assoc, List.singleton_append] at hrest
    rw [List.cons_append, firstsBy, firstsBy, hrest]
    split_ifs <;> rfl

/-- The first ones are part of the list in its order. -/
theorem firstsBy_sublist (same : α → α → Bool) (earlier xs : List α) :
    (firstsBy same earlier xs).Sublist xs := by
  induction xs generalizing earlier with
  | nil => exact .slnil
  | cons x rest ih =>
    rw [firstsBy]
    split_ifs
    · exact (ih _).cons x
    · exact (ih _).cons_cons x

/-- A member that is left out is the same as one that is not. -/
theorem exists_firstsBy (htrans : ∀ x y z, same x y = true → same y z = true → same x z = true)
    (xs : List α) :
    ∀ x ∈ xs, x ∈ firstsBy same [] xs ∨ ∃ y ∈ firstsBy same [] xs, same y x = true := by
  induction xs using List.reverseRecOn with
  | nil => exact nofun
  | append_singleton init last ih =>
    rw [firstsBy_append_singleton, List.nil_append]
    intro x hx
    obtain hx | hx := List.mem_append.mp hx
    · obtain hfirst | ⟨y, hy, hsame⟩ := ih x hx
      · exact .inl (List.mem_append_left _ hfirst)
      · exact .inr ⟨y, List.mem_append_left _ hy, hsame⟩
    · obtain rfl := List.mem_singleton.mp hx
      by_cases hany : init.any (same · x) = true
      · -- The earlier one that the last is the same as may itself be left out, for one before it.
        obtain ⟨y, hy, hsame⟩ := List.any_eq_true.mp hany
        obtain hfirst | ⟨z, hz, hbefore⟩ := ih y hy
        · exact .inr ⟨y, List.mem_append_left _ hfirst, hsame⟩
        · exact .inr ⟨z, List.mem_append_left _ hz, htrans z y x hbefore hsame⟩
      · rw [if_neg hany]
        exact .inl (List.mem_append_right _ List.mem_cons_self)

/-- What is the same as some member is the same as one that is not left out. -/
theorem any_firstsBy (htrans : ∀ x y z, same x y = true → same y z = true → same x z = true)
    (xs : List α) (y : α) : (firstsBy same [] xs).any (same · y) = xs.any (same · y) := by
  rw [Bool.eq_iff_iff, List.any_eq_true, List.any_eq_true]
  constructor
  · rintro ⟨x, hx, hsame⟩
    exact ⟨x, (firstsBy_sublist same [] xs).subset hx, hsame⟩
  · rintro ⟨x, hx, hsame⟩
    obtain hfirst | ⟨z, hz, hbefore⟩ := exists_firstsBy htrans xs x hx
    · exact ⟨x, hfirst, hsame⟩
    · exact ⟨z, hz, htrans z x y hbefore hsame⟩

/-- Of the first ones no two are alike. -/
theorem pairwise_firstsBy (same : α → α → Bool) (xs : List α) :
    (firstsBy same [] xs).Pairwise fun x y => same x y = false := by
  induction xs using List.reverseRecOn with
  | nil => exact .nil
  | append_singleton init last ih =>
    rw [firstsBy_append_singleton, List.nil_append]
    split_ifs with hany
    · rwa [List.append_nil]
    · refine List.pairwise_append.mpr ⟨ih, List.pairwise_singleton _ _, ?_⟩
      intro x hx y hy
      obtain rfl := List.mem_singleton.mp hy
      have hnone := List.any_eq_false.mp (Bool.not_eq_true _ ▸ hany) x
        ((firstsBy_sublist same [] init).subset hx)
      exact Bool.not_eq_true _ ▸ hnone

end Firsts

/-! ## The reference -/

/-- What is read in a row: the main object and, for each relation, the child in the row if there is
one. -/
structure Reading where
  main : Record
  child : Related → Option Record

namespace Reading

/-- The text by which a row is recognized as one of its group. -/
def key (x : Reading) : String := Mapper.groupKey x.main

/-- The rows of the group of a row. -/
def fellows (x : Reading) (readings : List Reading) : List Reading := readings.filter fun y => y.key == x.key

/-- The rows that come first in their groups. -/
def leaders (readings : List Reading) : List Reading := firstsBy (fun x y => x.key == y.key) [] readings

/-- Children one after the other, without those that equal an earlier one. -/
def distinct (children : List Record) : List Record :=
  firstsBy (fun c d => Value.same (.record c) (.record d)) [] children

/-- What stands under the name of a relation after some rows: the list of their children, or the
first child alone. -/
def gathered (r : Related) (group : List Reading) : Value :=
  let children := group.filterMap (·.child r)
  if r.relation.kind = .hasMany then .list ((distinct children).map .record)
  else Value.ofOption .record children.head?

/-- An object with a value under the name of each relation. -/
def overlay (place : Related → Value) (related : List Related) (object : Record) : Record :=
  related.foldl (fun o r => o.set r.name (place r)) object

/-- The object of a group that a row is the first of. -/
def assembled (related : List Related) (x : Reading) (group : List Reading) : Record :=
  overlay (gathered · group) related x.main

/-- The objects of all groups, in the order of their first rows. -/
def regrouped (related : List Related) (readings : List Reading) : List Record :=
  (leaders readings).map fun x => assembled related x (x.fellows readings)

/-- Whether no child has an undefined number. -/
def AreSteady (related : List Related) (readings : List Reading) : Prop :=
  ∀ x ∈ readings, ∀ r ∈ related, ∀ child, x.child r = some child → (Value.record child).isSteady = true

/-! ## Children of groups -/

section Children

variable {child : Record} {children : List Record} {r : Related} {x : Reading} {group : List Reading}

/-- Equality of children goes over. -/
theorem same_trans (c d e : Record) (hcd : Value.same (.record c) (.record d) = true)
    (hde : Value.same (.record d) (.record e) = true) : Value.same (.record c) (.record e) = true := by
  simp only [Value.same, beq_iff_eq] at hcd hde ⊢
  exact Value.same?_trans hcd hde

/-- One more child is kept unless an equal one is there. -/
theorem distinct_append_singleton (children : List Record) (child : Record) :
    distinct (children ++ [child]) =
      distinct children ++
        if (distinct children).any (fun c => Value.same (.record c) (.record child)) then []
        else [child] := by
  rw [distinct, firstsBy_append_singleton, List.nil_append]
  unfold distinct
  rw [any_firstsBy same_trans]

/-- A row without a child adds nothing to what is gathered. -/
theorem gathered_of_none (hchild : x.child r = none) : gathered r (group ++ [x]) = gathered r group := by
  simp [gathered, hchild]

/-- The distinct children are some of all, in their order. -/
theorem distinct_sublist (children : List Record) : (distinct children).Sublist children :=
  firstsBy_sublist _ [] children

/-- A child equals one that is kept. -/
theorem exists_mem_distinct (hsteady : ∀ c ∈ children, (Value.record c).isSteady = true)
    (hchild : child ∈ children) :
    ∃ kept ∈ distinct children, Value.same (.record kept) (.record child) = true := by
  obtain hkept | ⟨kept, hkept, hsame⟩ := exists_firstsBy same_trans children child hchild
  · exact ⟨child, hkept, by rw [Value.same, Value.same?_self _ (hsteady child hchild)]; rfl⟩
  · exact ⟨kept, hkept, hsame⟩

end Children

/-! ## Values under the names of relations -/

section Overlays

variable {related : List Related} {place place' : Related → Value} {object : Record} {name : String}

/-- An overlay leaves other names. -/
theorem get?_overlay_of_ne (hname : name ∉ related.map (·.name)) (object : Record) :
    Record.get? name (overlay place related object) = Record.get? name object := by
  induction related generalizing object with
  | nil => rfl
  | cons r related ih =>
    obtain ⟨hr, hrest⟩ : name ≠ r.name ∧ name ∉ related.map (·.name) := by simpa using hname
    exact (ih hrest _).trans (Record.get?_set_of_ne hr _ object)

/-- An overlay puts each relation's value under its name. -/
theorem get?_overlay (place : Related → Value) (hnames : (related.map (·.name)).Nodup) (object : Record) :
    ∀ r ∈ related, Record.get? r.name (overlay place related object) = some (place r) := by
  induction related generalizing object with
  | nil => exact nofun
  | cons r related ih =>
    rw [List.map_cons, List.nodup_cons] at hnames
    refine List.forall_mem_cons.mpr ⟨?_, fun q hq => ih hnames.2 _ q hq⟩
    exact (get?_overlay_of_ne hnames.1 _).trans (Record.get?_set_self r.name _ object)

/-- Setting another name and overlaying can change places. -/
theorem overlay_set (hname : name ∉ related.map (·.name)) (hobject : name ∈ Record.names object) (v : Value) :
    overlay place related (object.set name v) = (overlay place related object).set name v := by
  induction related generalizing object with
  | nil => rfl
  | cons r related ih =>
    obtain ⟨hr, hrest⟩ : name ≠ r.name ∧ name ∉ related.map (·.name) := by simpa using hname
    have hafter : name ∈ Record.names (object.set r.name (place r)) := by
      rw [Record.names_set]
      split_ifs
      · exact hobject
      · exact List.mem_append_left _ hobject
    show overlay place related ((object.set name v).set r.name (place r)) = _
    rw [← Record.set_comm hr hobject v (place r)]
    exact ih hrest hafter

/-- New values under the names of all relations take the places of the old ones. -/
theorem overlay_overlay (hnames : (related.map (·.name)).Nodup) (object : Record) :
    overlay place' related (overlay place related object) = overlay place' related object := by
  induction related generalizing object with
  | nil => rfl
  | cons r related ih =>
    rw [List.map_cons, List.nodup_cons] at hnames
    have hplaced : r.name ∈ Record.names (object.set r.name (place r)) := by
      rw [Record.names_set]
      split_ifs with hmem
      · exact hmem
      · exact List.mem_append_right _ List.mem_cons_self
    show overlay place' related
      ((overlay place related (object.set r.name (place r))).set r.name (place' r)) = _
    rw [← overlay_set hnames.1 hplaced, Record.set_set]
    exact ih hnames.2 _

end Overlays

/-! ## Groups -/

section Groups

variable {readings : List Reading} {y : Reading}

/-- Leaders have different keys. -/
theorem nodup_keys_leaders (readings : List Reading) : ((leaders readings).map (·.key)).Nodup := by
  refine List.pairwise_map.mpr ((pairwise_firstsBy _ readings).imp ?_)
  intro x y hdiffer
  simpa using hdiffer

/-- The keys of the leaders are those of all rows. -/
theorem mem_keys_leaders_iff {key : String} :
    key ∈ (leaders readings).map (·.key) ↔ ∃ x ∈ readings, x.key = key := by
  rw [List.mem_map]
  constructor
  · rintro ⟨x, hx, hkey⟩
    exact ⟨x, (firstsBy_sublist _ [] readings).subset hx, hkey⟩
  · rintro ⟨x, hx, rfl⟩
    have htrans : ∀ x y z : Reading, (x.key == y.key) = true → (y.key == z.key) = true →
        (x.key == z.key) = true := by
      simp only [beq_iff_eq]
      exact fun x y z => Eq.trans
    obtain hfirst | ⟨y, hy, hsame⟩ := exists_firstsBy htrans readings x hx
    · exact ⟨x, hfirst, rfl⟩
    · exact ⟨y, hy, by simpa using hsame⟩

/-- One more reading is a fellow if it has the same key. -/
theorem fellows_append_singleton (x : Reading) (readings : List Reading) (y : Reading) :
    x.fellows (readings ++ [y]) = x.fellows readings ++ if y.key = x.key then [y] else [] := by
  rw [Reading.fellows, List.filter_append, List.filter_singleton]
  simp only [Reading.fellows, beq_iff_eq, Bool.cond_eq_ite]

/-- One more reading is a leader if its key is new. -/
theorem leaders_append_singleton (readings : List Reading) (y : Reading) :
    leaders (readings ++ [y]) =
      leaders readings ++ if y.key ∈ (leaders readings).map (·.key) then [] else [y] := by
  rw [leaders, firstsBy_append_singleton, List.nil_append, ← leaders]
  congr 1
  simp only [mem_keys_leaders_iff, List.any_eq_true, beq_iff_eq]

/-- A reading with a new key has no fellows yet. -/
theorem fellows_of_new (hnew : y.key ∉ (leaders readings).map (·.key)) : y.fellows readings = [] := by
  refine List.filter_eq_nil_iff.mpr fun x hx hsame => hnew ?_
  exact mem_keys_leaders_iff.mpr ⟨x, hx, by simpa using hsame⟩

end Groups

end Reading

end Quarry
