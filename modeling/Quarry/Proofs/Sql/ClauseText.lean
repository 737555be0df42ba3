import Quarry.Proofs.Outcome
import Quarry.Proofs.Sql.Placeholder

/-!
# Clauses bind nothing

Columns, joins, orders and limits are fixed words and names in quotes: whatever keys, tables and
counts they were made of, they bind no value and hold no placeholder. The only other thing that can
stand in them is a piece of SQL among the chosen columns, which is printed as the caller gave it.
-/

set_option autoImplicit false

namespace Quarry.Sql

variable {d : Dialect} {raw : Bool}

/-- A piece that binds nothing: a harmless word, a name, or, if `raw` says so, text of the
caller's. -/
def Piece.isFixed (raw : Bool) : Piece → Bool
  | .word t => t.toList.all isHarmless
  | .name _ => true
  | .slot _ => false
  | .raw _ => raw

/-- A fragment all of whose pieces bind nothing. -/
def Fragment.isFixed (raw : Bool) (f : Fragment) : Bool := f.all (Piece.isFixed raw)

namespace Fragment

/-- A fixed fragment has no parameters. -/
theorem params_of_isFixed {f : Fragment} (h : isFixed raw f = true) : params f = [] := by
  rw [params, List.filterMap_eq_nil_iff]
  intro p hp
  have hpiece := List.all_eq_true.mp h p hp
  cases p with
  | slot v => simp [Piece.isFixed] at hpiece
  | _ => rfl

/-- A fixed fragment without raw values is tame. -/
theorem isTame_of_isFixed {f : Fragment} (h : isFixed false f = true) : isTame f = true := by
  refine List.all_eq_true.mpr ?_
  intro p hp
  have hpiece := List.all_eq_true.mp h p hp
  cases p with
  | word t => exact hpiece
  | name n => rfl
  | slot v => rfl
  | raw t => simp [Piece.isFixed] at hpiece

/-- Nothing is fixed. -/
@[simp] theorem isFixed_nil : isFixed raw [] = true := rfl

/-- A fragment is fixed piece by piece. -/
@[simp] theorem isFixed_cons (p : Piece) (f : Fragment) :
    isFixed raw (p :: f) = (p.isFixed raw && isFixed raw f) := rfl

/-- Fixed fragments one after the other. -/
@[simp] theorem isFixed_append (f g : Fragment) :
    isFixed raw (f ++ g) = (isFixed raw f && isFixed raw g) := by
  simp [isFixed]

/-- A name is fixed. -/
@[simp] theorem isFixed_name (n : String) : (Piece.name n).isFixed raw = true := rfl

/-- A column is fixed. -/
@[simp] theorem isFixed_column (c : ColumnRef) : isFixed raw c.fragment = true := by
  cases c <;> rfl

/-- Fixed fragments put together. -/
theorem isFixed_flatten {fs : List Fragment} (h : ∀ f ∈ fs, isFixed raw f = true) :
    isFixed raw fs.flatten = true := by
  rw [isFixed, List.all_flatten]
  exact List.all_eq_true.mpr h

/-- Fixed fragments joined by a fixed word. -/
theorem isFixed_joined {separator : String} (hsep : (Piece.word separator).isFixed raw = true)
    {fs : List Fragment} (h : ∀ f ∈ fs, isFixed raw f = true) :
    isFixed raw (joined separator fs) = true := by
  induction fs with
  | nil => rfl
  | cons f rest ih =>
    obtain ⟨hf, hrest⟩ := List.forall_mem_cons.mp h
    cases rest with
    | nil => exact hf
    | cons g rest => simp [Grammar.joined_cons_cons, hf, hsep, ih hrest]

end Fragment

open Fragment

/-! ## Columns -/

/-- A selected column is fixed, as far as it is not raw. -/
theorem isFixed_selectedColumn {owner c : Value} {column : Option Fragment}
    (hraw : raw = false → isRawValue c ≠ .ok true) (h : selectedColumn owner c = .ok column) :
    ∀ f ∈ column, isFixed raw f = true := by
  obtain ⟨israw, hisraw, hrest⟩ := bind_eq_ok.mp h
  cases israw with
  | true =>
    have hallowed : raw = true := by
      cases raw with
      | true => rfl
      | false => exact absurd hisraw (hraw rfl)
    cases c with
    | text s =>
      obtain rfl := pure_eq_ok.mp hrest
      simp [Piece.isFixed, hallowed]
    | _ =>
      obtain rfl := pure_eq_ok.mp hrest
      simp
  | false =>
    obtain ⟨reference, -, rfl⟩ : ∃ reference, ColumnRef.ofValue owner c = .ok reference ∧
        some reference.fragment = column := by simpa using hrest
    simp

/-- The columns of the table itself are fixed, as far as they are not raw. -/
theorem isFixed_ownColumns {owner : Value} {declared chosen : List Value}
    {columns : List (Option Fragment)} (hraw : raw = false → ∀ c ∈ chosen, isRawValue c ≠ .ok true)
    (h : ownColumns owner declared chosen = .ok columns) :
    ∀ column ∈ columns, ∀ f ∈ column, isFixed raw f = true := by
  unfold ownColumns at h
  split_ifs at h
  · intro column hcolumn
    obtain ⟨c, -, hc⟩ := (mem_iff_of_mapM_eq_ok h).mp hcolumn
    obtain ⟨reference, -, rfl⟩ : ∃ reference, ColumnRef.ofValue owner c = .ok reference ∧
        some reference.fragment = column := by simpa using hc
    simp
  · intro column hcolumn
    obtain ⟨c, hmem, hc⟩ := (mem_iff_of_mapM_eq_ok h).mp hcolumn
    exact isFixed_selectedColumn (fun hfalse => hraw hfalse c hmem) hc

/-- The columns of a relation are fixed. -/
theorem Relation.isFixed_columns {r : Relation} {fs : List Fragment} (h : r.columns = .ok fs) :
    ∀ f ∈ fs, isFixed raw f = true := by
  have hstar : (Piece.word ".*").isFixed raw = true := rfl
  have hdot : (Piece.word ".").isFixed raw = true := rfl
  have has : (Piece.word " AS ").isFixed raw = true := rfl
  unfold Relation.columns at h
  cases hkeys : r.declaredKeys with
  | nil =>
    obtain ⟨table, -, rfl⟩ : ∃ table, identifier r.table = .ok table ∧
        [[Piece.name table, .word ".*"]] = fs := by simpa [hkeys] using h
    simp [hstar]
  | cons key keys =>
    rw [hkeys] at h
    intro f hmem
    obtain ⟨k, -, hf⟩ := (mem_iff_of_mapM_eq_ok h).mp hmem
    obtain ⟨column, -, table, -, rfl⟩ : ∃ column, columnName k = .ok column ∧
        ∃ table, identifier r.table = .ok table ∧
          [Piece.name table, .word ".", .name column, .word " AS ", .name (r.aliasOf column)] =
            f := by simpa using hf
    simp [hdot, has]

/-- A list of columns binds nothing, and has no text of the caller's if none was chosen. -/
theorem isFixed_columnList {owner : Value} {declared chosen : List Value} {relations : List Relation}
    {f : Fragment} (hraw : raw = false → ∀ c ∈ chosen, isRawValue c ≠ .ok true)
    (h : columnList owner declared chosen relations = .ok f) : isFixed raw f = true := by
  obtain ⟨own, hown, hrest⟩ := bind_eq_ok.mp h
  obtain ⟨others, hothers, hlist⟩ := bind_eq_ok.mp hrest
  split_ifs at hlist
  · obtain rfl := pure_eq_ok.mp hlist
    refine isFixed_joined rfl ?_
    intro g hg
    obtain hg | hg := List.mem_append.mp hg
    · obtain ⟨column, hcolumn, hsome⟩ := List.mem_filterMap.mp hg
      exact isFixed_ownColumns hraw hown column hcolumn g hsome
    · obtain ⟨gs, hgs, hg⟩ := List.mem_flatten.mp hg
      obtain ⟨r, -, hr⟩ := (mem_iff_of_mapM_eq_ok hothers).mp hgs
      exact r.isFixed_columns hr g hg
  · simp [misfit] at hlist

/-! ## Joins, orders and limits -/

/-- Joins are fixed. -/
theorem Join.isFixed_fragments {joins : List Join} {f : Fragment}
    (h : Join.fragments joins = .ok f) : isFixed raw f = true := by
  obtain ⟨fs, hfs, rfl⟩ := functor_map_eq_ok.mp h
  refine isFixed_flatten ?_
  intro g hmem
  obtain ⟨j, -, hg⟩ := (mem_iff_of_mapM_eq_ok hfs).mp hmem
  obtain ⟨table, -, left, -, right, -, rfl⟩ : ∃ table, identifier j.table = .ok table ∧
      ∃ left, ColumnRef.ofValue .null j.left = .ok left ∧
        ∃ right, ColumnRef.ofValue .null j.right = .ok right ∧
          [Piece.word " ", .word j.kind.label, .word " JOIN ", .name table, .word " ON "] ++
            left.fragment ++ .word " = " :: right.fragment = g := by
    simpa [Join.fragment] using hg
  have hword : ∀ s ∈ [" ", " JOIN ", " ON ", " = "], (Piece.word s).isFixed raw = true := by
    intro s hs
    simp only [List.mem_cons, List.not_mem_nil, or_false] at hs
    obtain rfl | rfl | rfl | rfl := hs <;> rfl
  have hkind : (Piece.word j.kind.label).isFixed raw = true := by cases j.kind <;> rfl
  simp [hword, hkind]

/-- An order is fixed. -/
theorem isFixed_orderClause {owner : Value} {items : List Value} {f : Fragment}
    (h : orderClause owner items = .ok f) : isFixed raw f = true := by
  obtain ⟨parts, hparts, hf⟩ := bind_eq_ok.mp h
  have hall : ∀ part ∈ parts, isFixed raw part = true := by
    intro part hmem
    obtain ⟨item, -, hpart⟩ := (mem_iff_of_mapM_eq_ok hparts).mp hmem
    cases item with
    | record fields =>
      obtain ⟨direction, -, hcolumn⟩ := bind_eq_ok.mp hpart
      cases hget : Record.get? "column" fields with
      | none => simp [hget, misfit] at hcolumn
      | some column =>
        obtain ⟨reference, -, rfl⟩ : ∃ reference, ColumnRef.ofValue owner column = .ok reference ∧
            reference.fragment ++ [Piece.word " ", .word direction.label] = part := by
          simpa [hget] using hcolumn
        have hblank : (Piece.word " ").isFixed raw = true := rfl
        have hlabel : (Piece.word direction.label).isFixed raw = true := by cases direction <;> rfl
        simp [hblank, hlabel]
    | _ => simp [orderItem, misfit] at hpart
  obtain rfl := pure_eq_ok.mp hf
  split_ifs
  · rfl
  · have hword : (Piece.word " ORDER BY ").isFixed raw = true := rfl
    have hcomma : (Piece.word ", ").isFixed raw = true := rfl
    simp [hword, isFixed_joined hcomma hall]

/-- A number is fixed. -/
theorem isFixed_number (n : Nat) : (Piece.word (toString n)).isFixed raw = true := isTame_number n

/-- A limit is fixed. -/
theorem isFixed_limitClause {limit offset : Value} {f : Fragment}
    (h : limitClause d limit offset = .ok f) : isFixed raw f = true := by
  have hlimit : (Piece.word " LIMIT ").isFixed raw = true := rfl
  have hoffset : (Piece.word " OFFSET ").isFixed raw = true := rfl
  have hunbounded : (Piece.word d.unboundedLimit).isFixed raw = true := by cases d <;> rfl
  obtain ⟨first, hfirst, hrest⟩ := bind_eq_ok.mp h
  obtain ⟨second, hsecond, rfl⟩ := functor_map_eq_ok.mp hrest
  have hfixed : isFixed raw first = true := by
    unfold limitPart at hfirst
    split_ifs at hfirst
    · obtain rfl := Except.ok.inj hfirst
      rfl
    · obtain rfl := Except.ok.inj hfirst
      simp [hlimit, hunbounded]
    · obtain ⟨n, -, rfl⟩ := map_eq_ok.mp hfirst
      rw [isFixed_cons, isFixed_cons, hlimit, isFixed_number]
      rfl
  have hfixed' : isFixed raw second = true := by
    unfold offsetPart at hsecond
    split_ifs at hsecond
    · obtain rfl := Except.ok.inj hsecond
      rfl
    · obtain ⟨n, -, rfl⟩ := map_eq_ok.mp hsecond
      rw [isFixed_cons, isFixed_cons, hoffset, isFixed_number]
      rfl
  rw [isFixed_append, hfixed, hfixed']
  rfl

/-! ## Aggregates -/

/-- An expression without a case is fixed. -/
theorem Aggregate.isFixed_plainExpression {owner : Value} {a : Aggregate} {f : Fragment}
    (h : a.plainExpression owner = .ok f) : isFixed raw f = true := by
  have hopen : (Piece.word "COALESCE(").isFixed raw = true := rfl
  have hclose : (Piece.word ", 0)").isFixed raw = true := rfl
  unfold Aggregate.plainExpression at h
  split_ifs at h
  · obtain rfl := pure_eq_ok.mp h
    rfl
  · obtain ⟨reference, -, hf⟩ := bind_eq_ok.mp h
    obtain rfl := pure_eq_ok.mp hf
    simp [hopen, hclose]
  · obtain ⟨reference, -, hf⟩ := bind_eq_ok.mp h
    obtain rfl := pure_eq_ok.mp hf
    simp

end Quarry.Sql
