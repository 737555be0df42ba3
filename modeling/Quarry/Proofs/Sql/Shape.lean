import Quarry.Proofs.Sql.Unset

/-!
# The text of a condition and its values

An outline is what remains of a fragment when the values that it binds are forgotten. The text of a
fragment can be read off its outline, so fragments with one outline have one text, whatever they
bind.

Two conditions have the same shape when they name the same keys in the same order and the values of
each key are of the same kind. What belongs to the kind of a value is written down in `SameKind`:
where it has gaps, how many sub-arrays of which length there are, which operands of LIKE say
nothing, and, in SQLite, how many different values a sub-array holds. Nothing else of a value does,
and the pattern of a LIKE does not either. Conditions of the same shape are compiled to filters with
one outline.
-/

set_option autoImplicit false

namespace Quarry.Sql

variable {d : Dialect} {utc : Bool} {c : ColumnRef}

/-! ## Emptiness -/

/-- Lists of one length are both empty or both not. -/
theorem isEmpty_eq_of_length_eq {α β : Type} {xs : List α} {ys : List β}
    (h : xs.length = ys.length) : xs.isEmpty = ys.isEmpty := by
  rw [Bool.eq_iff_iff, List.isEmpty_iff_length_eq_zero, List.isEmpty_iff_length_eq_zero, h]

/-- Lists with equal images are both empty or both not. -/
theorem isEmpty_eq_of_map_eq {α β : Type} {f : α → β} {xs ys : List α} (h : xs.map f = ys.map f) :
    xs.isEmpty = ys.isEmpty :=
  isEmpty_eq_of_length_eq (by simpa using congrArg List.length h)

/-! ## Outlines -/

/-- A piece without the value that it binds. -/
def Piece.outline : Piece → Piece
  | .slot _ => .slot .null
  | p => p

namespace Fragment

/-- A fragment without the values that it binds. -/
def outline (f : Fragment) : Fragment := f.map Piece.outline

/-- The text of a fragment is that of its outline. -/
theorem chars_outline (f : Fragment) : chars d f.outline = chars d f := by
  unfold chars outline
  rw [List.flatMap_map]
  apply List.flatMap_congr
  intro p _
  cases p <;> rfl

/-- The text is that of the outline. -/
theorem sql_eq_of_outline {f g : Fragment} (h : f.outline = g.outline) : sql d f = sql d g := by
  have hchars : chars d f = chars d g := by rw [← chars_outline, h, chars_outline]
  rw [sql, sql, hchars]

/-- The outline of two fragments one after the other. -/
@[simp] theorem outline_append (f g : Fragment) : outline (f ++ g) = f.outline ++ g.outline :=
  List.map_append

/-- The outline goes piece by piece. -/
@[simp] theorem outline_cons (p : Piece) (f : Fragment) :
    outline (p :: f) = p.outline :: f.outline := rfl

/-- Nothing has an empty outline. -/
@[simp] theorem outline_nil : outline [] = [] := rfl

/-- A word is its own outline. -/
@[simp] theorem outline_word (t : String) : (Piece.word t).outline = .word t := rfl

/-- A slot keeps its place and loses its value. -/
@[simp] theorem outline_slot (v : Value) : (Piece.slot v).outline = .slot .null := rfl

/-- Parentheses stay in the outline. -/
@[simp] theorem outline_parenthesized (f : Fragment) :
    outline f.parenthesized = (outline f).parenthesized := by
  simp [parenthesized]

/-- Separators stay in the outline. -/
theorem outline_joined (separator : String) (fs : List Fragment) :
    outline (joined separator fs) = joined separator (fs.map outline) := by
  induction fs with
  | nil => rfl
  | cons f rest ih =>
    cases rest with
    | nil => rfl
    | cons g rest =>
      rw [Grammar.joined_cons_cons, List.map_cons, List.map_cons, Grammar.joined_cons_cons,
        outline_append, outline_cons, ih]
      rfl

/-- As many slots are as many slots in the outline. -/
@[simp] theorem outline_slots (vs : List Value) :
    outline (slots vs) = slots (List.replicate vs.length .null) := by
  rw [slots, outline_joined, slots, List.map_map, List.map_replicate]
  congr 1
  show vs.map (fun _ => [Piece.slot .null]) = _
  exact List.map_const'

end Fragment

/-- The outline of an atom. -/
def Atom.outline (d : Dialect) (a : Atom) : Fragment := (a.fragment d).outline

/-- The outline of a test on a column. -/
def JsonTest.outline (d : Dialect) (c : ColumnRef) (t : JsonTest) : Fragment :=
  (t.fragment d c.fragment).outline

/-- The outlines of a filter's atoms. -/
def Filter.outline (d : Dialect) (f : Filter) : List Fragment × List (List Fragment) :=
  (f.main.map (Atom.outline d), f.groups.map (List.map (Atom.outline d)))

namespace Filter

variable {f g : Filter}

/-- The outline of a conjunction is made of those of its atoms. -/
theorem outline_conjunction (atoms : List Atom) :
    (conjunction d atoms).outline = Fragment.joined " AND " (atoms.map (Atom.outline d)) := by
  rw [conjunction, Fragment.outline_joined, List.map_map]
  rfl

/-- The outline of a disjunction is made of those of its groups. -/
theorem outline_disjunction (groups : List (List Atom)) :
    (disjunction d groups).outline = Fragment.joined " OR " ((groups.map (List.map (Atom.outline d))).map
      fun g => (Fragment.joined " AND " g).parenthesized) := by
  rw [disjunction, Fragment.outline_joined, List.map_map, List.map_map]
  congr 2
  funext atoms
  simp [outline_conjunction]

/-- Filters with one outline both have main atoms or both have none. -/
theorem main_isEmpty_of_outline (h : f.outline d = g.outline d) :
    f.main.isEmpty = g.main.isEmpty := isEmpty_eq_of_map_eq (congrArg Prod.fst h)

/-- Filters with one outline both have groups or both have none. -/
theorem groups_isEmpty_of_outline (h : f.outline d = g.outline d) :
    f.groups.isEmpty = g.groups.isEmpty := isEmpty_eq_of_map_eq (congrArg Prod.snd h)

/-- Filters with one outline both restrict something or both do not. -/
theorem isEmpty_of_outline (h : f.outline d = g.outline d) : f.isEmpty = g.isEmpty := by
  rw [isEmpty, isEmpty, main_isEmpty_of_outline h, groups_isEmpty_of_outline h]

/-- Filters whose atoms have the same outlines have the same outline. -/
theorem outline_fragment (h : f.outline d = g.outline d) :
    (f.fragment d).outline = (g.fragment d).outline := by
  obtain ⟨hmain, hgroups⟩ := Prod.mk.inj h
  have hfirst : (conjunction d f.main).outline = (conjunction d g.main).outline := by
    rw [outline_conjunction, hmain, outline_conjunction]
  have hsecond : (disjunction d f.groups).outline = (disjunction d g.groups).outline := by
    rw [outline_disjunction, hgroups, outline_disjunction]
  unfold fragment
  rw [main_isEmpty_of_outline h, groups_isEmpty_of_outline h]
  split_ifs
  · exact hfirst
  · exact hsecond
  · simp [hfirst, hsecond]

/-- The whole `WHERE` part of a filter has an outline that only depends on the filter's. -/
theorem outline_where (h : f.outline d = g.outline d) :
    (f.whereFragment d).outline = (g.whereFragment d).outline := by
  unfold whereFragment
  rw [isEmpty_of_outline h]
  split_ifs
  · rfl
  · simp [outline_fragment h]

end Filter

/-! ## Values of the same kind -/

/-- Values that were not given stand at the same places. -/
def SameGaps (vs ws : List Value) : Prop := vs.map Value.isUnset = ws.map Value.isUnset

/-- Sub-arrays of IN_JSON with gaps at the same places and, in SQLite, equally many different
values. -/
structure SameArray (d : Dialect) (utc : Bool) (vs ws : List Value) : Prop where
  gaps : SameGaps vs ws
  distinct : d = .sqlite → ∀ ps qs, Value.parameters utc vs = .ok ps →
    Value.parameters utc ws = .ok qs →
      (Value.distinctFrom [] ps).length = (Value.distinctFrom [] qs).length

/-- Elements of an operand of IN_JSON: both are sub-arrays or neither is. -/
inductive SameElement (d : Dialect) (utc : Bool) : Value → Value → Prop where
  | array {v w : Value} {vs ws : List Value} (hv : sequence? v = some vs)
      (hw : sequence? w = some ws) (h : SameArray d utc vs ws) : SameElement d utc v w
  | single {v w : Value} (hv : sequence? v = none) (hw : sequence? w = none)
      (h : v.isUnset = w.isUnset) : SameElement d utc v w

/-- Operands of LIKE: records whose entries say nothing at the same places, or other values of which
both say something or neither does. -/
inductive SameLike : Value → Value → Prop where
  | paths {fs gs : Record} (h : fs.map (fun f => isVoid f.2) = gs.map fun g => isVoid g.2) :
      SameLike (.record fs) (.record gs)
  | whole {v w : Value} (hv : ∀ fs, v ≠ .record fs) (hw : ∀ gs, w ≠ .record gs)
      (h : isVoid v = isVoid w) : SameLike v w

/-- The elements of an operand of IN_JSON, which may be one itself. -/
def elements (operand : Value) : List Value := (sequence? operand).getD [operand]

/-- Given operands that an operator cannot tell apart but by their values. -/
def SameParts (d : Dialect) (utc : Bool) : Operator → Value → Value → Prop
  | .compare _, _, _ => True
  | .oneOf, v, w => SameGaps (operandItems v) (operandItems w)
  | .inJson, v, w => List.Forall₂ (SameElement d utc) (elements v) (elements w)
  | .like, v, w => SameLike v w

/-- Operands of an operator that are of the same kind. One that is missing is as good as one that
was not given. -/
inductive SameOperand (d : Dialect) (utc : Bool) (op : Operator) : Value → Value → Prop where
  | unset : SameOperand d utc op .unset .unset
  | null : SameOperand d utc op .null .null
  | given {v w : Value} (hv : v ≠ .unset ∧ v ≠ .null) (hw : w ≠ .unset ∧ w ≠ .null)
      (h : SameParts d utc op v w) : SameOperand d utc op v w

/-- Whether a value in a condition is compared with as a whole. -/
def IsPlain : Value → Prop
  | .unset => False
  | .null => False
  | .list _ => False
  | .tuple _ => False
  | .record fields => Record.get? "operator" fields = none
  | _ => True

/-- Values of a key that are of the same kind. -/
inductive SameKind (d : Dialect) (utc : Bool) : Value → Value → Prop where
  | unset : SameKind d utc .unset .unset
  | null : SameKind d utc .null .null
  | plain {v w : Value} (hv : IsPlain v) (hw : IsPlain w) : SameKind d utc v w
  | items {v w : Value} {vs ws : List Value} (hv : sequence? v = some vs) (hw : sequence? w = some ws)
      (h : SameGaps vs ws) : SameKind d utc v w
  | operator {fs gs : Record} {op : Operator} (hf : operatorOf? fs = some op)
      (hg : operatorOf? gs = some op)
      (h : SameOperand d utc op (Record.getD "value" fs) (Record.getD "value" gs)) :
      SameKind d utc (.record fs) (.record gs)

/-- Entries of a condition with one key and values of the same kind. -/
structure SameEntry (d : Dialect) (utc : Bool) (e e' : String × Value) : Prop where
  key : e.1 = e'.1
  kind : SameKind d utc e.2 e'.2

/-- Conditions of the same shape. -/
def SameShape (d : Dialect) (utc : Bool) (q q' : Value) : Prop :=
  List.Forall₂ (SameEntry d utc) (fieldsOf q) (fieldsOf q')

/-! ## Lists of values -/

/-- Values with the same gaps are equally many. -/
theorem SameGaps.length {vs ws : List Value} (h : SameGaps vs ws) : vs.length = ws.length := by
  simpa using congrArg List.length h

/-- What is given of them is equally much. -/
theorem SameGaps.given {vs ws : List Value} (h : SameGaps vs ws) :
    (given vs).length = (given ws).length := by
  have hcount (us : List Value) : (Sql.given us).length = (us.map Value.isUnset).countP (!·) := by
    rw [Sql.given, ← List.countP_eq_length_filter, List.countP_map]
    rfl
  rw [hcount, h, hcount]

/-- The atoms of two lists with the same gaps have one outline. -/
theorem oneOfAtom_outline {vs ws : List Value} {a b : Atom} (h : SameGaps vs ws)
    (ha : oneOfAtom utc c vs = .ok a) (hb : oneOfAtom utc c ws = .ok b) :
    a.outline d = b.outline d := by
  obtain ⟨ps, hps, rfl⟩ := functor_map_eq_ok.mp ha
  obtain ⟨qs, hqs, rfl⟩ := functor_map_eq_ok.mp hb
  have hlength : ps.length = qs.length := by
    rw [length_parameters hps, length_parameters hqs, h.given]
  cases ps with
  | nil =>
    obtain rfl := List.length_eq_zero_iff.mp hlength.symm
    rfl
  | cons p ps =>
    cases qs with
    | nil => simp at hlength
    | cons q qs => simp [Atom.outline, Atom.fragment, hlength]

/-! ## Tests of JSON columns -/

/-- A test for containment shows only how many values it has. -/
theorem JsonTest.outline_contains {ps qs : List Value} (h : ps.length = qs.length) :
    JsonTest.outline d c (.contains ps) = JsonTest.outline d c (.contains qs) := by
  cases d <;> simp [outline, fragment, h]

/-- A test for overlap shows only how many values it has. -/
theorem JsonTest.outline_overlaps {ps qs : List Value} (h : ps.length = qs.length) :
    JsonTest.outline d c (.overlaps ps) = JsonTest.outline d c (.overlaps qs) := by
  cases d <;> simp [outline, fragment, h]

/-- Tests for the same number of values, and in SQLite of distinct ones, have one outline. -/
theorem containing_outline {ps qs : List Value} {t u : JsonTest} (hlength : ps.length = qs.length)
    (hdistinct : d = .sqlite →
      (Value.distinctFrom [] ps).length = (Value.distinctFrom [] qs).length)
    (ht : JsonTest.containing d ps = .ok t) (hu : JsonTest.containing d qs = .ok u) :
    t.outline d c = u.outline d c := by
  cases d with
  | mysql =>
    obtain rfl := Except.ok.inj ht
    obtain rfl := Except.ok.inj hu
    exact JsonTest.outline_contains hlength
  | sqlite =>
    simp only [JsonTest.containing, Value.dedupe?] at ht hu
    split_ifs at ht hu
    · obtain rfl := Except.ok.inj ht
      obtain rfl := Except.ok.inj hu
      exact JsonTest.outline_contains (hdistinct rfl)
    · simp [misfit] at hu
    · simp [misfit] at ht
    · simp [misfit] at ht

/-- The tests for like arrays have outlines that agree one by one. -/
theorem containmentTests_outline {as bs : List (List Value)} {ts us : List JsonTest}
    (h : List.Forall₂ (SameArray d utc) as bs) (ht : containmentTests d utc as = .ok ts)
    (hu : containmentTests d utc bs = .ok us) :
    ts.map (JsonTest.outline d c) = us.map (JsonTest.outline d c) := by
  induction h generalizing ts us with
  | nil =>
    obtain rfl := Except.ok.inj ht
    obtain rfl := Except.ok.inj hu
    rfl
  | cons hfirst hlater ih =>
    obtain ⟨ps, hps, hrest⟩ := bind_eq_ok.mp ht
    obtain ⟨qs, hqs, hrest'⟩ := bind_eq_ok.mp hu
    have hlength : ps.length = qs.length := by
      rw [length_parameters hps, length_parameters hqs, hfirst.gaps.given]
    rw [isEmpty_eq_of_length_eq hlength] at hrest
    split_ifs at hrest hrest'
    · exact ih hrest hrest'
    · obtain ⟨t, htest, hmore⟩ := bind_eq_ok.mp hrest
      obtain ⟨u, hutest, hmore'⟩ := bind_eq_ok.mp hrest'
      obtain ⟨ts, hts, rfl⟩ := functor_map_eq_ok.mp hmore
      obtain ⟨us, hus, rfl⟩ := functor_map_eq_ok.mp hmore'
      have houtline := containing_outline (c := c) hlength
        (fun hsqlite => hfirst.distinct hsqlite ps qs hps hqs) htest hutest
      rw [List.map_cons, List.map_cons, houtline, ih hts hus]

/-- The outline of alternatives is made of those of the tests. -/
theorem outline_anyJson (ts : List JsonTest) : (Atom.anyJson c ts).outline d =
    (Fragment.joined " OR " (ts.map (JsonTest.outline d c))).parenthesized := by
  simp only [Atom.outline, Atom.fragment, Fragment.outline_parenthesized, Fragment.outline_joined,
    List.map_map]
  rfl

/-- Whether there are one or several tests, their outlines are all that the outline of the atom
needs. -/
theorem ofTests_outline {ts us : List JsonTest}
    (h : ts.map (JsonTest.outline d c) = us.map (JsonTest.outline d c)) :
    (Atom.ofTests c ts).outline d = (Atom.ofTests c us).outline d := by
  match ts, us with
  | [], [] => rfl
  | [t], [u] => exact List.head_eq_of_cons_eq h
  | t :: t' :: ts, u :: u' :: us =>
    show (Atom.anyJson c (t :: t' :: ts)).outline d = (Atom.anyJson c (u :: u' :: us)).outline d
    rw [outline_anyJson, outline_anyJson, h]
  | [], u :: us => simp at h
  | t :: ts, [] => simp at h
  | [t], u :: u' :: us => simp at h
  | t :: t' :: ts, [u] => simp at h

section InJson

variable {vs ws : List Value}

/-- Like elements have like arrays among them. -/
theorem sameArrays_of_elements (h : List.Forall₂ (SameElement d utc) vs ws) :
    List.Forall₂ (SameArray d utc) (vs.filterMap sequence?) (ws.filterMap sequence?) := by
  induction h with
  | nil => exact .nil
  | cons hfirst _ ih =>
    cases hfirst with
    | array hv hw hsame =>
      rw [List.filterMap_cons_some hv, List.filterMap_cons_some hw]
      exact .cons hsame ih
    | single hv hw _ => rwa [List.filterMap_cons_none hv, List.filterMap_cons_none hw]

/-- Like elements spread to equally many values. -/
theorem length_spread_of_elements (h : List.Forall₂ (SameElement d utc) vs ws) :
    (spread vs).length = (spread ws).length := by
  induction h with
  | nil => rfl
  | cons hfirst _ ih =>
    rw [spread_eq, spread_eq] at ih ⊢
    cases hfirst with
    | array hv hw hsame => simp [hv, hw, ih, hsame.gaps.length]
    | single hv hw hunset =>
      have hgiven := @SameGaps.given [_] [_] (by simpa [SameGaps] using hunset)
      simp [hv, hw, ih, hgiven]

/-- Whether all elements are sub-arrays does not depend on their values. -/
theorem allArrays_of_elements (h : List.Forall₂ (SameElement d utc) vs ws) :
    (vs ≠ [] ∧ ∀ v ∈ vs, (sequence? v).isSome) ↔ (ws ≠ [] ∧ ∀ w ∈ ws, (sequence? w).isSome) := by
  rw [← List.filterMap_length_eq_length, ← List.filterMap_length_eq_length,
    ← List.length_pos_iff, ← List.length_pos_iff, h.length_eq, (sameArrays_of_elements h).length_eq]

/-- The atoms of two operands with like elements have one outline. -/
theorem inJsonAtom_outline {v w : Value} {a b : Atom}
    (h : List.Forall₂ (SameElement d utc) (elements v) (elements w))
    (ha : inJsonAtom d utc c v = .ok a) (hb : inJsonAtom d utc c w = .ok b) :
    a.outline d = b.outline d := by
  rw [inJsonAtom_elements] at ha hb
  unfold elements at h
  generalize (sequence? v).getD [v] = vs at h ha
  generalize (sequence? w).getD [w] = ws at h hb
  -- Elements of one shape are sub-arrays together, so both operands go the same way.
  by_cases harrays : vs ≠ [] ∧ ∀ v ∈ vs, (sequence? v).isSome
  · rw [inJsonAtom_arrays harrays] at ha
    rw [inJsonAtom_arrays ((allArrays_of_elements h).mp harrays)] at hb
    obtain ⟨ts, hts, rfl⟩ := map_eq_ok.mp ha
    obtain ⟨us, hus, rfl⟩ := map_eq_ok.mp hb
    exact ofTests_outline (containmentTests_outline (sameArrays_of_elements h) hts hus)
  · rw [inJsonAtom_mixed harrays] at ha
    rw [inJsonAtom_mixed fun hall => harrays ((allArrays_of_elements h).mpr hall)] at hb
    have hlength := length_spread_of_elements h
    rw [isEmpty_eq_of_length_eq hlength] at ha
    split_ifs at ha hb
    · obtain rfl := Except.ok.inj ha
      obtain rfl := Except.ok.inj hb
      rfl
    · obtain ⟨ps, hps, rfl⟩ := map_eq_ok.mp ha
      obtain ⟨qs, hqs, rfl⟩ := map_eq_ok.mp hb
      exact JsonTest.outline_overlaps
        (by rw [length_of_mapM_eq_ok hps, length_of_mapM_eq_ok hqs, hlength])

end InJson

/-! ## LIKE -/

/-- A pattern for paths shows only how many of its fields are given. -/
theorem pathTests_outline {pattern : Value} {fields : Record} {ts : List JsonTest}
    (h : pathTests pattern fields = .ok ts) :
    ts.map (JsonTest.outline d c) = List.replicate
      ((fields.map fun f => isVoid f.2).countP (!·)) (JsonTest.outline d c (.pathLike .null .null)) := by
  induction fields generalizing ts with
  | nil =>
    obtain rfl := Except.ok.inj h
    rfl
  | cons entry rest ih =>
    obtain ⟨key, operand⟩ := entry
    unfold pathTests at h
    cases hvoid : isVoid operand with
    | true => simpa [hvoid] using ih (by simpa [hvoid] using h)
    | false =>
      obtain ⟨text, -, ts, hts, rfl⟩ : ∃ text, likeOperand operand pattern = .ok text ∧
          ∃ ts', pathTests pattern rest = .ok ts' ∧
            .pathLike (.text ("$." ++ key)) (.text text) :: ts' = ts := by simpa [hvoid] using h
      have hpath : JsonTest.outline d c (.pathLike (.text ("$." ++ key)) (.text text)) =
          JsonTest.outline d c (.pathLike .null .null) := by
        cases d <;> simp [JsonTest.outline, JsonTest.fragment]
      simp [hvoid, hpath, ih hts, List.replicate_succ]

/-- The atoms of two operands of one kind for a pattern have one outline. -/
theorem likeAtom_outline {v w pattern pattern' : Value} {x y : Option Atom} (h : SameLike v w)
    (hx : likeAtom c v pattern = .ok x) (hy : likeAtom c w pattern' = .ok y) :
    x.map (Atom.outline d) = y.map (Atom.outline d) := by
  unfold likeAtom at hx hy
  cases h with
  | paths hvoid =>
    obtain ⟨ts, hts, rfl⟩ := functor_map_eq_ok.mp hx
    obtain ⟨us, hus, rfl⟩ := functor_map_eq_ok.mp hy
    have houtline : ts.map (JsonTest.outline d c) = us.map (JsonTest.outline d c) := by
      rw [pathTests_outline hts, pathTests_outline hus, hvoid]
    rw [isEmpty_eq_of_map_eq houtline]
    split_ifs
    · rfl
    · have hmap : (ts.map (JsonTest.fragment d c.fragment)).map Fragment.outline =
          (us.map (JsonTest.fragment d c.fragment)).map Fragment.outline := by
        rw [List.map_map, List.map_map]
        exact houtline
      simp [Atom.outline, Atom.fragment, Fragment.outline_joined, hmap]
  | whole hv hw hvoid =>
    rw [hvoid] at hx
    split_ifs at hx hy
    · obtain rfl := Except.ok.inj hx
      obtain rfl := Except.ok.inj hy
      rfl
    · obtain ⟨p, rfl⟩ : ∃ p, some (Atom.like c p) = x := by
        cases v with
        | record fs => exact absurd rfl (hv fs)
        | _ =>
          obtain ⟨text, -, rfl⟩ := functor_map_eq_ok.mp hx
          exact ⟨_, rfl⟩
      obtain ⟨q, rfl⟩ : ∃ q, some (Atom.like c q) = y := by
        cases w with
        | record gs => exact absurd rfl (hw gs)
        | _ =>
          obtain ⟨text, -, rfl⟩ := functor_map_eq_ok.mp hy
          exact ⟨_, rfl⟩
      simp [Atom.outline, Atom.fragment]

/-! ## Entries -/

/-- What an operator makes of an operand that is given. -/
theorem operandAtom_given {v : Value} (h : v ≠ .unset ∧ v ≠ .null) (op : Operator) (pattern : Value) :
    operandAtom d utc c op v pattern = match op with
      | .compare comparison => (Value.parameter utc v).map fun p => some (.compare c comparison p)
      | .like => likeAtom c v (if pattern.isTrue then pattern else .text "contains")
      | .oneOf => (oneOfAtom utc c (operandItems v)).map some
      | .inJson => (inJsonAtom d utc c v).map some := by
  cases v with
  | unset => exact absurd rfl h.1
  | null => exact absurd rfl h.2
  | _ => rfl

/-- The atoms that an operator makes of two like operands have one outline. -/
theorem operandAtom_outline {op : Operator} {v w pattern pattern' : Value} {x y : Option Atom}
    (h : SameOperand d utc op v w) (hx : operandAtom d utc c op v pattern = .ok x)
    (hy : operandAtom d utc c op w pattern' = .ok y) :
    x.map (Atom.outline d) = y.map (Atom.outline d) := by
  cases h with
  | unset =>
    obtain rfl := Except.ok.inj hx
    obtain rfl := Except.ok.inj hy
    rfl
  | null =>
    obtain rfl := Except.ok.inj hx
    obtain rfl := Except.ok.inj hy
    rfl
  | given hv hw hparts =>
    rw [operandAtom_given hv] at hx
    rw [operandAtom_given hw] at hy
    cases op with
    | compare comparison =>
      obtain ⟨p, -, rfl⟩ := map_eq_ok.mp hx
      obtain ⟨q, -, rfl⟩ := map_eq_ok.mp hy
      simp [Atom.outline, Atom.fragment]
    | like => exact likeAtom_outline hparts hx hy
    | oneOf =>
      obtain ⟨a, ha, rfl⟩ := map_eq_ok.mp hx
      obtain ⟨b, hb, rfl⟩ := map_eq_ok.mp hy
      exact congrArg some (oneOfAtom_outline hparts ha hb)
    | inJson =>
      obtain ⟨a, ha, rfl⟩ := map_eq_ok.mp hx
      obtain ⟨b, hb, rfl⟩ := map_eq_ok.mp hy
      exact congrArg some (inJsonAtom_outline hparts ha hb)

section Entries

variable {owner : Value} {key : String}

/-- A plain value is compared for equality. -/
theorem entryAtom_plain {v : Value} {x : Option Atom} (h : IsPlain v)
    (hx : entryAtom d owner utc key v = .ok x) :
    ∃ c p, (ColumnRef.ofKey key).within owner = .ok c ∧ Value.parameter utc v = .ok p ∧
      x = some (.compare c .equal p) := by
  cases v with
  | unset => exact h.elim
  | null => exact h.elim
  | list vs => exact h.elim
  | tuple vs => exact h.elim
  | record fields =>
    obtain ⟨c, hc, hatom⟩ := bind_eq_ok.mp hx
    have hnone : Record.get? "operator" fields = none := h
    dsimp only at hatom
    rw [hnone] at hatom
    obtain ⟨p, hparameter, hp⟩ := bind_eq_ok.mp hatom
    exact ⟨c, p, hc, hparameter, (pure_eq_ok.mp hp).symm⟩
  | _ =>
    obtain ⟨c, hc, hatom⟩ := bind_eq_ok.mp hx
    obtain ⟨p, hparameter, hp⟩ := bind_eq_ok.mp hatom
    exact ⟨c, p, hc, hparameter, (pure_eq_ok.mp hp).symm⟩

/-- A tuple stands for the list of its items. -/
theorem entryAtom_sequence {v : Value} {vs : List Value} (h : sequence? v = some vs) :
    entryAtom d owner utc key v = entryAtom d owner utc key (.list vs) := by
  cases v with
  | list us => rw [Option.some.inj h]
  | tuple us => obtain rfl := Option.some.inj h; rfl
  | _ => simp [sequence?] at h

/-- Values of the same kind under one key give atoms with one outline, or none. -/
theorem entryAtom_outline {v w : Value} {x y : Option Atom} (h : SameKind d utc v w)
    (hx : entryAtom d owner utc key v = .ok x) (hy : entryAtom d owner utc key w = .ok y) :
    x.map (Atom.outline d) = y.map (Atom.outline d) := by
  cases h with
  | unset => rw [Except.ok.inj (hx.symm.trans hy)]
  | null => rw [Except.ok.inj (hx.symm.trans hy)]
  | plain hv hw =>
    obtain ⟨c, p, hc, -, rfl⟩ := entryAtom_plain hv hx
    obtain ⟨c', q, hc', -, rfl⟩ := entryAtom_plain hw hy
    obtain rfl := Except.ok.inj (hc.symm.trans hc')
    simp [Atom.outline, Atom.fragment]
  | items hv hw hgaps =>
    rw [entryAtom_sequence hv, entryAtom_list] at hx
    rw [entryAtom_sequence hw, entryAtom_list] at hy
    obtain ⟨c, hc, hfirst⟩ := bind_eq_ok.mp hx
    obtain ⟨c', hc', hsecond⟩ := bind_eq_ok.mp hy
    obtain rfl := Except.ok.inj (hc.symm.trans hc')
    obtain ⟨a, ha, rfl⟩ := map_eq_ok.mp hfirst
    obtain ⟨b, hb, rfl⟩ := map_eq_ok.mp hsecond
    exact congrArg some (oneOfAtom_outline hgaps ha hb)
  | operator hf hg hoperand =>
    rw [entryAtom_record hf] at hx
    rw [entryAtom_record hg] at hy
    obtain ⟨c, hc, ha⟩ := bind_eq_ok.mp hx
    obtain ⟨c', hc', hb⟩ := bind_eq_ok.mp hy
    obtain rfl := Except.ok.inj (hc.symm.trans hc')
    exact operandAtom_outline hoperand ha hb

/-- Like entries have atoms whose outlines agree one by one. -/
theorem entryAtoms_outline {fields fields' : Record} {as bs : List Atom}
    (h : List.Forall₂ (SameEntry d utc) fields fields')
    (ha : entryAtoms d owner utc fields = .ok as) (hb : entryAtoms d owner utc fields' = .ok bs) :
    as.map (Atom.outline d) = bs.map (Atom.outline d) := by
  induction h generalizing as bs with
  | nil =>
    obtain rfl := Except.ok.inj ha
    obtain rfl := Except.ok.inj hb
    rfl
  | @cons e e' rest rest' hfirst _ ih =>
    obtain ⟨key, v⟩ := e
    obtain ⟨key', w⟩ := e'
    obtain rfl : key = key' := hfirst.key
    obtain ⟨x, hx, hrest⟩ := bind_eq_ok.mp ha
    obtain ⟨y, hy, hrest'⟩ := bind_eq_ok.mp hb
    have houtline := entryAtom_outline hfirst.kind hx hy
    cases x with
    | none =>
      obtain rfl : y = none := Option.map_eq_none_iff.mp houtline.symm
      exact ih hrest hrest'
    | some a =>
      obtain ⟨b, rfl, hab⟩ := Option.map_eq_some_iff.mp houtline.symm
      obtain ⟨as, has, rfl⟩ := functor_map_eq_ok.mp hrest
      obtain ⟨bs, hbs, rfl⟩ := functor_map_eq_ok.mp hrest'
      rw [List.map_cons, List.map_cons, hab, ih has hbs]

/-- Like groups have atoms whose outlines agree group by group. -/
theorem compileGroups_outline {groups groups' : List Value} {gs hs : List (List Atom)}
    (h : List.Forall₂ (SameShape d utc) groups groups')
    (hg : Filter.compileGroups d owner utc groups = .ok gs)
    (hh : Filter.compileGroups d owner utc groups' = .ok hs) :
    gs.map (List.map (Atom.outline d)) = hs.map (List.map (Atom.outline d)) := by
  induction h generalizing gs hs with
  | nil =>
    obtain rfl := Except.ok.inj hg
    obtain rfl := Except.ok.inj hh
    rfl
  | cons hfirst _ ih =>
    obtain ⟨fields, hfields, hatoms⟩ := bind_eq_ok.mp hg
    obtain ⟨as, has, hothers⟩ := bind_eq_ok.mp hatoms
    obtain ⟨others, hrest, hgs⟩ := bind_eq_ok.mp hothers
    obtain ⟨fields', hfields', hatoms'⟩ := bind_eq_ok.mp hh
    obtain ⟨bs, hbs, hothers'⟩ := bind_eq_ok.mp hatoms'
    obtain ⟨others', hrest', hhs⟩ := bind_eq_ok.mp hothers'
    obtain rfl := pure_eq_ok.mp hgs
    obtain rfl := pure_eq_ok.mp hhs
    obtain rfl := (groupOf_erase hfields).1
    obtain rfl := (groupOf_erase hfields').1
    have houtline := entryAtoms_outline hfirst has hbs
    have hlater := ih hrest hrest'
    rw [isEmpty_eq_of_map_eq houtline]
    split_ifs
    · exact hlater
    · rw [List.map_cons, List.map_cons, houtline, hlater]

/-- Conditions of the same shape with groups of the same shape are compiled to filters with one
outline. -/
theorem compile_outline {query query' : Value} {groups groups' : List Value} {f g : Filter}
    (hquery : SameShape d utc query query') (hgroups : List.Forall₂ (SameShape d utc) groups groups')
    (hf : Filter.compile d owner utc query groups = .ok f)
    (hg : Filter.compile d owner utc query' groups' = .ok g) : f.outline d = g.outline d := by
  obtain ⟨fields, hfields, hcompiled⟩ := bind_eq_ok.mp hf
  obtain ⟨main, hmain, hrest⟩ := bind_eq_ok.mp hcompiled
  obtain ⟨compiled, hothers, rfl⟩ := functor_map_eq_ok.mp hrest
  obtain ⟨fields', hfields', hcompiled'⟩ := bind_eq_ok.mp hg
  obtain ⟨main', hmain', hrest'⟩ := bind_eq_ok.mp hcompiled'
  obtain ⟨compiled', hothers', rfl⟩ := functor_map_eq_ok.mp hrest'
  obtain rfl := (conditionOf_erase hfields).1
  obtain rfl := (conditionOf_erase hfields').1
  unfold Filter.outline
  rw [entryAtoms_outline hquery hmain hmain', compileGroups_outline hgroups hothers hothers']

end Entries

end Quarry.Sql
