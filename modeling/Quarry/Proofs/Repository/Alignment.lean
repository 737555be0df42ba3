import Quarry.Proofs.Repository.Built

/-!
# Placeholders and parameters

A driver binds the first parameter to the first placeholder in the text, the second to the second,
and so on. Text and parameters of a statement are written apart from each other, but of the same
parts: the atoms of its condition, the branches of a case, the items that an update sets, the cells
of an inserted row. Between them there is text that binds nothing. A statement is `Aligned` with its
parts when the text and the parameters are those of the parts one behind the other, there are as
many placeholders as parameters, and a placeholder stands in the text of a part exactly when the
parameter of its number is one of that part.

The parts are shown for every kind of statement: conditions, selects, aggregates, inserts, updates
and deletes. Names may contain what placeholders look like, since they stand in quotes.
-/

set_option autoImplicit false

namespace Quarry.Sql

variable {d : Dialect}

/-! ## Parts -/

/-- A part of a statement. -/
inductive Part where
  /-- Text that binds nothing. -/
  | text (t : String)
  /-- An atom of a condition. -/
  | atom (a : Atom)
  /-- A branch of a case: its keyword and its value. -/
  | branch (keyword : String) (value : Value)
  /-- What an update sets a column to. -/
  | item (column : String) (value : Value)
  /-- What an insert writes into a column of a row, the first row of the batch being `first`. -/
  | cell (first row : Record) (column : String)

namespace Part

/-- What is written of a part. -/
def write (d : Dialect) : Part → Statement
  | .text t => ⟨t, []⟩
  | .atom a => a.write d
  | .branch keyword v => ⟨keyword ++ d.placeholder, [v]⟩
  | .item column v => ⟨d.quoteName column ++ " = " ++ d.placeholder, [v]⟩
  | .cell first row column => (Insert.writeCell d first row {} column).joined ", "

/-- The characters of a part. -/
def chars (d : Dialect) (p : Part) : List Char := (p.write d).sql.toList

/-- The values that a part binds. -/
def params (d : Dialect) (p : Part) : List Value := (p.write d).params

/-- The pieces of a part. -/
def fragment (d : Dialect) : Part → Fragment
  | .text t => [.raw t]
  | .atom a => a.fragment d
  | .branch keyword v => [.word keyword, .slot v]
  | .item column v => [.name column, .word " = ", .slot v]
  | .cell first row column => Insert.cell first row column

/-- What is written of a part is what its pieces print and bind. -/
theorem write_eq (p : Part) : p.write d = (p.fragment d).statement d := by
  cases p with
  | text t => simp [write, fragment, Fragment.statement, sql_cons, sql_nil, Piece.chars, Fragment.params,
      Piece.param?]
  | atom a => exact a.write_eq
  | branch keyword v => simp [write, fragment, Fragment.statement, sql_cons, sql_nil, Piece.chars]
  | item column v =>
    simp [write, fragment, Fragment.statement, sql_cons, sql_nil, Piece.chars, Dialect.quoteName,
      String.append_assoc]
  | cell first row column =>
    simp [write, fragment, Fragment.statement, Insert.writeCell_eq, Draft.joined, Draft.add]

/-- The characters of a part are those of its pieces. -/
theorem chars_eq (p : Part) : p.chars d = Fragment.chars d (p.fragment d) := by
  rw [chars, write_eq, Fragment.statement, Fragment.sql, String.toList_ofList]

/-- The values that a part binds are those of its pieces. -/
theorem params_eq (p : Part) : p.params d = Fragment.params (p.fragment d) := by
  rw [params, write_eq]
  rfl

/-- Whether a part is nothing but text. -/
def isText : Part → Bool
  | .text _ => true
  | _ => false

/-- The parts that may bind something. -/
def sources (parts : List Part) : List Part := parts.filter fun p => !p.isText

end Part

/-- Whether a number is one of `size` numbers from `start` on. -/
def IsAmong (start size x : Nat) : Prop := start ≤ x ∧ x < start + size

/-- A statement that is made of parts, with its placeholders where the parts bind values. -/
structure Aligned (d : Dialect) (s : Statement) (parts : List Part) : Prop where
  sql : s.sql = String.ofList (parts.flatMap (Part.chars d))
  params : s.params = parts.flatMap (Part.params d)
  count : (places d s.sql).length = s.params.length
  /-- The placeholder of number `k` stands in the text of a part exactly when the parameter of
  number `k` is one of the part's. -/
  belongs : ∀ before part after, parts = before ++ part :: after →
    ∀ k place, (places d s.sql)[k]? = some place →
      (IsAmong (before.flatMap (Part.chars d)).length (part.chars d).length place ↔
        IsAmong (before.flatMap (Part.params d)).length (part.params d).length k)

/-- A statement that is aligned with parts, of which these are more than text. -/
def AlignedWith (d : Dialect) (s : Statement) (sources : List Part) : Prop :=
  ∃ parts, Part.sources parts = sources ∧ Aligned d s parts

/-! ## Parts with their own placeholders -/

/-- A part whose placeholders are its own and as many as its parameters. -/
def Part.IsClosed (d : Dialect) (p : Part) : Prop := Holds d (p.chars d) (p.params d).length

/-- The placeholders of closed parts are as many as their parameters. -/
theorem holds_parts {parts : List Part} (h : ∀ p ∈ parts, p.IsClosed d) :
    Holds d (parts.flatMap (Part.chars d)) (parts.flatMap (Part.params d)).length := by
  induction parts with
  | nil => exact holds_nil
  | cons p parts ih =>
    obtain ⟨hp, hparts⟩ := List.forall_mem_cons.mp h
    rw [List.flatMap_cons, List.flatMap_cons, List.length_append]
    exact Holds.append hp (ih hparts)

/-- In a list whose middle part has `n` numbers at most from `a` on, the part before it lower ones
and the part behind it higher ones, a number is one of the `n` exactly when it stands in the
middle. -/
theorem among_middle_iff {xs ys zs : List Nat} {a n k x : Nat} (hxs : ∀ x ∈ xs, x < a)
    (hys : ∀ y ∈ ys, IsAmong a n y) (hzs : ∀ z ∈ zs, a + n ≤ z)
    (h : (xs ++ (ys ++ zs))[k]? = some x) :
    IsAmong a n x ↔ IsAmong xs.length ys.length k := by
  unfold IsAmong at hys ⊢
  -- The list in which the number of index `k` is found decides both sides.
  by_cases hfirst : k < xs.length
  · rw [List.getElem?_append_left hfirst] at h
    have hlow := hxs x (List.mem_of_getElem? h)
    omega
  · rw [List.getElem?_append_right (by omega)] at h
    by_cases hmiddle : k - xs.length < ys.length
    · rw [List.getElem?_append_left hmiddle] at h
      have hinside := hys x (List.mem_of_getElem? h)
      omega
    · rw [List.getElem?_append_right (by omega)] at h
      have hhigh := hzs x (List.mem_of_getElem? h)
      omega

/-- A statement made of closed parts is aligned with them. -/
theorem aligned_of_closed {s : Statement} {parts : List Part}
    (hsql : s.sql = String.ofList (parts.flatMap (Part.chars d)))
    (hparams : s.params = parts.flatMap (Part.params d)) (hclosed : ∀ p ∈ parts, p.IsClosed d) :
    Aligned d s parts := by
  have htext : s.sql.toList = parts.flatMap (Part.chars d) := by rw [hsql, String.toList_ofList]
  refine ⟨hsql, hparams, ?_, ?_⟩
  · obtain ⟨inside, hlength, -, hplaces⟩ := holds_parts hclosed
    have hall := hplaces 0 []
    rw [places, htext, hparams, ← hlength]
    simpa [placesFrom] using congrArg List.length hall
  · rintro before part after rfl k place hplace
    simp only [List.mem_append, List.mem_cons] at hclosed
    obtain ⟨front, hfront, hfrontBound, hfrontPlaces⟩ :=
      holds_parts fun p hp => hclosed p (.inl hp)
    obtain ⟨own, hown, hownBound, hownPlaces⟩ := hclosed part (.inr (.inl rfl))
    have hplaces : places d s.sql = front ++
        (own.map ((before.flatMap (Part.chars d)).length + ·) ++
          placesFrom d false ((before.flatMap (Part.chars d)).length + (part.chars d).length)
            (after.flatMap (Part.chars d))) := by
      rw [places, htext, List.flatMap_append, List.flatMap_cons, hfrontPlaces, hownPlaces]
      simp
    -- Behind the part it is enough that no place is lower than its end.
    obtain ⟨back, -, -, hbackPlaces⟩ := holds_parts fun p hp => hclosed p (.inr (.inr hp))
    have hback := hbackPlaces
      ((before.flatMap (Part.chars d)).length + (part.chars d).length) []
    rw [List.append_nil] at hback
    rw [hplaces, hback] at hplace
    rw [← hfront, ← hown]
    have hmiddle := among_middle_iff (a := (before.flatMap (Part.chars d)).length)
      (n := (part.chars d).length) hfrontBound ?_ ?_ hplace
    · simpa using hmiddle
    · intro y hy
      obtain ⟨p, hp, rfl⟩ := List.mem_map.mp hy
      have hbound := hownBound p hp
      exact ⟨by omega, by omega⟩
    · intro z hz
      simp only [placesFrom, List.append_nil, List.mem_map] at hz
      obtain ⟨p, -, rfl⟩ := hz
      omega

/-! ## Fragments made of parts -/

/-- A fragment that is made of closed parts, of which these are more than text. -/
def Lays (d : Dialect) (f : Fragment) (sources : List Part) : Prop :=
  ∃ parts, Part.sources parts = sources ∧
    Fragment.chars d f = parts.flatMap (Part.chars d) ∧
    Fragment.params f = parts.flatMap (Part.params d) ∧ ∀ p ∈ parts, p.IsClosed d

/-- A fragment made of closed parts is aligned with them. -/
theorem Lays.aligned {f : Fragment} {sources : List Part} (h : Lays d f sources) :
    AlignedWith d (f.statement d) sources := by
  obtain ⟨parts, hsources, hchars, hparams, hclosed⟩ := h
  refine ⟨parts, hsources, aligned_of_closed ?_ hparams hclosed⟩
  rw [Fragment.statement, Fragment.sql, hchars]

/-- Parts one after the other. -/
theorem Lays.append {f g : Fragment} {ps qs : List Part} (h : Lays d f ps) (h' : Lays d g qs) :
    Lays d (f ++ g) (ps ++ qs) := by
  obtain ⟨parts, rfl, hchars, hparams, hclosed⟩ := h
  obtain ⟨others, rfl, hchars', hparams', hclosed'⟩ := h'
  refine ⟨parts ++ others, by simp [Part.sources], by simp [hchars, hchars'],
    by simp [hparams, hparams'], ?_⟩
  intro p hp
  obtain hp | hp := List.mem_append.mp hp
  · exact hclosed p hp
  · exact hclosed' p hp

/-- A fragment that binds nothing is one part, which is nothing but text. -/
theorem lays_fixed {f : Fragment} (h : f.isFixed false = true) : Lays d f [] := by
  have hchars : Fragment.chars d f = Part.chars d (.text (Fragment.sql d f)) := by
    simp [Part.chars, Part.write, Fragment.sql]
  have hparams := Fragment.params_of_isFixed h
  have hclosed := Fragment.holds (d := d) (Fragment.isTame_of_isFixed h)
  rw [hparams, hchars] at hclosed
  refine ⟨[.text (Fragment.sql d f)], rfl, by simpa using hchars, by rw [hparams]; rfl, ?_⟩
  intro p hp
  obtain rfl := List.mem_singleton.mp hp
  exact hclosed

/-- A fixed word is laid out without a source. -/
theorem lays_word {t : String} (h : (Piece.word t).isFixed false = true) : Lays d [.word t] [] :=
  lays_fixed (by rw [Fragment.isFixed_cons, h]; rfl)

/-- The fragment of a part is that part. -/
theorem lays_part {p : Part} (hsource : p.isText = false) (h : (p.fragment d).isTame = true) :
    Lays d (p.fragment d) [p] := by
  refine ⟨[p], by simp [Part.sources, hsource], by simp [p.chars_eq], by simp [p.params_eq], ?_⟩
  intro q hq
  obtain rfl := List.mem_singleton.mp hq
  rw [Part.IsClosed, q.chars_eq, q.params_eq]
  exact Fragment.holds h

/-- Fragments joined by a fixed word have the sources of all. -/
theorem lays_joined {separator : String} (hsep : (Piece.word separator).isFixed false = true)
    {fs : List Fragment} {sources : List (List Part)} (h : List.Forall₂ (Lays d) fs sources) :
    Lays d (Fragment.joined separator fs) sources.flatten := by
  induction h with
  | nil => exact lays_fixed rfl
  | @cons f ps fs sources hf hrest ih =>
    cases hrest with
    | nil => simpa [Fragment.joined] using hf
    | cons hg hrest =>
      have hlater := (lays_word hsep).append ih
      simpa [Grammar.joined_cons_cons] using hf.append hlater

/-- The sources of joined fragments come one by one. -/
theorem lays_joined_map {α : Type} {separator : String}
    (hsep : (Piece.word separator).isFixed false = true) (frag : α → Fragment)
    (sources : α → List Part) (xs : List α) (h : ∀ x ∈ xs, Lays d (frag x) (sources x)) :
    Lays d (Fragment.joined separator (xs.map frag)) (xs.flatMap sources) := by
  rw [List.flatMap_def]
  refine lays_joined hsep ?_
  rw [List.forall₂_map_left_iff, List.forall₂_map_right_iff]
  exact List.forall₂_same.mpr h

/-- Parentheses add no source. -/
theorem Lays.parenthesized {f : Fragment} {sources : List Part} (h : Lays d f sources) :
    Lays d f.parenthesized sources := by
  have hopen : Lays d [.word "("] [] := lays_word rfl
  have hclose : Lays d [.word ")"] [] := lays_word rfl
  simpa [Fragment.parenthesized] using hopen.append (h.append hclose)

/-! ## Conditions -/

namespace Filter

/-- The atoms of a filter in the order of the text, as parts. -/
def parts (f : Filter) : List Part := f.atoms.map .atom

/-- The sources of a conjunction are its atoms. -/
theorem lays_conjunction (atoms : List Atom) : Lays d (conjunction d atoms) (atoms.map .atom) := by
  have hand : (Piece.word " AND ").isFixed false = true := rfl
  have hjoined := lays_joined_map hand (Atom.fragment d) (fun a => [Part.atom a]) atoms
    fun a _ => lays_part (p := .atom a) rfl a.isTame_fragment
  simpa [conjunction, ← List.map_eq_flatMap] using hjoined

/-- The sources of a disjunction are the atoms of its groups. -/
theorem lays_disjunction (groups : List (List Atom)) :
    Lays d (disjunction d groups) (groups.flatten.map .atom) := by
  have hor : (Piece.word " OR ").isFixed false = true := rfl
  have hjoined := lays_joined_map hor (fun g => Fragment.parenthesized (conjunction d g))
    (List.map Part.atom) groups fun g _ => (lays_conjunction g).parenthesized
  simpa [disjunction, List.map_flatten, List.flatMap_def] using hjoined

/-- The sources of a filter are its parts. -/
theorem lays_fragment (f : Filter) : Lays d (f.fragment d) f.parts := by
  have hmain := lays_conjunction (d := d) f.main
  have hgroups := lays_disjunction (d := d) f.groups
  have hand : Lays d [.word " AND "] [] := lays_word rfl
  unfold fragment parts atoms
  rw [List.map_append]
  split_ifs with hnone hmainNone
  · simpa [List.isEmpty_iff.mp hnone] using hmain
  · simpa [List.isEmpty_iff.mp hmainNone] using hgroups
  · simpa using hmain.parenthesized.append (hand.append hgroups.parenthesized)

/-- The sources of the `WHERE` part are those of the filter. -/
theorem lays_where (f : Filter) : Lays d (f.whereFragment d) f.parts := by
  unfold whereFragment
  split_ifs with hempty
  · have hnone : f.main = [] ∧ f.groups = [] := by simpa [isEmpty] using hempty
    simpa [parts, atoms, hnone] using (lays_fixed (d := d) (f := []) rfl)
  · have hword : Lays d [.word " WHERE "] [] := lays_word rfl
    simpa using hword.append f.lays_fragment

end Filter

end Quarry.Sql
