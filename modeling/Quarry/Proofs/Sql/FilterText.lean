import Quarry.Proofs.Sql.JsonTestText

/-!
# Filters read back

A filter is printed at three levels: atoms, conjunctions of atoms, and groups with parentheses
around them. Two judgements on fragments carry the proof that the text is read back as the tree that
was printed. A fragment `Stands` for a condition that it is by itself, so that it may be joined to
others; it `Says` a condition that it is as a whole, and needs parentheses before it can be joined.
Atoms stand for what they are, joining leads from the first judgement to the second, and parentheses
lead back.
-/

set_option autoImplicit false

namespace Quarry.Sql

open Grammar (Token Item Term Condition Reads Closes Brackets Parses Undivided)

variable {α : Type} {d : Dialect}

namespace Grammar

/-! ## Fragments as conditions -/

/-- The tokens of a fragment. -/
def tokensOf (d : Dialect) (f : Fragment) : List Token := (tokens? d (Fragment.chars d f)).getD []

/-- A fragment that is one condition, and remains so when words are put around it. -/
structure Stands (d : Dialect) (f : Fragment) (c : Condition) : Prop where
  reads : Reads d (Fragment.chars d f) (tokensOf d f)
  parses : Parses (tokensOf d f) c

/-- A fragment that is a condition when nothing is around it. -/
def Says (d : Dialect) (f : Fragment) (c : Condition) : Prop :=
  ∃ ts items, Reads d (Fragment.chars d f) ts ∧ Brackets ts items ∧ condition items = some c

/-- What is read and parsed stands by itself. -/
theorem Stands.intro {f : Fragment} {ts : List Token} {c : Condition}
    (hr : Reads d (Fragment.chars d f) ts) (hp : Parses ts c) : Stands d f c := by
  have htokens : tokensOf d f = ts := by simp [tokensOf, hr.tokens?]
  exact ⟨htokens ▸ hr, htokens ▸ hp⟩

/-- What says a condition stands by itself in parentheses. -/
theorem Says.parenthesized {f : Fragment} {c : Condition} (h : Says d f c) :
    Stands d f.parenthesized c := by
  obtain ⟨ts, items, hreads, hbrackets, hc⟩ := h
  have hopen : Closes d ['('] [.mark '('] := by cases d <;> rfl
  have hclose : Closes d [')'] [.mark ')'] := by cases d <;> rfl
  have hall := hopen.append_reads (hreads.append (c := ')') rfl hclose.reads)
  have hparses : Parses (.mark '(' :: (ts ++ [.mark ')'])) c := by
    refine Parses.intro hbrackets.group ?_ (by simp [Undivided, Item.isWord])
    rw [hc]
    rfl
  exact Stands.intro (by simpa using hall) hparses

/-- Conditions joined by AND are a condition that says all of them. -/
theorem says_all (frag : α → Fragment) (cond : α → Condition) (xs : List α) (hne : xs ≠ [])
    (h : ∀ x ∈ xs, Stands d (frag x) (cond x)) :
    Says d (Fragment.joined " AND " (xs.map frag)) (.allOf (xs.map cond)) := by
  let items := fun x => itemsOf (tokensOf d (frag x))
  have hreads := reads_joined separates_and frag (fun x => tokensOf d (frag x)) xs hne
    fun x hx => (h x hx).reads
  have hbrackets := brackets_joined (t := .word "AND") (by simp) (by simp)
    (fun x => tokensOf d (frag x)) items xs fun x hx => (h x hx).parses.brackets
  have hor : ∀ i ∈ [Item.token (.word "AND")].intercalate (xs.map items), i.isWord "OR" = false := by
    intro i hi
    obtain rfl | ⟨part, hpart, hmem⟩ := mem_joined hi
    · rfl
    · obtain ⟨x, hx, rfl⟩ := List.mem_map.mp hpart
      exact ((h x hx).parses.undivided i hmem).2
  have hcut := splitOnP_joined (p := Item.isWord "AND") (.token (.word "AND")) rfl items xs hne
    fun x hx i hi => ((h x hx).parses.undivided i hi).1
  have hparts := mapM_map_eq_some (f := factor) items cond xs fun x hx => (h x hx).parses.factor
  refine ⟨_, _, hreads, hbrackets, ?_⟩
  rw [condition, List.splitOnP_eq_singleton hor]
  simp [conjunction, hcut, hparts, Condition.anyOf]

/-- Conditions joined by OR are a condition that says one of them. -/
theorem says_any (frag : α → Fragment) (cond : α → Condition) (xs : List α) (hne : xs ≠ [])
    (h : ∀ x ∈ xs, Stands d (frag x) (cond x)) :
    Says d (Fragment.joined " OR " (xs.map frag)) (.anyOf (xs.map cond)) := by
  let items := fun x => itemsOf (tokensOf d (frag x))
  have hreads := reads_joined separates_or frag (fun x => tokensOf d (frag x)) xs hne
    fun x hx => (h x hx).reads
  have hbrackets := brackets_joined (t := .word "OR") (by simp) (by simp)
    (fun x => tokensOf d (frag x)) items xs fun x hx => (h x hx).parses.brackets
  have hcut := splitOnP_joined (p := Item.isWord "OR") (.token (.word "OR")) rfl items xs hne
    fun x hx i hi => ((h x hx).parses.undivided i hi).2
  have hpart : ∀ x ∈ xs, conjunction (items x) = some (cond x) := by
    intro x hx
    have hand : ∀ i ∈ items x, i.isWord "AND" = false :=
      fun i hi => ((h x hx).parses.undivided i hi).1
    have hfactor : factor (items x) = some (cond x) := (h x hx).parses.factor
    simp [conjunction, List.splitOnP_eq_singleton hand, hfactor, Condition.allOf]
  have hparts := mapM_map_eq_some items cond xs hpart
  refine ⟨_, _, hreads, hbrackets, ?_⟩
  simp [condition, hcut, hparts]

/-- No items are no condition. -/
theorem condition_nil : condition [] = none := rfl

/-- What a fragment says is what its text is read as. -/
theorem Says.read {f : Fragment} {c : Condition} (h : Says d f c) :
    read d (Fragment.sql d f) = some (some c) := by
  obtain ⟨ts, items, hreads, hbrackets, hc⟩ := h
  have hne : items ≠ [] := by
    rintro rfl
    simp [condition_nil] at hc
  simp [Grammar.read, Fragment.sql, hreads.tokens?, hbrackets.bracket, hne, hc]

/-- An empty text is read as no condition. -/
theorem read_nil : read d (Fragment.sql d []) = some none := by
  cases d <;> rfl

end Grammar

open Grammar (Stands Says)

/-! ## Atoms -/

/-- What no row satisfies. -/
def Grammar.Condition.never : Condition := .compare (.number "1") .equal (.number "0")

namespace Atom

/-- Whether an atom has the values it needs. -/
def IsProper : Atom → Prop
  | .oneOf _ vs => vs ≠ []
  | .json _ t => t.IsProper
  | .anyJson _ ts => ts ≠ [] ∧ ∀ t ∈ ts, t.IsProper
  | _ => True

/-- What an atom says. -/
def condition (d : Dialect) : Atom → Condition
  | .never => .never
  | .isNull c => .isNull (.column c)
  | .isNotNull c => .isNotNull (.column c)
  | .compare c op _ => .compare (.column c) op .slot
  | .oneOf c vs => .oneOf (.column c) (List.replicate vs.length .slot)
  | .like c _ => .like (.column c) .slot
  | .json c t => t.condition d c
  | .anyJson c ts => .anyOf (ts.map (JsonTest.condition d c))

/-- An atom that never holds stands by itself. -/
theorem stands_never : Stands d (fragment d .never) .never := by
  have hreads : Reads d (Fragment.chars d (fragment d .never))
      [.word "1", .sign "=", .word "0"] := by
    cases d <;> exact ⟨[.word "1", .sign "="], .word ['0'], [.word "0"], rfl, rfl, rfl⟩
  refine Stands.intro hreads (Parses.intro (Grammar.brackets_tokens (by simp)) rfl ?_)
  simp [Undivided, Item.isWord]

/-- A column and how it is tested. -/
theorem stands_tested (c : ColumnRef) {f : Fragment} {ts : List Token} {items : List Item}
    {x : Char} {xs : List Char} {t : Condition} (hf : Fragment.chars d f = x :: xs)
    (hx : Grammar.isBreak x = true) (hr : Reads d (Fragment.chars d f) ts) (hb : Brackets ts items)
    (hc : Grammar.factor (c.items ++ items) = some t) (hu : Undivided items) :
    Stands d (c.fragment ++ f) t := by
  have hreads : Reads d (Fragment.chars d (c.fragment ++ f)) (c.tokens ++ ts) := by
    rw [hf] at hr
    simpa [hf] using c.reads.append hx hr
  refine Stands.intro hreads (Parses.intro (c.brackets.append hb) hc ?_)
  intro i hi
  obtain hi | hi := List.mem_append.mp hi
  · exact ⟨c.not_word "AND" i hi, c.not_word "OR" i hi⟩
  · exact hu i hi

/-- A test for NULL stands by itself. -/
theorem stands_isNull (c : ColumnRef) : Stands d (fragment d (.isNull c)) (.isNull (.column c)) := by
  have hreads : Reads d (Fragment.chars d [.word " IS NULL"]) [.word "IS", .word "NULL"] := by
    cases d <;> exact ⟨[.word "IS"], .word "NULL".toList, [.word "NULL"], rfl, rfl, rfl⟩
  exact stands_tested c rfl rfl hreads (Grammar.brackets_tokens (by simp))
    (Grammar.factor_isNull c.items c.not_test c.term_items) (by simp [Undivided, Item.isWord])

/-- A test for something else than NULL stands by itself. -/
theorem stands_isNotNull (c : ColumnRef) :
    Stands d (fragment d (.isNotNull c)) (.isNotNull (.column c)) := by
  have hreads : Reads d (Fragment.chars d [.word " IS NOT NULL"])
      [.word "IS", .word "NOT", .word "NULL"] := by
    cases d <;>
      exact ⟨[.word "IS", .word "NOT"], .word "NULL".toList, [.word "NULL"], rfl, rfl, rfl⟩
  exact stands_tested c rfl rfl hreads (Grammar.brackets_tokens (by simp))
    (Grammar.factor_isNotNull c.items c.not_test c.term_items) (by simp [Undivided, Item.isWord])

/-- A comparison stands by itself. -/
theorem stands_compare (c : ColumnRef) (op : Comparison) (v : Value) :
    Stands d (fragment d (.compare c op v)) (.compare (.column c) op .slot) := by
  have hreads : Closes d (Fragment.chars d [.word " ", .word op.sign, .word " ", .slot v])
      [.sign op.sign, .slot] := by
    cases d <;> cases op <;> rfl
  have hsign : Grammar.comparison? op.sign = some op := by cases op <;> rfl
  exact stands_tested c rfl rfl hreads.reads (Grammar.brackets_tokens (by simp))
    (Grammar.factor_compare c.items c.not_test c.term_items hsign rfl)
    (by simp [Undivided, Item.isWord])

/-- A match with a pattern stands by itself. -/
theorem stands_like (c : ColumnRef) (p : Value) :
    Stands d (fragment d (.like c p)) (.like (.column c) .slot) := by
  have hreads : Closes d (Fragment.chars d [.word " LIKE ", .slot p]) [.word "LIKE", .slot] := by
    cases d <;> rfl
  exact stands_tested c rfl rfl hreads.reads (Grammar.brackets_tokens (by simp))
    (Grammar.factor_like c.items c.not_test c.term_items rfl) (by simp [Undivided, Item.isWord])

/-- A test for one of some values stands by itself, if there are any. -/
theorem stands_oneOf (c : ColumnRef) {vs : List Value} (hvs : vs ≠ []) :
    Stands d (fragment d (.oneOf c vs))
      (.oneOf (.column c) (List.replicate vs.length .slot)) := by
  have hpre : Closes d " IN (".toList [.word "IN", .mark '('] := by cases d <;> rfl
  have hpost : Closes d ")".toList [.mark ')'] := by cases d <;> rfl
  have hreads := Grammar.reads_slots_then hpre hpost hvs Grammar.reads_nil
  have hn : vs.length ≠ 0 := by simpa using hvs
  have hbrackets := (Grammar.brackets_slots vs.length).call "IN"
  rw [Grammar.arguments_slots _ hn] at hbrackets
  refine stands_tested c rfl rfl hreads (by simpa using hbrackets)
    (Grammar.factor_oneOf c.items c.not_test c.term_items _ _) (by simp [Undivided, Item.isWord])

/-- A JSON test stands by itself. -/
theorem stands_json (c : ColumnRef) {t : JsonTest} (ht : t.IsProper) :
    Stands d (t.fragment d c.fragment) (t.condition d c) :=
  Stands.intro (t.reads c ht) (t.parses c ht)

/-- Alternatives stand by themselves, if there are any. -/
theorem stands_anyJson (c : ColumnRef) {ts : List JsonTest} (hne : ts ≠ [])
    (ht : ∀ t ∈ ts, t.IsProper) :
    Stands d (fragment d (.anyJson c ts)) (.anyOf (ts.map (JsonTest.condition d c))) :=
  (Grammar.says_any (JsonTest.fragment d c.fragment) (JsonTest.condition d c) ts hne
    fun t h => stands_json c (ht t h)).parenthesized

/-- Every atom stands for what it says. -/
theorem stands (a : Atom) (ha : a.IsProper) : Stands d (a.fragment d) (a.condition d) := by
  cases a with
  | never => exact stands_never
  | isNull c => exact stands_isNull c
  | isNotNull c => exact stands_isNotNull c
  | compare c op v => exact stands_compare c op v
  | oneOf c vs => exact stands_oneOf c ha
  | like c p => exact stands_like c p
  | json c t => exact stands_json c ha
  | anyJson c ts => exact stands_anyJson c ha.1 ha.2

end Atom

/-! ## Filters -/

/-- The tree of a condition with groups: all of the main part, and one of the groups as a whole. A
side without entries is left out. -/
def Grammar.Condition.ofSides (main : List Condition) (groups : List (List Condition)) :
    Option Condition :=
  match main, groups with
  | [], [] => none
  | main, [] => some (.allOf main)
  | [], groups => some (.anyOf (groups.map .allOf))
  | main, groups => some (.all [.allOf main, .anyOf (groups.map .allOf)])

namespace Filter

/-- Whether all atoms have the values they need and no group is empty. -/
structure IsProper (f : Filter) : Prop where
  main : ∀ a ∈ f.main, a.IsProper
  groups : ∀ g ∈ f.groups, g ≠ [] ∧ ∀ a ∈ g, a.IsProper

/-- What a filter says. -/
def condition (d : Dialect) (f : Filter) : Option Condition :=
  Condition.ofSides (f.main.map (Atom.condition d)) (f.groups.map (List.map (Atom.condition d)))

/-- A conjunction says that all its atoms hold, if there are any. -/
theorem says_conjunction {atoms : List Atom} (hne : atoms ≠ []) (h : ∀ a ∈ atoms, a.IsProper) :
    Says d (conjunction d atoms) (.allOf (atoms.map (Atom.condition d))) :=
  Grammar.says_all (Atom.fragment d) (Atom.condition d) atoms hne fun a ha => a.stands (h a ha)

/-- A disjunction says that some of its groups holds, if there are any. -/
theorem says_disjunction {groups : List (List Atom)} (hne : groups ≠ [])
    (h : ∀ g ∈ groups, g ≠ [] ∧ ∀ a ∈ g, a.IsProper) :
    Says d (disjunction d groups)
      (.anyOf ((groups.map (List.map (Atom.condition d))).map .allOf)) := by
  have hjoined := Grammar.says_any (fun g => Fragment.parenthesized (conjunction d g))
    (fun g => Condition.allOf (g.map (Atom.condition d))) groups hne
    fun g hg => (says_conjunction (h g hg).1 (h g hg).2).parenthesized
  rw [disjunction, List.map_map]
  exact hjoined

/-- The main part and the groups, each in parentheses. -/
theorem says_both {f g : Fragment} {b c : Condition} (hf : Says d f b) (hg : Says d g c) :
    Says d (f.parenthesized ++ .word " AND " :: g.parenthesized) (.all [b, c]) := by
  have hjoined := Grammar.says_all (d := d) Prod.fst Prod.snd
    [(f.parenthesized, b), (g.parenthesized, c)] (by simp)
    (by simpa using ⟨hf.parenthesized, hg.parenthesized⟩)
  exact hjoined

/-- The text of a filter is read back as what the filter says. -/
theorem read_sql {f : Filter} (hf : f.IsProper) :
    Grammar.read d (Fragment.sql d (f.fragment d)) = some (f.condition d) := by
  obtain ⟨main, groups⟩ := f
  cases groups with
  | nil =>
    cases main with
    | nil => exact Grammar.read_nil
    | cons a main => exact (says_conjunction (by simp) hf.main).read
  | cons g groups =>
    have hgroups := says_disjunction (d := d) (by simp) hf.groups
    cases main with
    | nil => exact hgroups.read
    | cons a main => exact (says_both (says_conjunction (by simp) hf.main) hgroups).read

/-- The text is empty when the filter says nothing, and only then. -/
theorem sql_eq_empty_iff {f : Filter} (hf : f.IsProper) :
    Fragment.sql d (f.fragment d) = "" ↔ f.condition d = none := by
  constructor
  · intro hsql
    have hread := read_sql (d := d) hf
    have hempty : Grammar.read d "" = some none := Grammar.read_nil
    rw [hsql, hempty] at hread
    exact (Option.some.inj hread).symm
  · intro h
    obtain ⟨main, groups⟩ := f
    cases main <;> cases groups <;> first | rfl | simp [condition, Condition.ofSides] at h

end Filter

end Quarry.Sql
