import Quarry.Proofs.Repository.Selected
import Quarry.Proofs.Sql.ConditionTree
import Quarry.Proofs.Sql.Mentioned

/-!
# What the parts of a SELECT refer to

Every part of a SELECT is made from keys. For each part there is the list of columns that its text
refers to, and each of these is the column of a key, qualified with the table at hand unless the key
brings a table of its own (`ColumnRef.under`). Joins are the exception: their keys are never
qualified, so that a key without a table stays without one. `Select.refersTo_of_build` puts the
parts together.
-/

set_option autoImplicit false

namespace Quarry

open Sql (Aggregate Atom ColumnRef Dialect Filter Fragment Join JsonTest Piece Relation Statement)
open Sql.Grammar (Breaks Closes Entry Reads Refers Token)

variable {d : Dialect}

namespace Sql

/-! ## Conditions -/

/-- All columns of an atom are the same one. -/
def Atom.IsAbout (c : ColumnRef) (a : Atom) : Prop := ∀ x ∈ a.columns, x = c

/-- An atom with one column is about it. -/
theorem Atom.isAbout_single {a : Atom} {c : ColumnRef} (h : a.columns = [c]) : a.IsAbout c := by
  intro x hx
  rw [h] at hx
  exact List.mem_singleton.mp hx

/-- Alternatives are about their column, however many they are. -/
theorem Atom.isAbout_anyJson (c : ColumnRef) (ts : List JsonTest) : (Atom.anyJson c ts).IsAbout c := by
  intro x hx
  obtain ⟨_, -, rfl⟩ := List.mem_map.mp hx
  rfl

/-- An atom that has values where it needs them is about a column, unless no row satisfies it. -/
theorem Atom.columns_ne_nil {a : Atom} (ha : a.IsProper) (hne : a ≠ .never) : a.columns ≠ [] := by
  cases a with
  | never => exact absurd rfl hne
  | anyJson c ts => simpa [columns] using ha.1
  | _ => exact List.cons_ne_nil _ _

/-- An atom that is read back is proper. -/
theorem Agrees.isProper {a : Atom} {x : Option Grammar.Condition} (h : Agrees d (some a) x) : a.IsProper := by
  cases h with
  | some hmeans => exact hmeans.proper

section Conditions

variable {utc : Bool} {c : ColumnRef} {a : Atom} {owner : Value}

/-- What is said of an atom holds of a given one. -/
theorem Atom.isAbout_some (h : a.IsAbout c) : ∀ b ∈ some a, b.IsAbout c := by
  rintro b hb
  obtain rfl := Option.some.inj hb
  exact h

/-- The atom for one of some items is about its column. -/
theorem isAbout_oneOfAtom {vs : List Value} (h : oneOfAtom utc c vs = .ok a) : a.IsAbout c := by
  obtain ⟨params, -, rfl⟩ := functor_map_eq_ok.mp h
  split_ifs
  · exact nofun
  · exact Atom.isAbout_single rfl

/-- Whether there are one or several tests, the atom is about their column. -/
theorem isAbout_ofTests (c : ColumnRef) (ts : List JsonTest) : (Atom.ofTests c ts).IsAbout c := by
  match ts with
  | [] => exact nofun
  | [t] => exact Atom.isAbout_single rfl
  | t :: u :: rest => exact Atom.isAbout_anyJson c (t :: u :: rest)

/-- The atom of a JSON test is about its column. -/
theorem isAbout_inJsonAtom {operand : Value} (h : inJsonAtom d utc c operand = .ok a) : a.IsAbout c := by
  rw [inJsonAtom_elements] at h
  generalize (sequence? operand).getD [operand] = vs at h
  by_cases harrays : vs ≠ [] ∧ ∀ v ∈ vs, (sequence? v).isSome
  · rw [inJsonAtom_arrays harrays] at h
    obtain ⟨ts, -, rfl⟩ := map_eq_ok.mp h
    exact isAbout_ofTests c ts
  · rw [inJsonAtom_mixed harrays] at h
    split_ifs at h
    · obtain rfl := Except.ok.inj h
      exact nofun
    · obtain ⟨params, -, rfl⟩ := map_eq_ok.mp h
      exact Atom.isAbout_single rfl

/-- The atom for a pattern is about its column. -/
theorem isAbout_likeAtom {operand pattern : Value} {x : Option Atom}
    (h : likeAtom c operand pattern = .ok x) : ∀ a ∈ x, a.IsAbout c := by
  unfold likeAtom at h
  split_ifs at h
  · obtain rfl := pure_eq_ok.mp h
    exact nofun
  · cases operand with
    | record fields =>
      obtain ⟨ts, -, hts⟩ := bind_eq_ok.mp h
      obtain rfl := pure_eq_ok.mp hts
      split_ifs
      · exact nofun
      · exact Atom.isAbout_some (Atom.isAbout_anyJson c ts)
    | _ =>
      obtain ⟨text, -, htext⟩ := bind_eq_ok.mp h
      obtain rfl := pure_eq_ok.mp htext
      exact Atom.isAbout_some (Atom.isAbout_single rfl)

/-- The atom for a missing operand is about its column. -/
theorem isAbout_nullAtom (op : Operator) : ∀ a ∈ nullAtom c op, a.IsAbout c := by
  match op with
  | .compare .equal => exact Atom.isAbout_some (Atom.isAbout_single rfl)
  | .compare .notEqual => exact Atom.isAbout_some (Atom.isAbout_single rfl)
  | .compare .different => exact Atom.isAbout_some (Atom.isAbout_single rfl)
  | .compare .greater => exact nofun
  | .compare .less => exact nofun
  | .compare .greaterOrEqual => exact nofun
  | .compare .lessOrEqual => exact nofun
  | .like => exact nofun
  | .oneOf => exact nofun
  | .inJson => exact nofun

/-- The atom of an operator is about its column. -/
theorem isAbout_operatorAtom {operator : Value} {fields : Record} {x : Option Atom}
    (h : operatorAtom d utc c operator fields = .ok x) : ∀ a ∈ x, a.IsAbout c := by
  obtain ⟨op, -, hrest⟩ := bind_eq_ok.mp h
  cases hoperand : Record.getD "value" fields with
  | unset =>
    obtain rfl : none = x := by simpa [hoperand] using hrest
    exact nofun
  | null =>
    obtain rfl : nullAtom c op = x := by simpa [hoperand] using hrest
    exact isAbout_nullAtom op
  | _ =>
    rw [hoperand] at hrest
    cases op with
    | like => exact isAbout_likeAtom hrest
    | compare comparison =>
      obtain ⟨v, -, hv⟩ := bind_eq_ok.mp hrest
      obtain rfl := pure_eq_ok.mp hv
      exact Atom.isAbout_some (Atom.isAbout_single rfl)
    | oneOf =>
      obtain ⟨atom, hatom, hx⟩ := bind_eq_ok.mp hrest
      obtain rfl := pure_eq_ok.mp hx
      exact Atom.isAbout_some (isAbout_oneOfAtom hatom)
    | inJson =>
      obtain ⟨atom, hatom, hx⟩ := bind_eq_ok.mp hrest
      obtain rfl := pure_eq_ok.mp hx
      exact Atom.isAbout_some (isAbout_inJsonAtom hatom)

/-- An entry of a condition is about the column of its key. -/
theorem isAbout_entryAtom {key : String} {value : Value} {x : Option Atom}
    (h : entryAtom d owner utc key value = .ok x) :
    ∀ a ∈ x, a.IsAbout ((ColumnRef.ofKey key).under owner) := by
  unfold entryAtom at h
  by_cases hunset : value.isUnset = true
  · obtain rfl : none = x := by simpa [hunset] using h
    exact nofun
  · rw [if_neg hunset] at h
    obtain ⟨c, hcolumn, hrest⟩ := bind_eq_ok.mp h
    obtain rfl := ColumnRef.eq_under hcolumn
    cases value with
    | unset => exact absurd rfl hunset
    | null =>
      obtain rfl := pure_eq_ok.mp hrest
      exact Atom.isAbout_some (Atom.isAbout_single rfl)
    | list vs =>
      obtain ⟨atom, hatom, hx⟩ := bind_eq_ok.mp hrest
      obtain rfl := pure_eq_ok.mp hx
      exact Atom.isAbout_some (isAbout_oneOfAtom hatom)
    | tuple vs =>
      obtain ⟨atom, hatom, hx⟩ := bind_eq_ok.mp hrest
      obtain rfl := pure_eq_ok.mp hx
      exact Atom.isAbout_some (isAbout_oneOfAtom hatom)
    | record fields =>
      cases hoperator : Record.get? "operator" fields with
      | some operator => exact isAbout_operatorAtom (by simpa [hoperator] using hrest)
      | none =>
        obtain ⟨v, -, rfl⟩ : ∃ v, Value.parameter utc (.record fields) = .ok v ∧
            some (Atom.compare ((ColumnRef.ofKey key).under owner) .equal v) = x := by
          simpa [hoperator] using hrest
        exact Atom.isAbout_some (Atom.isAbout_single rfl)
    | _ =>
      obtain ⟨v, -, hv⟩ := bind_eq_ok.mp hrest
      obtain rfl := pure_eq_ok.mp hv
      exact Atom.isAbout_some (Atom.isAbout_single rfl)

/-- The keys of a condition. -/
def keysOf : Value → List String
  | .record fields => Record.names fields
  | _ => []

/-- The atoms of a condition are about the columns of its keys. -/
theorem isAbout_entryAtoms {fields : Record} {atoms : List Atom}
    (h : entryAtoms d owner utc fields = .ok atoms) :
    ∀ a ∈ atoms, ∃ key ∈ Record.names fields, a.IsAbout ((ColumnRef.ofKey key).under owner) := by
  induction fields generalizing atoms with
  | nil =>
    obtain rfl := Except.ok.inj h
    exact nofun
  | cons field rest ih =>
    obtain ⟨key, value⟩ := field
    obtain ⟨x, hx, hrest⟩ := bind_eq_ok.mp h
    have habout := isAbout_entryAtom hx
    have hwider {later : List Atom} (hlater : entryAtoms d owner utc rest = .ok later) :
        ∀ a ∈ later, ∃ k ∈ Record.names ((key, value) :: rest),
          a.IsAbout ((ColumnRef.ofKey k).under owner) := by
      intro a ha
      obtain ⟨k, hk, hkey⟩ := ih hlater a ha
      exact ⟨k, List.mem_cons_of_mem key hk, hkey⟩
    cases x with
    | none => exact hwider hrest
    | some a =>
      obtain ⟨later, hlater, rfl⟩ := functor_map_eq_ok.mp hrest
      exact List.forall_mem_cons.mpr ⟨⟨key, List.mem_cons_self, habout a rfl⟩, hwider hlater⟩

/-- The atoms of all groups are about the columns of their keys. -/
theorem isAbout_compileGroups {groups : List Value} {compiled : List (List Atom)}
    (h : Filter.compileGroups d owner utc groups = .ok compiled) :
    ∀ g ∈ compiled, ∀ a ∈ g, ∃ key ∈ groups.flatMap keysOf,
      a.IsAbout ((ColumnRef.ofKey key).under owner) := by
  induction groups generalizing compiled with
  | nil =>
    obtain rfl := Except.ok.inj h
    exact nofun
  | cons group rest ih =>
    obtain ⟨fields, hfields, hgroup⟩ := bind_eq_ok.mp h
    obtain rfl := eq_record_of_groupOf hfields
    obtain ⟨atoms, hatoms, hrest⟩ := bind_eq_ok.mp hgroup
    obtain ⟨others, hothers, rfl⟩ := functor_map_eq_ok.mp hrest
    have hown : ∀ a ∈ atoms, ∃ key ∈ (Value.record fields :: rest).flatMap keysOf,
        a.IsAbout ((ColumnRef.ofKey key).under owner) := by
      intro a ha
      obtain ⟨key, hkey, habout⟩ := isAbout_entryAtoms hatoms a ha
      exact ⟨key, List.mem_flatMap.mpr ⟨_, List.mem_cons_self, hkey⟩, habout⟩
    have hlater : ∀ g ∈ others, ∀ a ∈ g, ∃ key ∈ (Value.record fields :: rest).flatMap keysOf,
        a.IsAbout ((ColumnRef.ofKey key).under owner) := by
      intro g hg a ha
      obtain ⟨key, hkey, habout⟩ := ih hothers g hg a ha
      exact ⟨key, List.mem_append_right _ hkey, habout⟩
    split_ifs
    · exact hlater
    · exact List.forall_mem_cons.mpr ⟨hown, hlater⟩

/-- A compiled condition is about the columns of the keys in the condition and in its groups. -/
theorem columns_of_compile {query : Value} {groups : List Value} {f : Filter}
    (h : Filter.compile d owner utc query groups = .ok f) :
    ∀ x ∈ f.columns, ∃ key ∈ (query :: groups).flatMap keysOf, x = (ColumnRef.ofKey key).under owner := by
  obtain ⟨fields, hfields, hquery⟩ := bind_eq_ok.mp h
  obtain ⟨main, hmain, hrest⟩ := bind_eq_ok.mp hquery
  obtain ⟨compiled, hgroups, rfl⟩ := functor_map_eq_ok.mp hrest
  intro x hx
  obtain hx | hx := List.mem_append.mp hx
  · obtain ⟨a, ha, hmem⟩ := List.mem_flatMap.mp hx
    obtain ⟨key, hkey, habout⟩ := isAbout_entryAtoms hmain a ha
    have hnames : Record.names fields ⊆ keysOf query := by
      unfold Filter.conditionOf at hfields
      split_ifs at hfields
      · cases query <;> simp_all [misfit, keysOf]
      · obtain rfl := Except.ok.inj hfields
        exact List.nil_subset _
    exact ⟨key, List.mem_append_left _ (hnames hkey), habout x hmem⟩
  · obtain ⟨g, hg, hmem⟩ := List.mem_flatMap.mp hx
    obtain ⟨a, ha, hmem⟩ := List.mem_flatMap.mp hmem
    obtain ⟨key, hkey, habout⟩ := isAbout_compileGroups hgroups g hg a ha
    exact ⟨key, List.mem_append_right _ hkey, habout x hmem⟩

end Conditions

/-! ## Keys -/

namespace ColumnRef

/-- A column of a key is that of a text, under the owner. -/
theorem of_ofValue {owner key : Value} {c : ColumnRef} (h : ofValue owner key = .ok c) :
    ∃ s, key = .text s ∧ c = (ofKey s).under owner := by
  cases key with
  | text s => exact ⟨s, rfl, eq_under h⟩
  | _ => exact nomatch h

/-- Without an owner a column stays as it is. -/
@[simp] theorem under_null (c : ColumnRef) : c.under .null = c := by
  cases c <;> rfl

end ColumnRef

/-! ## Joins -/

namespace Join

/-- The columns that a join compares. -/
def columns (j : Join) : List ColumnRef := [.ofKey j.left.display, .ofKey j.right.display]

/-- A join refers to its columns. -/
theorem refers_fragment {j : Join} {f : Fragment} (h : j.fragment = .ok f) :
    Refers d f j.columns ∧ Breaks (Fragment.chars d f) := by
  obtain ⟨table, -, hfirst⟩ := bind_eq_ok.mp h
  obtain ⟨left, hleft, hsecond⟩ := bind_eq_ok.mp hfirst
  obtain ⟨right, hright, rfl⟩ := functor_map_eq_ok.mp hsecond
  obtain ⟨l, hl, rfl⟩ := ColumnRef.of_ofValue hleft
  obtain ⟨r, hr, rfl⟩ := ColumnRef.of_ofValue hright
  have hcolumns : j.columns = [.ofKey l] ++ [.ofKey r] := by
    rw [columns, hl, hr]
    rfl
  have hkind : Closes d (Fragment.chars d [.word " ", .word j.kind.label, .word " JOIN "])
      ([.word j.kind.label] ++ [.word "JOIN"]) := by
    cases j.kind <;> cases d <;> rfl
  have hon : Closes d " ON ".toList [.word "ON"] := by cases d <;> rfl
  have hequals : Closes d " = ".toList [.sign "="] := by cases d <;> rfl
  have hlabel : Grammar.isNameless [.word j.kind.label] = true := by cases j.kind <;> rfl
  have hname := Grammar.refers_announced hkind hlabel nofun rfl table
  have hlater := (Grammar.refers_column (d := d) (.ofKey r)).word_cons hequals rfl nofun
  have hboth := (Grammar.refers_column (d := d) (.ofKey l)).append hlater
    (Grammar.breaks_word (x := ' ') rfl rfl _)
  have hcondition := hboth.word_cons hon rfl nofun
  have hall := hname.append hcondition (Grammar.breaks_word (x := ' ') rfl rfl _)
  refine ⟨?_, Grammar.breaks_word (x := ' ') rfl rfl _⟩
  rw [hcolumns]
  simpa using hall

/-- All joins refer to their columns. -/
theorem refers_fragments {joins : List Join} {f : Fragment} (h : fragments joins = .ok f) :
    Refers d f (joins.flatMap columns) ∧ Breaks (Fragment.chars d f) := by
  obtain ⟨fs, hfs, rfl⟩ := functor_map_eq_ok.mp h
  have hall := mapM_eq_ok_iff.mp hfs
  clear h hfs
  induction hall with
  | nil => exact ⟨Grammar.refers_nil, .inl rfl⟩
  | cons hfirst _ ih =>
    obtain ⟨hrefers, hbreaks⟩ := refers_fragment (d := d) hfirst
    rw [List.flatten_cons, List.flatMap_cons, Grammar.chars_append]
    exact ⟨hrefers.append ih.1 ih.2, hbreaks.append ih.2⟩

end Join

/-! ## Lists of columns -/

/-- An entry of a list of columns refers to its column. -/
theorem Grammar.Entry.refers (e : Entry) : Refers d e.fragment [e.column] := by
  obtain ⟨column, _ | label⟩ := e
  · exact Grammar.refers_column column
  · have has : Closes d (Fragment.chars d [.word " AS "]) ([] ++ [.word "AS"]) := by cases d <;> rfl
    have hlabel := Grammar.refers_announced has rfl nofun rfl label
    exact (Grammar.refers_column column).append_nameless hlabel (Grammar.breaks_word (x := ' ') rfl rfl _)

/-- The columns of declared keys, or else of those chosen, where pieces of SQL are no keys. -/
theorem ownColumns_eq_of_noRaw {owner : Value} {names : List String} {chosen : List Value}
    {own : List (Option Fragment)} (hraw : ∀ c ∈ chosen, isRawValue c ≠ .ok true)
    (h : ownColumns owner (names.map .text) chosen = .ok own) :
    own = (if chosen.isEmpty then names else chosen.map Value.display).map
      fun key => some ((ColumnRef.ofKey key).under owner).fragment := by
  cases chosen with
  | nil => exact ownColumns_eq h
  | cons c chosen =>
    rw [List.isEmpty_cons, if_neg Bool.false_ne_true, List.map_map]
    apply eq_map_of_mapM_eq_ok h
    intro v hv column hcolumn
    obtain ⟨isRaw, hisRaw, hrest⟩ := bind_eq_ok.mp hcolumn
    obtain rfl : isRaw = false := Bool.eq_false_iff.mpr fun htrue => hraw v hv (htrue ▸ hisRaw)
    obtain ⟨reference, hreference, rfl⟩ : ∃ reference, ColumnRef.ofValue owner v = .ok reference ∧
        some reference.fragment = column := by simpa using hrest
    obtain ⟨s, rfl, rfl⟩ := ColumnRef.of_ofValue hreference
    rfl

/-! ## Orders and limits -/

/-- The keys of a criterion of an order, of which there is one. -/
def orderKeys : Value → List String
  | .record fields => ((Record.get? "column" fields).map Value.display).toList
  | _ => []

/-- The columns of a criterion of an order. -/
def orderColumns (owner item : Value) : List ColumnRef :=
  (orderKeys item).map fun key => (ColumnRef.ofKey key).under owner

/-- Only a record is an item of an order. -/
theorem eq_record_of_orderItem {owner item : Value} {f : Fragment} (h : orderItem owner item = .ok f) :
    ∃ fields, item = .record fields := by
  cases item with
  | record fields => exact ⟨fields, rfl⟩
  | _ => exact nomatch h

/-- An item of an order refers to its columns. -/
theorem refers_orderItem {owner item : Value} {f : Fragment} (h : orderItem owner item = .ok f) :
    Refers d f (orderColumns owner item) := by
  obtain ⟨fields, rfl⟩ := eq_record_of_orderItem h
  obtain ⟨direction, -, hcolumn⟩ := bind_eq_ok.mp h
  cases hget : Record.get? "column" fields with
  | none => simp [hget, misfit] at hcolumn
  | some key =>
    obtain ⟨reference, hreference, rfl⟩ : ∃ reference, ColumnRef.ofValue owner key = .ok reference ∧
        reference.fragment ++ [Piece.word " ", .word direction.label] = f := by
      simpa [hget] using hcolumn
    obtain ⟨s, rfl, rfl⟩ := ColumnRef.of_ofValue hreference
    have hreads : Reads d (Fragment.chars d [.word " ", .word direction.label]) [.word direction.label] := by
      cases direction <;> cases d
      all_goals exact ⟨[], .word _, _, rfl, rfl, rfl⟩
    have hword := Grammar.refers_nameless hreads (by cases direction <;> rfl) (Grammar.startsAnew_word _ [])
    have hall := (Grammar.refers_column ((ColumnRef.ofKey s).under owner)).append_nameless hword
      (Grammar.breaks_word (x := ' ') rfl rfl _)
    simpa [orderColumns, orderKeys, hget, Value.display] using hall

/-- An order refers to the columns of its items. -/
theorem refers_orderClause {owner : Value} {items : List Value} {f : Fragment}
    (h : orderClause owner items = .ok f) :
    Refers d f (items.flatMap (orderColumns owner)) ∧ Breaks (Fragment.chars d f) := by
  obtain ⟨parts, hparts, rfl⟩ := functor_map_eq_ok.mp h
  have hall : List.Forall₂ (Refers d) parts (items.map (orderColumns owner)) := by
    rw [List.forall₂_map_right_iff]
    exact (mapM_eq_ok_iff.mp hparts).flip.imp fun _ _ hitem => refers_orderItem hitem
  have hjoined := Grammar.refers_joined Grammar.separates_comma rfl nofun hall
  have hby : Closes d " ORDER BY ".toList [.word "ORDER", .word "BY"] := by cases d <;> rfl
  split_ifs with hempty
  · obtain rfl := List.isEmpty_iff.mp hempty
    cases hparts : items with
    | nil => exact ⟨Grammar.refers_nil, .inl rfl⟩
    | cons item items =>
      rw [hparts] at hall
      exact nomatch hall
  · exact ⟨hjoined.word_cons hby rfl nofun, Grammar.breaks_word (x := ' ') rfl rfl _⟩

namespace Grammar

/-- Whether a text is that of limits, or empty. -/
structure IsLimits (d : Dialect) (text : String) : Prop where
  starts : text = "" ∨ ∃ rest, text = " LIMIT " ++ rest
  unquoted : d.quote ∉ text.toList

/-- The text of a statement refers to columns. It is read as far as its limits, in which there are
no names. -/
def RefersTo (d : Dialect) (text : String) (cs : List ColumnRef) : Prop :=
  ∃ front limits, text = front ++ limits ∧ mentioned? d front = some cs ∧ IsLimits d limits

/-- A text refers to the columns to which its fragment does. -/
theorem RefersTo.of_refers {f : Fragment} {cs : List ColumnRef} (h : Refers d f cs) :
    RefersTo d (Fragment.sql d f) cs :=
  ⟨_, "", (String.append_empty).symm, h.mentioned?, ⟨.inl rfl, nofun⟩⟩

end Grammar

/-- What limits a statement is read as limits. -/
theorem isLimits_limitClause {limit offset : Value} {f : Fragment} (h : limitClause d limit offset = .ok f) :
    Grammar.IsLimits d (Fragment.sql d f) := by
  have hnumber (n : Nat) : d.quote ∉ (toString n).toList := by
    intro hmem
    have hdigit := Grammar.digits_toString n _ hmem
    cases d <;> exact absurd hdigit (by decide)
  have hwords : d.quote ∉ " LIMIT ".toList ∧ d.quote ∉ " OFFSET ".toList ∧
      d.quote ∉ d.unboundedLimit.toList := by
    cases d <;> decide
  obtain ⟨part, hpart, hoffset⟩ := bind_eq_ok.mp h
  obtain ⟨skipped, hskipped, rfl⟩ := functor_map_eq_ok.mp hoffset
  have hbehind : d.quote ∉ Fragment.chars d skipped := by
    unfold offsetPart at hskipped
    split_ifs at hskipped
    · obtain rfl := Except.ok.inj hskipped
      exact List.not_mem_nil
    · obtain ⟨n, -, rfl⟩ := map_eq_ok.mp hskipped
      simpa only [Grammar.chars_cons, Grammar.chars_nil, Piece.chars, List.append_nil, List.mem_append,
        not_or] using ⟨hwords.2.1, hnumber n⟩
  have hlimit (count : String) (hcount : d.quote ∉ count.toList) :
      Grammar.IsLimits d (Fragment.sql d ([.word " LIMIT ", .word count] ++ skipped)) := by
    refine ⟨.inr ⟨String.ofList (count.toList ++ Fragment.chars d skipped), ?_⟩, ?_⟩
    · rw [← String.toList_inj]
      simp [Fragment.sql, Piece.chars]
    · rw [Fragment.sql, String.toList_ofList]
      simpa only [Grammar.chars_append, Grammar.chars_cons, Grammar.chars_nil, Piece.chars,
        List.append_nil, List.mem_append, not_or] using ⟨⟨hwords.1, hcount⟩, hbehind⟩
  unfold limitPart at hpart
  split_ifs at hpart with hnone hnull
  · obtain rfl := Except.ok.inj hpart
    rw [offsetPart, if_pos hnull] at hskipped
    obtain rfl := Except.ok.inj hskipped
    exact ⟨.inl rfl, List.not_mem_nil⟩
  · obtain rfl := Except.ok.inj hpart
    exact hlimit _ hwords.2.2
  · obtain ⟨n, -, rfl⟩ := map_eq_ok.mp hpart
    exact hlimit _ (hnumber n)

/-! ## Aggregates -/

namespace Aggregate

variable {a : Aggregate} {owner : Value} {utc : Bool} {f : Fragment}

/-- The columns of an aggregate without a case. -/
def plainColumns (owner : Value) (a : Aggregate) : List ColumnRef :=
  if a.function = .count && Value.same a.columnKey (.text "*") then []
  else [(ColumnRef.ofKey a.columnKey.display).under owner]

/-- The columns of an aggregate, of which the case that is active is given. -/
def columns (owner : Value) (a : Aggregate) : Option (Record × Filter) → List ColumnRef
  | none => a.plainColumns owner
  | some (_, filter) => filter.columns

/-- An expression without a case refers to its columns. -/
theorem refers_plainExpression (h : a.plainExpression owner = .ok f) : Refers d f (a.plainColumns owner) := by
  have hstar : Closes d (Fragment.chars d [.word "*"]) [.mark '*'] := by cases d <;> rfl
  have hopen : Closes d "COALESCE(".toList [.word "COALESCE", .mark '('] := by cases d <;> rfl
  have hclose : Closes d (Fragment.chars d [.word ", 0)"]) [.mark ',', .word "0", .mark ')'] := by
    cases d <;> rfl
  unfold plainExpression at h
  unfold plainColumns
  split_ifs at h ⊢
  · obtain rfl := pure_eq_ok.mp h
    exact Grammar.refers_nameless hstar.reads rfl nofun
  · obtain ⟨reference, hreference, hf⟩ := bind_eq_ok.mp h
    obtain rfl := pure_eq_ok.mp hf
    obtain ⟨s, hs, rfl⟩ := ColumnRef.of_ofValue hreference
    rw [hs]
    have hend := Grammar.refers_nameless hclose.reads rfl nofun
    have hall := (Grammar.refers_column ((ColumnRef.ofKey s).under owner)).append_nameless hend
      (Grammar.breaks_word (x := ',') rfl rfl _)
    exact hall.word_cons hopen rfl nofun
  · obtain ⟨reference, hreference, hf⟩ := bind_eq_ok.mp h
    obtain rfl := pure_eq_ok.mp hf
    obtain ⟨s, hs, rfl⟩ := ColumnRef.of_ofValue hreference
    rw [hs]
    exact Grammar.refers_column _

/-- An expression with a case refers to the columns of its filter. -/
theorem refers_caseExpression (a : Aggregate) (case : Record) {filter : Filter} (hfilter : filter.IsProper) :
    Refers d (a.caseExpression d case filter) filter.columns := by
  have hopen : Closes d "CASE WHEN ".toList [.word "CASE", .word "WHEN"] := by cases d <;> rfl
  have hone : Reads d (Fragment.chars d [.word " THEN 1 END"]) [.word "THEN", .word "1", .word "END"] := by
    cases d <;> exact ⟨[.word "THEN", .word "1"], .word "END".toList, [.word "END"], rfl, rfl, rfl⟩
  have htwo (v w : Value) :
      Reads d (Fragment.chars d [.word " THEN ", .slot v, .word " ELSE ", .slot w, .word " END"])
        [.word "THEN", .slot, .word "ELSE", .slot, .word "END"] := by
    cases d <;> exact ⟨[.word "THEN", .slot, .word "ELSE", .slot], .word "END".toList, [.word "END"],
      rfl, rfl, rfl⟩
  have hcase {g : Fragment} (hend : Refers d g []) (hbreaks : Breaks (Fragment.chars d g)) :
      Refers d (.word "CASE WHEN " :: (filter.fragment d ++ g)) filter.columns :=
    ((Filter.refers hfilter).append_nameless hend hbreaks).word_cons hopen rfl nofun
  unfold caseExpression
  split_ifs
  · exact hcase (Grammar.refers_nameless hone rfl nofun) (Grammar.breaks_word (x := ' ') rfl rfl _)
  · exact hcase (Grammar.refers_nameless (htwo _ _) rfl nofun) (Grammar.breaks_word (x := ' ') rfl rfl _)

/-- A call refers to the columns of what it is about. -/
theorem refers_call (a : Aggregate) (label : String) {cs : List ColumnRef} (h : Refers d f cs) :
    Refers d (a.call label f) cs := by
  have hopen : Closes d (Fragment.chars d [.word a.function.label, .word "("])
      [.word a.function.label, .mark '('] := by
    cases a.function <;> cases d <;> rfl
  have hfunction : Grammar.isNameless [.word a.function.label, .mark '('] = true := by
    cases a.function <;> rfl
  have has : Closes d (Fragment.chars d [.word ") AS "]) ([.mark ')'] ++ [.word "AS"]) := by cases d <;> rfl
  have hclosed : Grammar.StartsAnew [.mark ')'] := by simp [Grammar.StartsAnew]
  have hcalled : Grammar.StartsAnew [.word a.function.label, .mark '('] := by
    simp [Grammar.StartsAnew]
  have hlabel := Grammar.refers_announced has rfl hclosed rfl label
  have hall := h.append_nameless hlabel (Grammar.breaks_word (x := ')') rfl rfl _)
  rw [call, List.append_assoc]
  exact hall.words_append hopen hfunction hcalled

/-- The case of an aggregate is active with the filter of its condition. -/
theorem of_activeCase {case : Record} {filter : Filter}
    (h : a.activeCase d owner utc = .ok (some (case, filter))) :
    a.case.asOptionalFields = .ok case ∧
      Filter.compile d owner utc (case.valueOr "when" .null) [] = .ok filter := by
  obtain ⟨fields, hfields, hrest⟩ := bind_eq_ok.mp h
  dsimp only at hrest
  split_ifs at hrest
  · obtain ⟨compiled, hcompiled, hsome⟩ := bind_eq_ok.mp hrest
    have hpair := pure_eq_ok.mp hsome
    split_ifs at hpair
    obtain ⟨rfl, rfl⟩ := Prod.mk.inj (Option.some.inj hpair)
    exact ⟨hfields, hcompiled⟩
  · exact nomatch pure_eq_ok.mp hrest

/-- An aggregate refers to its column, or to those of its case. -/
theorem refers (h : a.fragment d owner utc = .ok f) :
    ∃ active, a.activeCase d owner utc = .ok active ∧ Refers d f (a.columns owner active) := by
  obtain ⟨label, active, -, hactive, hf⟩ := of_fragment h
  refine ⟨active, hactive, ?_⟩
  match active with
  | none =>
    obtain ⟨expression, hexpression, rfl⟩ := hf
    exact refers_call a label (refers_plainExpression hexpression)
  | some (case, filter) =>
    obtain rfl : f = a.call label (a.caseExpression d case filter) := hf
    have hproper := (compile_means (of_activeCase hactive).2).1
    exact refers_call a label (refers_caseExpression a case hproper)

end Aggregate

end Sql

/-! ## Selects -/

namespace Select

variable {r : Repository} {s : Select} {st : Statement}

/-- The columns of the list of a select: those of the keys that are declared, or else chosen, and
those that its relations bring. -/
def listed (r : Repository) (s : Select) : List ColumnRef :=
  (if s.columns.isEmpty then r.codec.columnNames else s.columns.map Value.display).map
    (fun key => (ColumnRef.ofKey key).under (s.owner r)) ++
    (s.relations r).flatMap fun e => e.2.entries.map Entry.column

/-- The columns that the joins of a select compare. -/
def compared (r : Repository) (s : Select) : List ColumnRef :=
  (s.relations r).flatMap (fun e => (e.2.join r.table).columns) ++ s.joins.flatMap Join.columns

/-- The columns by which a select is ordered. -/
def ordered (r : Repository) (s : Select) : List ColumnRef :=
  s.order.flatMap (Sql.orderColumns (s.owner r))

/-- The list of columns of a select refers to those that are listed. -/
theorem refers_columnList {f : Fragment} (hraw : ∀ c ∈ s.columns, Sql.isRawValue c ≠ .ok true)
    (h : Sql.columnList (s.owner r) (r.codec.columnNames.map .text) s.columns ((s.relations r).map (·.2)) =
      .ok f) : Refers d f (s.listed r) := by
  obtain ⟨own, hown, hothers⟩ := bind_eq_ok.mp h
  obtain ⟨others, hothers, hf⟩ := bind_eq_ok.mp hothers
  have hrelated : others = (s.relations r).map fun e => e.2.entries.map Entry.fragment := by
    have heq := eq_map_of_mapM_eq_ok hothers fun relation _ fs hfs => Relation.columns_eq hfs
    rw [heq, List.map_map]
    rfl
  have hall : own.all Option.isSome = true := by
    rw [Sql.ownColumns_eq_of_noRaw hraw hown]
    simp
  rw [if_pos hall] at hf
  obtain rfl := pure_eq_ok.mp hf
  rw [Sql.ownColumns_eq_of_noRaw hraw hown, hrelated]
  unfold listed
  generalize (if s.columns.isEmpty then r.codec.columnNames else s.columns.map Value.display) = keys
  have hentries := Sql.Grammar.refers_list (d := d) Entry.fragment (fun e => [e.column])
    ((keys.map fun key => ⟨(ColumnRef.ofKey key).under (s.owner r), none⟩) ++
      (s.relations r).flatMap fun e => e.2.entries) fun e _ => e.refers
  rw [← List.map_eq_flatMap] at hentries
  simpa [List.flatMap_def, Function.comp_def, Entry.fragment] using hentries

/-- The tables of a select refer to the columns that are compared. -/
theorem refers_fromClause {f : Fragment} (h : s.fromClause r = .ok f) :
    Refers d f (s.compared r) ∧ Breaks (Fragment.chars d f) := by
  obtain ⟨table, -, hrelations⟩ := bind_eq_ok.mp h
  obtain ⟨related, hrelated, hfetch⟩ := bind_eq_ok.mp hrelations
  obtain ⟨fetched, hfetched, hjoin⟩ := bind_eq_ok.mp hfetch
  obtain ⟨joined, hjoined, rfl⟩ := functor_map_eq_ok.mp hjoin
  have hfrom : Closes d (Fragment.chars d [.word " FROM "]) ([] ++ [.word "FROM"]) := by cases d <;> rfl
  have htable := Sql.Grammar.refers_announced hfrom rfl nofun rfl table
  obtain ⟨hfetch, hbreaks⟩ := Join.refers_fragments (d := d) hfetched
  obtain ⟨hjoin, hbreaks'⟩ := Join.refers_fragments (d := d) hjoined
  have hall := (htable.append hfetch hbreaks).append hjoin hbreaks'
  refine ⟨?_, Sql.Grammar.breaks_word (x := ' ') rfl rfl _⟩
  rw [compared]
  rw [joins_eq hrelated, List.flatMap_map] at hall
  exact hall

/-- The text of a select refers to what its parts are made from. -/
theorem refersTo_of_build (hraw : ∀ c ∈ s.columns, Sql.isRawValue c ≠ .ok true)
    (h : s.build d r = .ok st) :
    ∃ f, s.filter d r = .ok f ∧
      Sql.Grammar.RefersTo d st.sql (s.listed r ++ s.compared r ++ f.columns ++ s.ordered r) := by
  obtain ⟨columns, f, tables, order, limits, hlist, hfilter, htables, horder, hlimits, rfl⟩ := of_build h
  have hselect : Closes d "SELECT ".toList [.word "SELECT"] := by cases d <;> rfl
  have hproper := (Sql.compile_means hfilter).1
  obtain ⟨hfrom, hfromBreaks⟩ := refers_fromClause (d := d) htables
  obtain ⟨hwhere, hwhereBreaks⟩ := Filter.refers_whereFragment (d := d) hproper
  obtain ⟨hby, hbyBreaks⟩ := Sql.refers_orderClause (d := d) horder
  have hall := (((refers_columnList hraw hlist).append hfrom hfromBreaks).append hwhere
    hwhereBreaks).append hby hbyBreaks
  refine ⟨f, hfilter, Fragment.sql d (.word "SELECT " :: (columns ++ tables ++ f.whereFragment d ++ order)),
    Fragment.sql d limits, ?_, (hall.word_cons hselect rfl nofun).mentioned?,
    Sql.isLimits_limitClause hlimits⟩
  show Fragment.sql d _ = _
  rw [← String.toList_inj]
  simp [Fragment.sql]

/-- Each aggregate is compiled with its case, and refers to its columns. -/
theorem exists_actives {owner : Value} {utc : Bool} {aggregates : List Aggregate} {parts : List Fragment}
    (h : aggregates.mapM (Aggregate.fragment d owner utc) = .ok parts) :
    ∃ actives, aggregates.mapM (Aggregate.activeCase d owner utc) = .ok actives ∧
      List.Forall₂ (Refers d) parts (List.zipWith (Aggregate.columns owner) aggregates actives) := by
  have hall := mapM_eq_ok_iff.mp h
  clear h
  induction hall with
  | nil => exact ⟨[], rfl, .nil⟩
  | cons hfirst _ ih =>
    obtain ⟨active, hactive, hrefers⟩ := Aggregate.refers hfirst
    obtain ⟨actives, hactives, hrest⟩ := ih
    exact ⟨active :: actives, by simp [List.mapM_cons, hactive, hactives], .cons hrefers hrest⟩

/-- The text of a select that computes aggregates refers to what its parts are made from. -/
theorem refersTo_of_buildAggregates {aggregates : List Aggregate}
    (h : s.buildAggregates d r aggregates = .ok st) :
    ∃ f actives, s.filter d r = .ok f ∧
      aggregates.mapM (Aggregate.activeCase d (s.owner r) r.codec.utc) = .ok actives ∧
      Sql.Grammar.RefersTo d st.sql
        ((List.zipWith (Aggregate.columns (s.owner r)) aggregates actives).flatten ++ s.compared r ++
          f.columns) := by
  obtain ⟨parts, f, tables, hparts, hfilter, htables, rfl⟩ := of_buildAggregates h
  obtain ⟨actives, hactives, hcolumns⟩ := exists_actives hparts
  have hselect : Closes d "SELECT ".toList [.word "SELECT"] := by cases d <;> rfl
  have hlist := Sql.Grammar.refers_joined Sql.Grammar.separates_comma rfl nofun hcolumns
  obtain ⟨hfrom, hfromBreaks⟩ := refers_fromClause (d := d) htables
  obtain ⟨hwhere, hwhereBreaks⟩ := Filter.refers_whereFragment (d := d) (Sql.compile_means hfilter).1
  have hall := (hlist.append hfrom hfromBreaks).append hwhere hwhereBreaks
  exact ⟨f, actives, hfilter, hactives, .of_refers (hall.word_cons hselect rfl nofun)⟩

end Select

end Quarry
