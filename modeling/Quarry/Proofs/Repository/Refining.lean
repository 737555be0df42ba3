import Quarry.Proofs.Repository.Filtered
import Quarry.Proofs.Repository.Unambiguous

/-!
# What a chain of modifiers comes to

Every modifier is about one facet of a select. Order, limit, offset and columns are replaced, so
that the last word counts; joins and OR-groups add up; a relation that is there already adds
nothing. `Select.composed` says what a whole chain makes of a select without going through it step
by step, and each of its fields looks at one facet only. So modifiers of different facets may change
places (`Select.build_of_chain`): it is the order within a facet that counts.

A select of one object reads one row, whatever limit was given. Only a relation of which there may
be many per object leaves the given limit in force.
-/

set_option autoImplicit false

namespace Quarry

open Sql (Aggregate Dialect Fragment Join Piece Relation Statement)

variable {d : Dialect} {r : Repository}

/-- What a modifier is about. -/
inductive Facet where
  | order
  | limit
  | offset
  | joins
  | columns
  | relations
  | groups
  deriving DecidableEq

namespace Modifier

/-- Which part of a select a modifier sets. -/
def facet : Modifier → Facet
  | .order _ => .order
  | .limit _ => .limit
  | .offset _ => .offset
  | .join .. => .joins
  | .columns _ => .columns
  | .relation _ => .relations
  | .orGroups _ => .groups

/-- The modifiers of a chain that are about a facet, in their order. -/
def about (f : Facet) (ms : List Modifier) : List Modifier := ms.filter fun m => m.facet = f

/-- The criteria of an order. -/
def order? : Modifier → Option (List Value)
  | .order items =>
    ((items.items >>= List.mapM Value.asRecord).map fun criteria => criteria.map Value.record).toOption
  | _ => none

/-- The number of rows that a modifier asks for. -/
def limit? : Modifier → Option Value
  | .limit count => some count
  | _ => none

/-- The number of rows that a modifier skips. -/
def offset? : Modifier → Option Value
  | .offset count => some count
  | _ => none

/-- The join that a modifier adds. -/
def join? : Modifier → Option Join
  | .join table left right kind => ((joinKind kind).map (Join.mk table left right)).toOption
  | _ => none

/-- The chosen columns. -/
def columns? : Modifier → Option (List Value)
  | .columns keys => keys.items.toOption
  | _ => none

/-- The name of the relation asked for. -/
def relation? : Modifier → Option String
  | .relation (.text name) => some name
  | _ => none

/-- The OR-groups; a condition that is missing gives none. -/
def groups? : Modifier → Option (List Value)
  | .orGroups condition =>
    if condition.isNull || condition.isUnset then none else (groupsOf condition).toOption
  | _ => none

/-- What a chain says about a facet, one after the other. -/
def said {α : Type} (f : Facet) (say : Modifier → Option α) (ms : List Modifier) : List α :=
  (about f ms).filterMap say

section Said

variable {α : Type} {f : Facet} {say : Modifier → Option α} {m : Modifier}

/-- Nothing says nothing. -/
@[simp] theorem said_nil : said f say [] = [] := rfl

/-- What the first modifier says comes before what the others say. -/
theorem said_cons (ms : List Modifier) : said f say (m :: ms) = said f say [m] ++ said f say ms := by
  rw [said, said, said, ← List.filterMap_append, about, about, about, ← List.filter_append,
    List.singleton_append]

/-- What a single modifier says. -/
theorem said_singleton : said f say [m] = if m.facet = f then (say m).toList else [] := by
  rw [said, about]
  split_ifs with h
  · rw [List.filter_cons_of_pos (by simpa using h)]
    cases hm : say m <;> simp [hm]
  · rw [List.filter_cons_of_neg (by simpa using h)]
    rfl

end Said

end Modifier

/-! ## A chain as a whole -/

namespace Select

open Modifier (about said)

variable {s t : Select} {m : Modifier} {ms ms' : List Modifier}

/-- The names that are new to a list, each where it comes first. -/
def newNames (known names : List String) : List String :=
  (names.filter fun name => !known.contains name).eraseDups

/-- What a chain of modifiers makes of a select. -/
def composed (s : Select) (ms : List Modifier) : Select where
  condition := s.condition
  amount := s.amount
  order := (said .order Modifier.order? ms).getLastD s.order
  limit := (said .limit Modifier.limit? ms).getLastD s.limit
  offset := (said .offset Modifier.offset? ms).getLastD s.offset
  joins := s.joins ++ said .joins Modifier.join? ms
  columns := (said .columns Modifier.columns? ms).getLastD s.columns
  related := s.related ++ newNames s.related (said .relations Modifier.relation? ms)
  groups := s.groups ++ (said .groups Modifier.groups? ms).flatten

/-- Of no names none is new. -/
@[simp] theorem newNames_nil (known : List String) : newNames known [] = [] := rfl

/-- A known name is not new. -/
theorem newNames_of_mem {known rest : List String} {name : String} (h : name ∈ known) :
    newNames known (name :: rest) = newNames known rest := by
  simp [newNames, h]

/-- An unknown name is new, and known from then on. -/
theorem newNames_of_not_mem {known rest : List String} {name : String} (h : name ∉ known) :
    newNames known (name :: rest) = name :: newNames (known ++ [name]) rest := by
  have hrest : (rest.filter fun n => !known.contains n).filter (fun n => !n == name) =
      rest.filter fun n => !(known ++ [name]).contains n := by
    rw [List.filter_filter]
    apply List.filter_congr
    intro n _
    by_cases hn : n = name <;> simp [hn]
  rw [newNames, List.filter_cons_of_pos (by simpa using h), List.eraseDups_cons, hrest, newNames]

/-- New names are added one after the other. -/
theorem append_newNames_append (known names rest : List String) :
    known ++ newNames known (names ++ rest) =
      (known ++ newNames known names) ++ newNames (known ++ newNames known names) rest := by
  induction names generalizing known with
  | nil => simp
  | cons name names ih =>
    rw [List.cons_append]
    by_cases hname : name ∈ known
    · rw [newNames_of_mem hname, newNames_of_mem hname, ih]
    · rw [newNames_of_not_mem hname, newNames_of_not_mem hname, List.append_cons, ih, ← List.append_cons]

/-- The last member of two lists is that of the second one, or else of the first. -/
theorem getLastD_append {α : Type} (xs ys : List α) (x : α) :
    (xs ++ ys).getLastD x = ys.getLastD (xs.getLastD x) := by
  simp only [List.getLastD_eq_getLast?, List.getLast?_append, Option.getD_or]

/-- Without modifiers a select stays as it is. -/
@[simp] theorem composed_nil (s : Select) : s.composed [] = s := by
  simp [composed]

/-- A chain goes on from what its first modifier comes to. -/
theorem composed_cons (s : Select) (m : Modifier) (ms : List Modifier) :
    s.composed (m :: ms) = (s.composed [m]).composed ms := by
  unfold composed
  simp only [Modifier.said_cons ms, getLastD_append, append_newNames_append, List.flatten_append,
    List.append_assoc]

/-- A relation is named by a text. -/
theorem eq_text_of_named {relations : List (String × Relation)} {owner name : Value} {known : String}
    {relation : Relation} (h : Relation.named relations owner name = .ok (known, relation)) :
    name = .text known := by
  cases name with
  | text asked =>
    cases hfound : Relation.find? relations asked with
    | none => simp [Relation.named, hfound, refuse] at h
    | some found =>
      obtain ⟨rfl, -⟩ : asked = known ∧ found = relation := by simpa [Relation.named, hfound] using h
      rfl
  | _ =>
    unfold Relation.named at h
    dsimp only at h
    split_ifs at h <;> simp [refuse, misfit] at h

/-- One modifier changes what it is about. -/
theorem eq_composed_of_apply (h : Modifier.apply r s m = .ok t) : t = s.composed [m] := by
  cases m with
  | order items =>
    obtain ⟨values, hvalues, hcriteria⟩ := bind_eq_ok.mp h
    obtain ⟨criteria, hmapped, rfl⟩ := functor_map_eq_ok.mp hcriteria
    have hsay : (Modifier.order items).order? = some (criteria.map .record) := by
      have hread : (items.items >>= List.mapM Value.asRecord) = .ok criteria :=
        bind_eq_ok.mpr ⟨values, hvalues, hmapped⟩
      rw [Modifier.order?, hread]
      rfl
    simp [composed, Modifier.said_singleton, Modifier.facet, hsay]
  | limit count =>
    obtain rfl := Except.ok.inj h
    simp [composed, Modifier.said_singleton, Modifier.facet, Modifier.limit?]
  | offset count =>
    obtain rfl := Except.ok.inj h
    simp [composed, Modifier.said_singleton, Modifier.facet, Modifier.offset?]
  | join table left right kind =>
    obtain ⟨k, hkind, rfl⟩ := functor_map_eq_ok.mp h
    have hsay : (Modifier.join table left right kind).join? = some ⟨table, left, right, k⟩ := by
      rw [Modifier.join?, hkind]
      rfl
    simp [composed, Modifier.said_singleton, Modifier.facet, hsay]
  | columns keys =>
    obtain ⟨values, hvalues, rfl⟩ := functor_map_eq_ok.mp h
    have hsay : (Modifier.columns keys).columns? = some values := by
      rw [Modifier.columns?, hvalues]
      rfl
    simp [composed, Modifier.said_singleton, Modifier.facet, hsay]
  | relation name =>
    obtain ⟨⟨known, relation⟩, hnamed, rfl⟩ := functor_map_eq_ok.mp h
    obtain rfl : name = .text known := eq_text_of_named hnamed
    have hsay : (Modifier.relation (.text known)).relation? = some known := rfl
    by_cases hthere : known ∈ s.related
    · simp [composed, Modifier.said_singleton, Modifier.facet, hsay,
        newNames_of_mem, hthere]
    · simp [composed, Modifier.said_singleton, Modifier.facet, hsay,
        newNames_of_not_mem, hthere]
  | orGroups condition =>
    unfold Modifier.apply at h
    dsimp only at h
    split_ifs at h with hmissing
    · obtain rfl := Except.ok.inj h
      have hsay : (Modifier.orGroups condition).groups? = none := by
        rw [Modifier.groups?, if_pos hmissing]
      simp [composed, Modifier.said_singleton, Modifier.facet, hsay]
    · obtain ⟨groups, hgroups, rfl⟩ := map_eq_ok.mp h
      have hsay : (Modifier.orGroups condition).groups? = some groups := by
        rw [Modifier.groups?, if_neg hmissing, hgroups]
        rfl
      simp [composed, Modifier.said_singleton, Modifier.facet, hsay]

/-- The modifiers of a chain that succeeds compose the select. -/
theorem eq_composed_of_applyAll (h : Modifier.applyAll r s ms = .ok t) : t = s.composed ms := by
  induction ms generalizing s with
  | nil =>
    obtain rfl := Except.ok.inj h
    exact s.composed_nil.symm
  | cons m rest ih =>
    obtain ⟨next, hnext, hrest⟩ := bind_eq_ok.mp h
    rw [composed_cons, ← eq_composed_of_apply hnext]
    exact ih hrest

/-! ## Modifiers that change places -/

/-- A chain says the same as another one that has the same modifiers for every facet. -/
theorem composed_eq (h : ∀ f, about f ms = about f ms') : s.composed ms = s.composed ms' := by
  unfold composed said
  simp only [h]

/-- Whether a modifier fits does not depend on the select. -/
theorem exists_apply (u : Select) (h : Modifier.apply r s m = .ok t) :
    ∃ v, Modifier.apply r u m = .ok v := by
  cases m with
  | order items =>
    obtain ⟨values, hvalues, hcriteria⟩ := bind_eq_ok.mp h
    obtain ⟨criteria, hmapped, -⟩ := functor_map_eq_ok.mp hcriteria
    exact ⟨_, bind_eq_ok.mpr ⟨values, hvalues, functor_map_eq_ok.mpr ⟨criteria, hmapped, rfl⟩⟩⟩
  | limit count => exact ⟨_, rfl⟩
  | offset count => exact ⟨_, rfl⟩
  | join table left right kind =>
    obtain ⟨k, hkind, -⟩ := functor_map_eq_ok.mp h
    exact ⟨_, functor_map_eq_ok.mpr ⟨k, hkind, rfl⟩⟩
  | columns keys =>
    obtain ⟨values, hvalues, -⟩ := functor_map_eq_ok.mp h
    exact ⟨_, functor_map_eq_ok.mpr ⟨values, hvalues, rfl⟩⟩
  | relation name =>
    obtain ⟨found, hfound, -⟩ := functor_map_eq_ok.mp h
    exact ⟨_, functor_map_eq_ok.mpr ⟨found, hfound, rfl⟩⟩
  | orGroups condition =>
    unfold Modifier.apply at h ⊢
    dsimp only at h ⊢
    split_ifs at h ⊢
    · exact ⟨u, rfl⟩
    · obtain ⟨groups, hgroups, -⟩ := map_eq_ok.mp h
      exact ⟨_, map_eq_ok.mpr ⟨groups, hgroups, rfl⟩⟩

/-- A chain succeeds exactly if each of its modifiers does. -/
theorem exists_applyAll_iff :
    (∃ t, Modifier.applyAll r s ms = .ok t) ↔ ∀ m ∈ ms, ∃ t, Modifier.apply r s m = .ok t := by
  induction ms generalizing s with
  | nil => simp [Modifier.applyAll]
  | cons m rest ih =>
    rw [List.forall_mem_cons]
    constructor
    · rintro ⟨t, ht⟩
      obtain ⟨next, hnext, hrest⟩ := bind_eq_ok.mp ht
      refine ⟨⟨next, hnext⟩, fun other hother => ?_⟩
      obtain ⟨v, hv⟩ := ih.mp ⟨t, hrest⟩ other hother
      exact exists_apply s hv
    · rintro ⟨⟨next, hnext⟩, hrest⟩
      have hall : ∀ other ∈ rest, ∃ t, Modifier.apply r next other = .ok t := by
        intro other hother
        obtain ⟨v, hv⟩ := hrest other hother
        exact exists_apply next hv
      exact exists_bind_eq_ok hnext (ih.mpr hall)

/-- A modifier is one of those about its part. -/
theorem mem_iff_mem_about : m ∈ ms ↔ m ∈ about m.facet ms := by
  simp [about]

/-- A chain whose modifiers changed places across facets comes to the same select. -/
theorem applyAll_of_about_eq (h : Modifier.applyAll r s ms = .ok t)
    (hsame : ∀ f, about f ms = about f ms') : Modifier.applyAll r s ms' = .ok t := by
  have hfit : ∀ m ∈ ms', ∃ v, Modifier.apply r s m = .ok v := by
    intro m hm
    rw [mem_iff_mem_about, ← hsame, ← mem_iff_mem_about] at hm
    exact exists_applyAll_iff.mp ⟨t, h⟩ m hm
  obtain ⟨t', ht'⟩ := exists_applyAll_iff.mpr hfit
  rw [ht', eq_composed_of_applyAll ht', eq_composed_of_applyAll h, composed_eq hsame]

/-! ## The limit of a select of one object -/

/-- A select of one object without a relation to many. -/
def ReadsOneRow (r : Repository) (s : Select) : Prop :=
  (∃ required, s.amount = .first required) ∧ ∀ e ∈ s.relations r, e.2.kind ≠ .hasMany

/-- A select that reads one row has a limit of one. -/
theorem effectiveLimit_of_readsOneRow (h : s.ReadsOneRow r) : s.effectiveLimit r = .int 1 := by
  obtain ⟨⟨required, hamount⟩, hkind⟩ := h
  have hnone : ¬((s.relations r).any fun e => e.2.kind = .hasMany) = true := by
    simpa [List.any_eq_false] using hkind
  unfold effectiveLimit
  rw [hamount]
  exact if_neg hnone

/-- The given limit is not even looked at. -/
theorem build_limit_of_readsOneRow (h : s.ReadsOneRow r) (limit : Value) :
    { s with limit }.build d r = s.build d r := by
  have hlimited : ({ s with limit } : Select).ReadsOneRow r := h
  unfold build
  rw [effectiveLimit_of_readsOneRow h, effectiveLimit_of_readsOneRow hlimited]
  rfl

/-- The end of a statement that reads one row from an offset on. -/
def oneRowEnd (offset : Option Nat) : String :=
  " LIMIT 1" ++ (offset.elim "" fun n => " OFFSET " ++ toString n)

/-- A limit of one ends the statement with it and with the rows to skip. -/
theorem limitClause_one {offset : Value} {f : Fragment} (h : Sql.limitClause d (.int 1) offset = .ok f) :
    ∃ skipped : Option Nat, offset = skipped.elim .null (fun n => .int n) ∧
      Fragment.sql d f = oneRowEnd skipped := by
  obtain ⟨part, hpart, hoffset⟩ := bind_eq_ok.mp h
  obtain ⟨rest, hrest, rfl⟩ := functor_map_eq_ok.mp hoffset
  obtain rfl : [Piece.word " LIMIT ", .word "1"] = part := Except.ok.inj hpart
  unfold Sql.offsetPart at hrest
  split_ifs at hrest with hnull
  · obtain rfl := Except.ok.inj hrest
    obtain rfl : offset = .null := by cases offset <;> first | rfl | exact nomatch hnull
    exact ⟨none, rfl, rfl⟩
  · obtain ⟨n, hn, rfl⟩ := map_eq_ok.mp hrest
    refine ⟨some n, ?_, ?_⟩
    · cases offset with
      | int k =>
        unfold Sql.checkCount at hn
        dsimp only at hn
        split_ifs at hn with hneg
        · exact nomatch hn
        · obtain rfl := Except.ok.inj hn
          exact congrArg Value.int (Int.toNat_of_nonneg (not_lt.mp hneg)).symm
      | _ => exact nomatch hn
    · have hlimit : Fragment.sql d [.word " LIMIT ", .word "1"] = " LIMIT 1" := by cases d <;> rfl
      rw [Sql.sql_append, hlimit, Sql.sql_cons, Sql.sql_cons, Sql.sql_nil]
      simp only [Piece.chars, String.ofList_toList, String.append_empty]
      rfl

/-- A select that reads one row ends with a limit of one. -/
theorem sql_of_readsOneRow {st : Statement} (h : s.ReadsOneRow r) (hst : s.build d r = .ok st) :
    ∃ front skipped, s.offset = Option.elim skipped .null (fun n : Nat => .int n) ∧
      st.sql = front ++ oneRowEnd skipped := by
  obtain ⟨columns, f, tables, order, limits, -, -, -, -, hlimits, rfl⟩ := of_build hst
  rw [effectiveLimit_of_readsOneRow h] at hlimits
  obtain ⟨skipped, hoffset, hsql⟩ := limitClause_one hlimits
  refine ⟨Fragment.sql d (.word "SELECT " :: (columns ++ tables ++ f.whereFragment d ++ order)), skipped,
    hoffset, ?_⟩
  rw [← hsql, ← Sql.sql_append]
  simp [Fragment.statement]

/-! ## Chains -/

/-- What a chain of modifiers builds. The statements are those of the select in which order, limit,
offset and columns are the ones given last, joins and OR-groups stand in the order of their
modifiers, and each relation where it was first asked for. They are the same for every chain that
has the same modifiers for each facet. Where one row is enough they read one, whatever limit was
given. -/
theorem build_of_chain (h : Modifier.applyAll r s ms = .ok t) :
    t = s.composed ms ∧
    (∀ ms', (∀ f, about f ms' = about f ms) → ∃ t', Modifier.applyAll r s ms' = .ok t' ∧
      ∀ d, t'.build d r = t.build d r ∧
        ∀ aggregates, t'.buildAggregates d r aggregates = t.buildAggregates d r aggregates) ∧
    (t.ReadsOneRow r →
      (∀ d limit, { t with limit }.build d r = t.build d r) ∧
      ∀ d st, t.build d r = .ok st → ∃ front skipped,
        (said .offset Modifier.offset? ms).getLastD s.offset =
          Option.elim skipped .null (fun n : Nat => .int n) ∧
        st.sql = front ++ oneRowEnd skipped) := by
  have hcomposed := eq_composed_of_applyAll h
  refine ⟨hcomposed, ?_, ?_⟩
  · intro ms' hsame
    exact ⟨t, applyAll_of_about_eq h fun f => (hsame f).symm, fun _ => ⟨rfl, fun _ => rfl⟩⟩
  · intro hone
    refine ⟨fun d limit => build_limit_of_readsOneRow hone limit, fun d st hst => ?_⟩
    have hoffset : t.offset = (said .offset Modifier.offset? ms).getLastD s.offset := by rw [hcomposed]; rfl
    rw [← hoffset]
    exact sql_of_readsOneRow hone hst

/-- Two limits, an offset, an order, and a relation that is asked for twice. -/
def wordyChain : List Modifier :=
  [.limit (.int 5), .relation (.text "author"), .order (.list [.record [("column", .text "title")]]),
    .offset (.int 2), .relation (.text "author"), .limit (.text "many")]

/-- The same with the facets one after the other. -/
def sortedChain : List Modifier :=
  [.offset (.int 2), .relation (.text "author"), .relation (.text "author"), .limit (.int 5),
    .limit (.text "many"), .order (.list [.record [("column", .text "title")]])]

/-- A chain of many modifiers is applied, and comes to what each part of it says. -/
theorem build_of_chain_wordyChain :
    ∃ t, Modifier.applyAll (posts "person" "staff") { amount := .first true } wordyChain = .ok t ∧
      t.related = ["author"] ∧ t.ReadsOneRow (posts "person" "staff") ∧
      (∃ t', Modifier.applyAll (posts "person" "staff") { amount := .first true } sortedChain = .ok t' ∧
        ∀ d, t'.build d (posts "person" "staff") = t.build d (posts "person" "staff")) ∧
      ∃ st front, t.build .sqlite (posts "person" "staff") = .ok st ∧
        st.sql = front ++ " LIMIT 1 OFFSET 2" := by
  have hwordy : Modifier.applyAll (posts "person" "staff") { amount := .first true } wordyChain =
      .ok (composed { amount := .first true } wordyChain) := rfl
  obtain ⟨-, hshuffled, hone⟩ := build_of_chain hwordy
  have hreads : (composed { amount := .first true } wordyChain).ReadsOneRow (posts "person" "staff") :=
    ⟨⟨true, rfl⟩, by decide⟩
  refine ⟨_, hwordy, rfl, hreads, ?_, ?_⟩
  · obtain ⟨t', ht', hsame⟩ := hshuffled sortedChain fun f => by cases f <;> rfl
    exact ⟨t', ht', fun d => (hsame d).1⟩
  · obtain ⟨st, hst⟩ : ∃ st, (composed { amount := .first true } wordyChain).build .sqlite
        (posts "person" "staff") = .ok st := ⟨_, rfl⟩
    obtain ⟨front, skipped, hoffset, hsql⟩ := (hone hreads).2 .sqlite st hst
    obtain rfl : skipped = some 2 := by
      cases skipped with
      | none => exact nomatch hoffset
      | some n => exact congrArg some (Int.ofNat.inj (Value.int.inj hoffset)).symm
    exact ⟨st, front, hst, hsql⟩

end Select

end Quarry
