import Quarry.Proofs.Sql.FilterText
import Quarry.Proofs.Sql.Heading

/-!
# The columns of a text

Which columns a statement refers to can be told from its tokens alone (`Grammar.columnsIn`): every
quoted name is one, or belongs to one, unless the word in front of it announces a table or a label.
Two names with a dot between them are one reference. The reader has no memory but for the token in
front, so what a text refers to is what its parts refer to, as long as no part begins with a dot
(`Grammar.Mentions`). `Refers` says the same of fragments, and the parts of a condition, of joins
and of an order are put together from it.
-/

set_option autoImplicit false

namespace Quarry.Sql

open Grammar (Closes Reads Separates Token)

variable {α : Type} {d : Dialect}

namespace Grammar

/-! ## Tokens -/

/-- Whether a name behind a word is that of a table or a label. -/
def announces (w : String) : Bool := w = "FROM" || w = "JOIN" || w = "AS" || w = "INTO" || w = "UPDATE"

/-- The columns that tokens refer to, in order. Where the word in front has announced it, a name is
none. -/
def columnsFrom : Bool → List Token → List ColumnRef
  | _, [] => []
  | _, .word w :: rest => columnsFrom (announces w) rest
  | true, .name _ :: rest => columnsFrom false rest
  | false, .name t :: .mark '.' :: .name c :: rest => .qualified t c :: columnsFrom false rest
  | false, .name t :: .mark '.' :: .mark '*' :: rest => .star t :: columnsFrom false rest
  | false, .name c :: rest => .plain c :: columnsFrom false rest
  | _, _ :: rest => columnsFrom false rest

/-- The columns that tokens refer to, in order. -/
def columnsIn (ts : List Token) : List ColumnRef := columnsFrom false ts

/-- The columns that a text refers to, if it can be read. -/
def mentioned? (d : Dialect) (text : String) : Option (List ColumnRef) :=
  (tokens? d text.toList).map columnsIn

/-- Whether tokens do not go on with a reference that has begun in front of them. -/
def StartsAnew (ts : List Token) : Prop := ts.head? ≠ some (.mark '.')

/-- Tokens refer to columns, whatever follows them. -/
def Mentions (ts : List Token) (cs : List ColumnRef) : Prop :=
  ∀ us, StartsAnew us → columnsIn (ts ++ us) = cs ++ columnsIn us

/-- A word is no part of a name before it. -/
theorem startsAnew_word (w : String) (ts : List Token) : StartsAnew (.word w :: ts) := nofun

/-- What follows after something that starts anew does not matter. -/
theorem StartsAnew.append {ts us : List Token} (h : StartsAnew ts) (h' : StartsAnew us) :
    StartsAnew (ts ++ us) := by
  cases ts with
  | nil => exact h'
  | cons t ts => exact h

/-- Nothing mentions nothing. -/
theorem mentions_nil : Mentions [] [] := fun _ _ => rfl

/-- What two texts mention, they mention one after the other. -/
theorem Mentions.append {ts us : List Token} {cs ds : List ColumnRef} (h : Mentions ts cs)
    (h' : Mentions us ds) (hus : StartsAnew us) : Mentions (ts ++ us) (cs ++ ds) := by
  intro vs hvs
  rw [List.append_assoc, h _ (hus.append hvs), h' _ hvs, List.append_assoc]

/-- The columns that are read from tokens are those that these mention. -/
theorem Mentions.columnsIn_eq {ts : List Token} {cs : List ColumnRef} (h : Mentions ts cs) :
    columnsIn ts = cs := by
  have hall := h [] nofun
  rwa [List.append_nil, show columnsIn [] = [] from rfl, List.append_nil] at hall

/-- A token that neither is a name nor announces one. -/
def isQuiet : Token → Bool
  | .name _ => false
  | .word w => !announces w
  | _ => true

/-- Whether a token is a name. -/
def isName : Token → Bool
  | .name _ => true
  | _ => false

/-- Tokens without names, of which the last one announces none. -/
def isNameless (ts : List Token) : Bool := ts.all (fun t => !isName t) && ts.getLast?.all isQuiet

/-- Before a name comes, nothing is mentioned. -/
theorem columnsFrom_nameless {ts us : List Token} (h : isNameless ts = true) (hne : ts ≠ [])
    (announced : Bool) : columnsFrom announced (ts ++ us) = columnsIn us := by
  induction ts generalizing announced with
  | nil => exact absurd rfl hne
  | cons t ts ih =>
    obtain ⟨hnone, hlast⟩ := Bool.and_eq_true_iff.mp h
    have ht : isName t = false := by simpa using List.all_eq_true.mp hnone t List.mem_cons_self
    have hstep : ∃ next, columnsFrom announced (t :: (ts ++ us)) = columnsFrom next (ts ++ us) ∧
        (isQuiet t = true → next = false) := by
      cases t with
      | name n => exact nomatch ht
      | word w => exact ⟨announces w, by cases announced <;> rfl, by simp [isQuiet]⟩
      | sign s => exact ⟨false, by cases announced <;> rfl, fun _ => rfl⟩
      | mark c => exact ⟨false, by cases announced <;> rfl, fun _ => rfl⟩
      | slot => exact ⟨false, by cases announced <;> rfl, fun _ => rfl⟩
    obtain ⟨next, hnext, hquiet⟩ := hstep
    rw [List.cons_append, hnext]
    cases ts with
    | nil =>
      rw [hquiet (by simpa using hlast)]
      rfl
    | cons u ts =>
      have hrest : isNameless (u :: ts) = true := by
        simp only [isNameless, List.all_cons, Bool.and_eq_true] at hnone ⊢
        exact ⟨hnone.2, by simpa using hlast⟩
      exact ih hrest (List.cons_ne_nil u ts) next

/-- Where there is no name, there is no column. -/
theorem mentions_nameless {ts : List Token} (h : isNameless ts = true) : Mentions ts [] := by
  intro us _
  cases ts with
  | nil => rfl
  | cons t ts => exact columnsFrom_nameless h (List.cons_ne_nil t ts) false

/-- Quiet tokens are no names. -/
theorem isNameless_of_quiet {ts : List Token} (h : ∀ t ∈ ts, isQuiet t = true) : isNameless ts = true := by
  have hname : ∀ t ∈ ts, (!isName t) = true := by
    intro t ht
    have hquiet := h t ht
    cases t <;> first | rfl | exact nomatch hquiet
  rw [isNameless, List.all_eq_true.mpr hname, Bool.true_and]
  cases hlast : ts.getLast? with
  | none => rfl
  | some t => exact h t (List.mem_of_getLast? hlast)

/-- A name that is announced by a word before it is that of no column. -/
theorem mentions_announced {w : String} (hw : announces w = true) (n : String) :
    Mentions [.word w, .name n] [] := by
  intro us _
  show columnsFrom (announces w) (.name n :: us) = columnsIn us
  rw [hw]
  rfl

/-- A column mentions itself. -/
theorem mentions_column (c : ColumnRef) : Mentions c.tokens [c] := by
  intro us hus
  cases c with
  | plain c =>
    show columnsFrom false (.name c :: us) = .plain c :: columnsFrom false us
    rw [columnsFrom]
    · rintro other rest rfl
      exact hus rfl
    · rintro rest rfl
      exact hus rfl
  | qualified t c => rfl
  | star t => rfl

/-- Slots are quiet. -/
theorem quiet_slotTokens (n : Nat) : ∀ t ∈ slotTokens n, isQuiet t = true := by
  intro t ht
  obtain rfl | ⟨part, hpart, hmem⟩ := mem_joined ht
  · rfl
  · obtain ⟨_, -, rfl⟩ := List.mem_map.mp hpart
    obtain rfl := List.mem_singleton.mp hmem
    rfl

/-- A number is quiet. -/
theorem quiet_number (n : Nat) : isQuiet (.word (toString n)) = true := by
  have hfrom := toString_ne (w := "FROM") n ⟨'F', by simp, by decide⟩
  have hjoin := toString_ne (w := "JOIN") n ⟨'J', by simp, by decide⟩
  have has := toString_ne (w := "AS") n ⟨'A', by simp, by decide⟩
  have hinto := toString_ne (w := "INTO") n ⟨'I', by simp, by decide⟩
  have hupdate := toString_ne (w := "UPDATE") n ⟨'U', by simp, by decide⟩
  simp only [isQuiet, announces, hfrom, hjoin, has, hinto, hupdate, decide_false, Bool.or_false,
    Bool.not_false]

/-! ## Fragments -/

/-- The text of a fragment refers to columns. -/
def Refers (d : Dialect) (f : Fragment) (cs : List ColumnRef) : Prop :=
  ∃ ts, Reads d (Fragment.chars d f) ts ∧ StartsAnew ts ∧ Mentions ts cs

/-- A text in front of which any token ends. -/
def Breaks (cs : List Char) : Prop := cs = [] ∨ ∃ x xs, cs = x :: xs ∧ isBreak x = true

variable {f g : Fragment} {cs ds : List ColumnRef}

/-- The columns that are read from a text are those to which it refers. -/
theorem Refers.mentioned? (h : Refers d f cs) : mentioned? d (Fragment.sql d f) = some cs := by
  obtain ⟨ts, hreads, -, hmentions⟩ := h
  rw [Grammar.mentioned?, Fragment.sql, String.toList_ofList, hreads.tokens?, Option.map_some,
    hmentions.columnsIn_eq]

/-- Nothing refers to nothing. -/
theorem refers_nil : Refers d [] [] := ⟨[], reads_nil, nofun, mentions_nil⟩

/-- A column refers to itself. -/
theorem refers_column (c : ColumnRef) : Refers d c.fragment [c] :=
  ⟨c.tokens, c.reads, by cases c <;> nofun, mentions_column c⟩

/-- A text without names refers to nothing. -/
theorem refers_nameless {ts : List Token} (hreads : Reads d (Fragment.chars d f) ts)
    (hts : isNameless ts = true) (hanew : StartsAnew ts) : Refers d f [] :=
  ⟨ts, hreads, hanew, mentions_nameless hts⟩

/-- What two fragments refer to, they refer to one after the other if there is a break between
them. -/
theorem Refers.append (h : Refers d f cs) (h' : Refers d g ds) (hg : Breaks (Fragment.chars d g)) :
    Refers d (f ++ g) (cs ++ ds) := by
  obtain ⟨ts, hreads, hanew, hmentions⟩ := h
  obtain ⟨us, hreads', hanew', hmentions'⟩ := h'
  refine ⟨ts ++ us, ?_, hanew.append hanew', hmentions.append hmentions' hanew'⟩
  rw [chars_append]
  obtain hempty | ⟨x, xs, hchars, hx⟩ := hg
  · rw [hempty] at hreads' ⊢
    have hnil : us = [] := by
      have htokens := hreads'.tokens?
      exact (Option.some.inj htokens).symm
    rwa [hnil, List.append_nil, List.append_nil]
  · rw [hchars] at hreads' ⊢
    exact hreads.append hx hreads'

/-- A fragment without columns adds none. -/
theorem Refers.append_nameless (h : Refers d f cs) (hg : Refers d g [])
    (hbreaks : Breaks (Fragment.chars d g)) :
    Refers d (f ++ g) cs := by
  have hall := h.append hg hbreaks
  rwa [List.append_nil] at hall

/-- What breaks at its beginning does so with anything behind it. -/
theorem Breaks.append {xs ys : List Char} (h : Breaks xs) (h' : Breaks ys) : Breaks (xs ++ ys) := by
  obtain rfl | ⟨x, xs, rfl, hx⟩ := h
  · exact h'
  · exact .inr ⟨x, xs ++ ys, rfl, hx⟩

/-- A fragment breaks off the text before it if its first character does. -/
theorem breaks_word {w : String} {x : Char} {xs : List Char} (hw : w.toList = x :: xs)
    (hx : isBreak x = true) (f : Fragment) : Breaks (Fragment.chars d (.word w :: f)) := by
  refine .inr ⟨x, xs ++ Fragment.chars d f, ?_, hx⟩
  rw [chars_cons, Piece.chars, hw]
  rfl

/-- Words that end their own tokens in front of a text. -/
theorem Refers.words_append (h : Refers d f cs) {ts : List Token}
    (hg : Closes d (Fragment.chars d g) ts) (hts : isNameless ts = true) (hanew : StartsAnew ts) :
    Refers d (g ++ f) cs := by
  obtain ⟨us, hreads, hanew', hmentions⟩ := h
  refine ⟨ts ++ us, ?_, hanew.append hanew', (mentions_nameless hts).append hmentions hanew'⟩
  rw [chars_append]
  exact hg.append_reads hreads

/-- A word without a name adds no column. -/
theorem Refers.word_cons (h : Refers d f cs) {w : String} {ts : List Token} (hw : Closes d w.toList ts)
    (hts : isNameless ts = true) (hanew : StartsAnew ts) : Refers d (.word w :: f) cs := by
  have hchars : Closes d (Fragment.chars d [.word w]) ts := by simpa [Piece.chars] using hw
  exact h.words_append hchars hts hanew

/-- A name behind words that announce it. -/
theorem refers_announced {ts : List Token} {a : String}
    (hf : Closes d (Fragment.chars d f) (ts ++ [.word a])) (hts : isNameless ts = true)
    (hanew : StartsAnew ts) (ha : announces a = true) (n : String) : Refers d (f ++ [.name n]) [] := by
  refine ⟨ts ++ [.word a, .name n], ?_, hanew.append nofun, ?_⟩
  · have hreads := hf.append_reads (reads_quoteChars n)
    simpa [Piece.chars] using hreads
  · exact (mentions_nameless hts).append (mentions_announced ha n) nofun

/-- Parentheses add no column. -/
theorem Refers.parenthesized (h : Refers d f cs) : Refers d f.parenthesized cs := by
  have hopen : Closes d "(".toList [.mark '('] := by cases d <;> rfl
  have hclose : Closes d (Fragment.chars d [.word ")"]) [.mark ')'] := by cases d <;> rfl
  have hend : Refers d [.word ")"] [] := refers_nameless hclose.reads rfl nofun
  exact (h.append_nameless hend (.inr ⟨')', [], rfl, rfl⟩)).word_cons hopen rfl nofun

/-- A separator adds no column. -/
theorem refers_joined {separator : String} {t : Token} (hsep : Separates d separator t)
    (ht : isQuiet t = true) (hdot : t ≠ .mark '.') {fs : List Fragment} {css : List (List ColumnRef)}
    (h : List.Forall₂ (Refers d) fs css) : Refers d (Fragment.joined separator fs) css.flatten := by
  induction h with
  | nil => exact refers_nil
  | @cons f cs fs css hfirst hrest ih =>
    cases hrest with
    | nil => simpa [Fragment.joined] using hfirst
    | cons hnext hrest =>
      have hanew : StartsAnew [t] := by simpa [StartsAnew] using hdot
      have hlater := ih.word_cons hsep.closes (isNameless_of_quiet (by simpa using ht)) hanew
      obtain ⟨c, cs, hchars, hbreak⟩ := hsep.breaks
      exact hfirst.append hlater (breaks_word hchars hbreak _)

/-- The columns of joined fragments are those of all members. -/
theorem refers_joined_map {separator : String} {t : Token} (hsep : Separates d separator t)
    (ht : isQuiet t = true) (hdot : t ≠ .mark '.') (frag : α → Fragment) (refs : α → List ColumnRef)
    (xs : List α) (h : ∀ x ∈ xs, Refers d (frag x) (refs x)) :
    Refers d (Fragment.joined separator (xs.map frag)) (xs.flatMap refs) := by
  have hall : List.Forall₂ (Refers d) (xs.map frag) (xs.map refs) := by
    simpa [List.forall₂_map_left_iff, List.forall₂_map_right_iff, List.forall₂_same] using h
  exact refers_joined hsep ht hdot hall

/-- What a list refers to, item by item. -/
theorem refers_list (frag : α → Fragment) (refs : α → List ColumnRef) (xs : List α)
    (h : ∀ x ∈ xs, Refers d (frag x) (refs x)) :
    Refers d (Fragment.joined ", " (xs.map frag)) (xs.flatMap refs) :=
  refers_joined_map separates_comma rfl nofun frag refs xs h

/-- A list of what refers to nothing. -/
theorem refers_list_nameless (frag : α → Fragment) (xs : List α) (h : ∀ x ∈ xs, Refers d (frag x) []) :
    Refers d (Fragment.joined ", " (xs.map frag)) [] := by
  have hall := refers_list frag (fun _ => []) xs h
  rwa [List.flatMap_eq_nil_iff.mpr fun _ _ => rfl] at hall

end Grammar

open Grammar (Breaks Mentions Refers StartsAnew)

/-! ## Conditions -/

namespace JsonTest

/-- A column among words. -/
theorem mentions_around {before behind : List Token} (c : ColumnRef)
    (hbefore : Grammar.isNameless before = true) (hbehind : Grammar.isNameless behind = true)
    (hanew : StartsAnew behind) : Mentions (before ++ (c.tokens ++ behind)) [c] := by
  have hcolumn := (Grammar.mentions_column c).append (Grammar.mentions_nameless hbehind) hanew
  refine (Grammar.mentions_nameless hbefore).append hcolumn ?_
  cases c <;> nofun

/-- A call mentions its column. -/
theorem mentions_callTokens {function : String} (hfunction : Grammar.isQuiet (.word function) = true)
    (c : ColumnRef) (n : Nat) : Mentions (callTokens function c n) [c] := by
  have hquiet := Grammar.quiet_slotTokens n
  have hbefore : ∀ t ∈ [Token.word function, .mark '('], Grammar.isQuiet t = true := by
    simpa [Grammar.isQuiet] using hfunction
  have hbehind : ∀ t ∈ [Token.mark ',', .word "JSON_ARRAY", .mark '('] ++
      (Grammar.slotTokens n ++ [.mark ')', .mark ')']), Grammar.isQuiet t = true := by
    simp only [List.forall_mem_append]
    exact ⟨by decide, hquiet, by decide⟩
  exact mentions_around c (Grammar.isNameless_of_quiet hbefore) (Grammar.isNameless_of_quiet hbehind) nofun

/-- A walk over an array mentions its column. -/
theorem mentions_eachTokens {before behind : List Token}
    (hbefore : Grammar.isNameless (before ++ [.word "FROM", .word "json_each", .mark '(']) = true)
    (hbehind : ∀ t ∈ behind, Grammar.isQuiet t = true) (c : ColumnRef) (n : Nat) :
    Mentions (eachTokens before c n behind) [c] := by
  have hquiet := Grammar.quiet_slotTokens n
  have hall : ∀ t ∈ [Token.mark ')', .word "WHERE", .word "json_each", .mark '.', .word "value",
      .word "IN", .mark '('] ++ (Grammar.slotTokens n ++ ([.mark ')', .mark ')'] ++ behind)),
      Grammar.isQuiet t = true := by
    simp only [List.forall_mem_append]
    exact ⟨by decide, hquiet, by decide, hbehind⟩
  exact mentions_around c hbefore (Grammar.isNameless_of_quiet hall) nofun

/-- A JSON test mentions its column. -/
theorem mentions_tokens (c : ColumnRef) (t : JsonTest) : Mentions (t.tokens d c) [c] := by
  cases t with
  | contains vs =>
    cases d with
    | mysql => exact mentions_callTokens rfl c vs.length
    | sqlite =>
      have hcount : ∀ t ∈ [Token.sign "=", .word (toString vs.length)], Grammar.isQuiet t = true := by
        simpa [Grammar.isQuiet] using Grammar.quiet_number vs.length
      exact mentions_eachTokens rfl hcount c vs.length
  | overlaps vs =>
    cases d with
    | mysql => exact mentions_callTokens rfl c vs.length
    | sqlite => exact mentions_eachTokens rfl (List.forall_mem_nil _) c vs.length
  | pathLike path pattern =>
    cases d with
    | mysql => exact mentions_around c rfl rfl nofun
    | sqlite => exact mentions_around c rfl rfl nofun

/-- The text of a JSON test refers to its column. -/
theorem refers (c : ColumnRef) (t : JsonTest) (ht : t.IsProper) :
    Refers d (t.fragment d c.fragment) [c] := by
  refine ⟨t.tokens d c, t.reads c ht, ?_, mentions_tokens c t⟩
  cases t <;> cases d <;> nofun

end JsonTest

namespace Atom

/-- The columns that an atom is about, as often as its text refers to them. -/
def columns : Atom → List ColumnRef
  | .never => []
  | .isNull c => [c]
  | .isNotNull c => [c]
  | .compare c _ _ => [c]
  | .oneOf c _ => [c]
  | .like c _ => [c]
  | .json c _ => [c]
  | .anyJson c ts => ts.map fun _ => c

/-- A column and how it is tested. -/
theorem refers_tested (c : ColumnRef) {f : Fragment} {ts : List Token} (hf : Breaks (Fragment.chars d f))
    (hreads : Reads d (Fragment.chars d f) ts) (hts : Grammar.isNameless ts = true)
    (hanew : StartsAnew ts) : Refers d (c.fragment ++ f) [c] :=
  (Grammar.refers_column c).append_nameless (Grammar.refers_nameless hreads hts hanew) hf

/-- The text of an atom refers to its columns. -/
theorem refers (a : Atom) (ha : a.IsProper) : Refers d (a.fragment d) a.columns := by
  cases a with
  | never =>
    have hreads : Reads d (Fragment.chars d (fragment d .never)) [.word "1", .sign "=", .word "0"] := by
      cases d <;> exact ⟨[.word "1", .sign "="], .word ['0'], [.word "0"], rfl, rfl, rfl⟩
    exact Grammar.refers_nameless hreads rfl nofun
  | isNull c =>
    have hreads : Reads d (Fragment.chars d [.word " IS NULL"]) [.word "IS", .word "NULL"] := by
      cases d <;> exact ⟨[.word "IS"], .word "NULL".toList, [.word "NULL"], rfl, rfl, rfl⟩
    exact refers_tested c (.inr ⟨' ', _, rfl, rfl⟩) hreads rfl nofun
  | isNotNull c =>
    have hreads : Reads d (Fragment.chars d [.word " IS NOT NULL"])
        [.word "IS", .word "NOT", .word "NULL"] := by
      cases d <;>
        exact ⟨[.word "IS", .word "NOT"], .word "NULL".toList, [.word "NULL"], rfl, rfl, rfl⟩
    exact refers_tested c (.inr ⟨' ', _, rfl, rfl⟩) hreads rfl nofun
  | compare c op v =>
    have hreads : Closes d (Fragment.chars d [.word " ", .word op.sign, .word " ", .slot v])
        [.sign op.sign, .slot] := by
      cases d <;> cases op <;> rfl
    exact refers_tested c (.inr ⟨' ', _, rfl, rfl⟩) hreads.reads rfl nofun
  | oneOf c vs =>
    have hpre : Closes d " IN (".toList [.word "IN", .mark '('] := by cases d <;> rfl
    have hpost : Closes d ")".toList [.mark ')'] := by cases d <;> rfl
    have hreads := Grammar.reads_slots_then hpre hpost ha Grammar.reads_nil
    have hquiet : ∀ t ∈ [Token.word "IN", .mark '('] ++ (Grammar.slotTokens vs.length ++
        ([.mark ')'] ++ [])), Grammar.isQuiet t = true := by
      simp only [List.forall_mem_append]
      exact ⟨by decide, Grammar.quiet_slotTokens vs.length, by decide, nofun⟩
    exact refers_tested c (.inr ⟨' ', _, rfl, rfl⟩) hreads (Grammar.isNameless_of_quiet hquiet) nofun
  | like c p =>
    have hreads : Closes d (Fragment.chars d [.word " LIKE ", .slot p]) [.word "LIKE", .slot] := by
      cases d <;> rfl
    exact refers_tested c (.inr ⟨' ', _, rfl, rfl⟩) hreads.reads rfl nofun
  | json c t => exact t.refers c ha
  | anyJson c ts =>
    have hjoined := Grammar.refers_joined_map Grammar.separates_or rfl nofun (JsonTest.fragment d c.fragment)
      (fun _ => [c]) ts fun t ht => t.refers c (ha.2 t ht)
    rw [← List.map_eq_flatMap] at hjoined
    exact hjoined.parenthesized

end Atom

namespace Filter

/-- The columns that a filter is about. -/
def columns (f : Filter) : List ColumnRef :=
  f.main.flatMap Atom.columns ++ f.groups.flatMap fun g => g.flatMap Atom.columns

/-- The text of a conjunction refers to the columns of its atoms. -/
theorem refers_conjunction {atoms : List Atom} (h : ∀ a ∈ atoms, a.IsProper) :
    Refers d (conjunction d atoms) (atoms.flatMap Atom.columns) :=
  Grammar.refers_joined_map Grammar.separates_and rfl nofun (Atom.fragment d) Atom.columns atoms
    fun a ha => a.refers (h a ha)

/-- The text of a disjunction refers to the columns of its groups. -/
theorem refers_disjunction {groups : List (List Atom)} (h : ∀ g ∈ groups, ∀ a ∈ g, a.IsProper) :
    Refers d (disjunction d groups) (groups.flatMap fun g => g.flatMap Atom.columns) :=
  Grammar.refers_joined_map Grammar.separates_or rfl nofun (fun g => Fragment.parenthesized (conjunction d g))
    (fun g => g.flatMap Atom.columns) groups fun g hg => (refers_conjunction (h g hg)).parenthesized

/-- The text of a filter refers to its columns. -/
theorem refers {f : Filter} (hf : f.IsProper) : Refers d (f.fragment d) f.columns := by
  obtain ⟨main, groups⟩ := f
  have hmain := refers_conjunction (d := d) hf.main
  have hgroups := refers_disjunction (d := d) fun g hg => (hf.groups g hg).2
  cases groups with
  | nil => simpa [fragment, columns] using hmain
  | cons g groups =>
    cases main with
    | nil => simpa [fragment, columns] using hgroups
    | cons a main =>
      have hword := hgroups.parenthesized.word_cons Grammar.separates_and.closes rfl nofun
      have hboth := hmain.parenthesized.append hword (Grammar.breaks_word (x := ' ') rfl rfl _)
      simpa [fragment, columns] using hboth

/-- The WHERE clause refers to the columns that its filter is about. -/
theorem refers_whereFragment {f : Filter} (hf : f.IsProper) :
    Refers d (f.whereFragment d) f.columns ∧ Breaks (Fragment.chars d (f.whereFragment d)) := by
  have hwhere : Closes d " WHERE ".toList [.word "WHERE"] := by cases d <;> rfl
  unfold whereFragment
  split_ifs with hempty
  · obtain ⟨main, groups⟩ := f
    obtain ⟨hmain, hgroups⟩ := Bool.and_eq_true_iff.mp hempty
    obtain rfl := List.isEmpty_iff.mp hmain
    obtain rfl := List.isEmpty_iff.mp hgroups
    exact ⟨Grammar.refers_nil, .inl rfl⟩
  · exact ⟨(refers hf).word_cons hwhere rfl nofun, Grammar.breaks_word (x := ' ') rfl rfl _⟩

end Filter

end Quarry.Sql
