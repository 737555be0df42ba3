import Quarry.Proofs.Sql.Parameters
import Quarry.Sql.Aggregate
import Quarry.Sql.Clause

/-!
# Placeholders in texts

A driver finds the placeholders of a statement by going through its text, and what stands between
quotes is a name to it. `places` are the places where placeholders begin. A text `Holds` a number of
them if they are its own, whatever stands in front of it and behind it; then the places of texts put
together are the places of each. Fixed words hold none, a name in quotes holds none even when
placeholders are written in it, and a slot holds one. So a fragment holds as many placeholders as it
binds values, unless some of it was given as text by the caller.
-/

set_option autoImplicit false

namespace Quarry.Sql

variable {d : Dialect}

/-! ## Places -/

/-- The places in a text at which placeholders begin, the first character of the text being at `i`.
A quote leads into a name or out of it; a doubled quote leads out and in again. -/
def placesFrom (d : Dialect) : Bool → Nat → List Char → List Nat
  | _, _, [] => []
  | inName, i, c :: cs =>
    if c = d.quote then placesFrom d (!inName) (i + 1) cs
    else if !inName && d.placeholder.toList.isPrefixOf (c :: cs) then
      i :: placesFrom d inName (i + 1) cs
    else placesFrom d inName (i + 1) cs

/-- The places in a text at which placeholders begin. -/
def places (d : Dialect) (text : String) : List Nat := placesFrom d false 0 text.toList

/-- A text with a number of placeholders, which are there whatever stands around the text. -/
def Holds (d : Dialect) (cs : List Char) (n : Nat) : Prop :=
  ∃ inside : List Nat, inside.length = n ∧ (∀ p ∈ inside, p < cs.length) ∧
    ∀ i rest, placesFrom d false i (cs ++ rest) =
      inside.map (i + ·) ++ placesFrom d false (i + cs.length) rest

/-- Nothing holds no placeholder. -/
theorem holds_nil : Holds d [] 0 := ⟨[], rfl, by simp, by simp⟩

/-- The placeholders of texts one after the other add up. -/
theorem Holds.append {cs ds : List Char} {m n : Nat} (h : Holds d cs m) (h' : Holds d ds n) :
    Holds d (cs ++ ds) (m + n) := by
  obtain ⟨inside, hlength, hbound, hplaces⟩ := h
  obtain ⟨others, hlength', hbound', hplaces'⟩ := h'
  refine ⟨inside ++ others.map (cs.length + ·), ?_, ?_, ?_⟩
  · simp [hlength, hlength']
  · intro p hp
    rw [List.length_append]
    obtain hp | hp := List.mem_append.mp hp
    · have := hbound p hp
      omega
    · obtain ⟨q, hq, rfl⟩ := List.mem_map.mp hp
      have := hbound' q hq
      omega
  · intro i rest
    have hshift : (i + ·) ∘ (cs.length + ·) = (i + cs.length + · : Nat → Nat) := by
      funext p
      simp [Nat.add_assoc]
    rw [List.append_assoc, hplaces, hplaces', List.map_append, List.map_map, hshift,
      List.length_append, Nat.add_assoc, List.append_assoc]

/-- A character that is no quote and begins no placeholder. -/
def isHarmless (c : Char) : Bool := c != '"' && c != '\x60' && c != '?' && c != '%'

/-- A harmless character holds none. -/
theorem holds_char {c : Char} (hc : isHarmless c = true) : Holds d [c] 0 := by
  have hquote : c ≠ d.quote := by rintro rfl; cases d <;> exact absurd hc (by decide)
  have hplaceholder : ∀ rest, d.placeholder.toList.isPrefixOf (c :: rest) = false := by
    intro rest
    have hfirst : '%' ≠ c ∧ '?' ≠ c := by
      constructor <;> rintro rfl <;> exact absurd hc (by decide)
    cases d <;> simp [Dialect.placeholder, List.isPrefixOf, hfirst]
  refine ⟨[], rfl, by simp, ?_⟩
  intro i rest
  simp [placesFrom, hquote, hplaceholder]

/-- A word of harmless characters holds none. -/
theorem holds_word {cs : List Char} (h : ∀ c ∈ cs, isHarmless c = true) : Holds d cs 0 := by
  induction cs with
  | nil => exact holds_nil
  | cons c cs ih =>
    obtain ⟨hc, hcs⟩ := List.forall_mem_cons.mp h
    exact (holds_char hc).append (ih hcs)

/-- Inside of a name nothing is a placeholder, up to the quote that ends the name. -/
theorem placesFrom_name (n rest : List Char) (i : Nat) :
    placesFrom d true i (Dialect.doubleQuotes d.quote n ++ d.quote :: rest) =
      placesFrom d false (i + (Dialect.doubleQuotes d.quote n).length + 1) rest := by
  induction n generalizing i with
  | nil => simp [Dialect.doubleQuotes, placesFrom]
  | cons c n ih =>
    -- A quote in the name is doubled: the first one leads out of the name, the second one in again.
    by_cases hc : c = d.quote
    · have hnext := ih (i + 1 + 1)
      simp only [Dialect.doubleQuotes, hc, if_true, List.cons_append, placesFrom, Bool.not_true,
        Bool.not_false, List.length_cons]
      rw [hnext]
      congr 1
      omega
    · have hnext := ih (i + 1)
      simp only [Dialect.doubleQuotes, hc, if_false, List.cons_append, placesFrom, Bool.not_true,
        Bool.false_and, Bool.false_eq_true, List.length_cons]
      rw [hnext]
      congr 1
      omega

/-- A name in quotes holds no placeholder, whatever the name is. -/
theorem holds_quoteChars (n : List Char) : Holds d (d.quoteChars n) 0 := by
  refine ⟨[], rfl, by simp, ?_⟩
  intro i rest
  have hname := placesFrom_name (d := d) n rest (i + 1)
  simp only [Dialect.quoteChars, List.cons_append, List.append_assoc, List.nil_append, placesFrom,
    if_true, Bool.not_false, List.map_nil, List.length_cons, List.length_append, List.length_nil]
  rw [hname]
  congr 1
  omega

/-- A placeholder holds one. -/
theorem holds_placeholder : Holds d d.placeholder.toList 1 := by
  refine ⟨[0], rfl, ?_, ?_⟩
  · cases d <;> simp [Dialect.placeholder]
  · intro i rest
    cases d <;> simp [Dialect.placeholder, Dialect.quote, placesFrom]

/-! ## Fragments -/

/-- A piece that is no text of the caller's, and, if it is a word, has none but harmless
characters. -/
def Piece.isTame : Piece → Bool
  | .word t => t.toList.all isHarmless
  | .name _ => true
  | .slot _ => true
  | .raw _ => false

/-- A fragment all of whose pieces are tame. -/
def Fragment.isTame (f : Fragment) : Bool := f.all Piece.isTame

/-- A tame piece holds a placeholder for each parameter. -/
theorem Piece.holds {p : Piece} (h : p.isTame = true) :
    Holds d (p.chars d) (Fragment.params [p]).length := by
  cases p with
  | word t => exact holds_word (List.all_eq_true.mp h)
  | name n => exact holds_quoteChars n.toList
  | slot v => exact holds_placeholder
  | raw t => simp [isTame] at h

/-- A fragment holds as many placeholders as it binds values. -/
theorem Fragment.holds {f : Fragment} (h : f.isTame = true) :
    Holds d (Fragment.chars d f) f.params.length := by
  induction f with
  | nil => exact holds_nil
  | cons p f ih =>
    rw [isTame, List.all_cons, Bool.and_eq_true] at h
    have hall := (Piece.holds (d := d) h.1).append (ih h.2)
    rw [← List.length_append, ← params_append] at hall
    simpa using hall

section Tame

open Fragment

/-- Nothing is tame. -/
@[simp] theorem isTame_nil : isTame [] = true := rfl

/-- A fragment is tame piece by piece. -/
@[simp] theorem isTame_cons (p : Piece) (f : Fragment) :
    isTame (p :: f) = (p.isTame && isTame f) := rfl

/-- Tame fragments one after the other. -/
@[simp] theorem isTame_append (f g : Fragment) : isTame (f ++ g) = (isTame f && isTame g) := by
  simp [isTame]

/-- A name is tame. -/
@[simp] theorem isTame_name (n : String) : (Piece.name n).isTame = true := rfl

/-- A slot is tame. -/
@[simp] theorem isTame_slot (v : Value) : (Piece.slot v).isTame = true := rfl

/-- Parentheses are tame. -/
@[simp] theorem isTame_parenthesized (f : Fragment) : isTame f.parenthesized = isTame f := by
  have hopen : (Piece.word "(").isTame = true := rfl
  have hclose : (Piece.word ")").isTame = true := rfl
  simp [parenthesized, hopen, hclose]

/-- Tame fragments joined by a tame word. -/
theorem isTame_joined {separator : String} (hsep : (Piece.word separator).isTame = true)
    {fs : List Fragment} (h : ∀ f ∈ fs, isTame f = true) : isTame (joined separator fs) = true := by
  induction fs with
  | nil => rfl
  | cons f rest ih =>
    obtain ⟨hf, hrest⟩ := List.forall_mem_cons.mp h
    cases rest with
    | nil => exact hf
    | cons g rest => simp [Grammar.joined_cons_cons, hf, hsep, ih hrest]

/-- Slots are tame. -/
@[simp] theorem isTame_slots (vs : List Value) : isTame (slots vs) = true := by
  refine isTame_joined rfl ?_
  intro f hf
  obtain ⟨v, -, rfl⟩ := List.mem_map.mp hf
  rfl

/-- A column is tame. -/
@[simp] theorem isTame_column (c : ColumnRef) : isTame c.fragment = true := by
  cases c <;> rfl

/-- A number is tame. -/
theorem isTame_number (n : Nat) : (Piece.word (toString n)).isTame = true := by
  refine List.all_eq_true.mpr ?_
  intro c hc
  have hdigit := Grammar.digits_toString n c hc
  simp only [isHarmless, Bool.and_eq_true, bne_iff_ne, ne_eq]
  refine ⟨⟨⟨?_, ?_⟩, ?_⟩, ?_⟩ <;> rintro rfl <;> exact absurd hdigit (by decide)

/-- A JSON test is tame. -/
theorem JsonTest.isTame_fragment (c : ColumnRef) (t : JsonTest) :
    isTame (t.fragment d c.fragment) = true := by
  have hword : ∀ s ∈ ["JSON_CONTAINS(", ", JSON_ARRAY(", "))", "JSON_OVERLAPS(", ")) = ", ", ",
      "(SELECT COUNT(DISTINCT json_each.value) FROM json_each(", ") WHERE json_each.value IN (",
      "EXISTS (SELECT 1 FROM json_each(", "CAST(JSON_UNQUOTE(JSON_EXTRACT(", ")) AS CHAR) LIKE ",
      "CAST(json_extract(", ") AS TEXT) LIKE "], (Piece.word s).isTame = true := by decide
  cases t with
  | contains vs =>
    have hsize := isTame_number vs.length
    cases d <;> simp only [JsonTest.fragment, isTame_cons, isTame_append, isTame_column,
      isTame_slots, isTame_nil, hsize] <;> simp [hword]
  | overlaps vs => cases d <;> simp [JsonTest.fragment, hword]
  | pathLike path pattern => cases d <;> simp [JsonTest.fragment, hword]

/-- An atom is tame. -/
theorem Atom.isTame_fragment (a : Atom) : isTame (a.fragment d) = true := by
  have hword : ∀ s ∈ ["1=0", " IS NULL", " IS NOT NULL", " ", " IN (", ")", " LIKE ", " OR "],
      (Piece.word s).isTame = true := by decide
  cases a with
  | compare c op v =>
    have hsign : (Piece.word op.sign).isTame = true := by cases op <;> decide
    simp [Atom.fragment, hword, hsign]
  | json c t => exact t.isTame_fragment c
  | anyJson c ts =>
    rw [Atom.fragment, isTame_parenthesized]
    refine isTame_joined (hword " OR " (by decide)) ?_
    intro f hf
    obtain ⟨t, -, rfl⟩ := List.mem_map.mp hf
    exact t.isTame_fragment c
  | _ => simp [Atom.fragment, hword]

end Tame

end Quarry.Sql
