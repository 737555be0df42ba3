import Quarry.Json.Printer

/-!
# Texts of characters and texts of glyphs

A text of characters is one of glyphs that has no halves (`textOf?_eq_some_iff`), and a JSON value
with texts of characters is a tree that has no halves in its texts (`plain?_eq_some_iff`). What is
written for such a tree has no halves either, so the text of a value is all that is written for it
(`glyphs_print`).
-/

set_option autoImplicit false

namespace Quarry.Json

/-! ## Glyphs -/

/-- No characters are no glyphs. -/
@[simp] theorem glyphs_nil : glyphs [] = [] := rfl

/-- Characters become glyphs one by one. -/
@[simp] theorem glyphs_cons (c : Char) (cs : List Char) : glyphs (c :: cs) = .char c :: glyphs cs := rfl

/-- Characters one after the other are glyphs one after the other. -/
@[simp] theorem glyphs_append (front back : List Char) :
    glyphs (front ++ back) = glyphs front ++ glyphs back := List.map_append

/-- The characters are found again among their glyphs. -/
@[simp] theorem filterMap_glyphs (cs : List Char) : (glyphs cs).filterMap Glyph.char? = cs := by
  induction cs with
  | nil => rfl
  | cons c cs ih => rw [glyphs_cons, List.filterMap_cons, Glyph.char?, ih]

/-- Different characters are different glyphs. -/
theorem glyphs_injective {cs ds : List Char} (h : glyphs cs = glyphs ds) : cs = ds := by
  rw [← filterMap_glyphs cs, h, filterMap_glyphs]

/-- The text of the glyphs of a text is that text. -/
@[simp] theorem textOf_glyphs (s : String) : textOf (glyphs s.toList) = s := by
  rw [textOf, filterMap_glyphs, String.ofList_toList]

/-- Glyphs are all characters exactly if they are the glyphs of some. -/
theorem mapM_char?_eq_some_iff {gs : List Glyph} {cs : List Char} :
    gs.mapM Glyph.char? = some cs ↔ gs = glyphs cs := by
  induction gs generalizing cs with
  | nil => cases cs <;> simp [glyphs]
  | cons g gs ih =>
    cases g with
    | char c =>
      cases cs with
      | nil => simp [Glyph.char?, Option.bind_eq_some_iff]
      | cons d cs =>
        simp only [List.mapM_cons, Glyph.char?, Option.bind_eq_bind, Option.bind_some,
          Option.bind_eq_some_iff, ih, Option.pure_def, Option.some.injEq, List.cons.injEq,
          glyphs_cons, Glyph.char.injEq]
        constructor
        · rintro ⟨_, rfl, rfl, rfl⟩
          exact ⟨rfl, rfl⟩
        · rintro ⟨rfl, rfl⟩
          exact ⟨_, rfl, rfl, rfl⟩
    | half n =>
      cases cs with
      | nil => simp [Glyph.char?]
      | cons d cs => simp [Glyph.char?]

/-- Glyphs make a text exactly if they are those of the text. -/
theorem textOf?_eq_some_iff {gs : List Glyph} {s : String} : textOf? gs = some s ↔ gs = glyphs s.toList := by
  rw [textOf?, Option.map_eq_some_iff]
  constructor
  · rintro ⟨cs, hcs, rfl⟩
    rw [mapM_char?_eq_some_iff.mp hcs, String.toList_ofList]
  · intro h
    exact ⟨s.toList, mapM_char?_eq_some_iff.mpr h, String.ofList_toList⟩

/-- Glyphs of a text are not torn. -/
@[simp] theorem textOf?_glyphs (s : String) : textOf? (glyphs s.toList) = some s :=
  textOf?_eq_some_iff.mpr rfl

/-! ## Trees -/

/-- Items are changed one by one. -/
theorem mapItems_eq_map {τ σ : Type} (f : τ → σ) (items : List (Json τ)) :
    mapItems f items = items.map (map f) := by
  induction items with
  | nil => rfl
  | cons v vs ih => rw [mapItems, ih, List.map_cons]

/-- Fields are changed one by one. -/
theorem mapFields_eq_map {τ σ : Type} (f : τ → σ) (fields : List (τ × Json τ)) :
    mapFields f fields = fields.map fun field => (f field.1, map f field.2) := by
  induction fields with
  | nil => rfl
  | cons field fields ih => rw [mapFields, ih, List.map_cons]

/-- A container stays one when its texts are changed. -/
@[simp] theorem isContainer_map {τ σ : Type} (f : τ → σ) (j : Json τ) :
    (map f j).isContainer = j.isContainer := by
  cases j <;> rfl

/-- A document and its tree are both containers or both not. -/
@[simp] theorem isContainer_tree (j : Json String) : j.tree.isContainer = j.isContainer := isContainer_map _ j

/-- The tree of null. -/
@[simp] theorem tree_null : (Json.null : Json String).tree = .null := rfl

/-- The tree of a truth value. -/
@[simp] theorem tree_bool (b : Bool) : (Json.bool b : Json String).tree = .bool b := rfl

/-- The tree of an integer. -/
@[simp] theorem tree_int (n : Int) : (Json.int n : Json String).tree = .int n := rfl

/-- The tree of a number. -/
@[simp] theorem tree_real (x : Number.Binary64) : (Json.real x : Json String).tree = .real x := rfl

/-- The tree of a text has its glyphs. -/
@[simp] theorem tree_text (s : String) : (Json.text s).tree = .text (glyphs s.toList) := rfl

/-- The tree of an array has those of its items. -/
@[simp] theorem tree_array (items : List (Json String)) :
    (Json.array items).tree = .array (items.map tree) := by
  rw [tree, map, mapItems_eq_map]
  rfl

/-- The tree of an object has those of its fields. -/
@[simp] theorem tree_object (fields : List (String × Json String)) : (Json.object fields).tree =
    .object (fields.map fun f => (glyphs f.1.toList, f.2.tree)) := by
  rw [tree, map, mapFields_eq_map]
  rfl

mutual

/-- A tree without halves is that of a value, and of no other. -/
theorem map?_textOf?_iff : ∀ (t : Tree) (j : Json String), map? textOf? t = some j ↔ t = j.tree
  | .null, j => by cases j <;> simp [map?]
  | .bool _, j => by cases j <;> simp [map?]
  | .int _, j => by cases j <;> simp [map?]
  | .real _, j => by cases j <;> simp [map?]
  | .text gs, j => by cases j <;> simp [map?, textOf?_eq_some_iff]
  | .array items, j => by
    have hitems := mapItems?_textOf?_iff items
    cases j <;> simp [map?, hitems]
  | .object fields, j => by
    have hfields := mapFields?_textOf?_iff fields
    cases j <;> simp [map?, hfields]

/-- The items of a tree are plain exactly if they are the trees of some documents. -/
theorem mapItems?_textOf?_iff : ∀ (ts : List Tree) (js : List (Json String)),
    mapItems? textOf? ts = some js ↔ ts = js.map tree
  | [], js => by cases js <;> simp [mapItems?]
  | t :: ts, js => by
    have ht := map?_textOf?_iff t
    have hts := mapItems?_textOf?_iff ts
    cases js <;> simp [mapItems?, ht, hts, Option.bind_eq_some_iff]

/-- The fields of a tree are plain exactly if they are the trees of some documents. -/
theorem mapFields?_textOf?_iff : ∀ (ts : List (List Glyph × Tree)) (js : List (String × Json String)),
    mapFields? textOf? ts = some js ↔ ts = js.map fun f => (glyphs f.1.toList, f.2.tree)
  | [], js => by cases js <;> simp [mapFields?]
  | (k, t) :: ts, js => by
    have ht := map?_textOf?_iff t
    have hts := mapFields?_textOf?_iff ts
    rcases js with - | ⟨⟨l, j⟩, js⟩
    · simp [mapFields?, Option.bind_eq_some_iff]
    · simp only [mapFields?, Option.bind_eq_bind, Option.bind_eq_some_iff, textOf?_eq_some_iff, ht, hts,
        Option.pure_def, Option.some.injEq, List.cons.injEq, Prod.mk.injEq, List.map_cons]
      constructor
      · rintro ⟨_, rfl, _, rfl, _, rfl, ⟨rfl, rfl⟩, rfl⟩
        exact ⟨⟨rfl, rfl⟩, rfl⟩
      · rintro ⟨⟨rfl, rfl⟩, rfl⟩
        exact ⟨_, rfl, _, rfl, _, rfl, ⟨rfl, rfl⟩, rfl⟩

end

/-- A tree is plain exactly if it is that of a document. -/
theorem plain?_eq_some_iff {t : Tree} {j : Json String} : t.plain? = some j ↔ t = j.tree :=
  map?_textOf?_iff t j

/-- The tree of a document is plain. -/
@[simp] theorem plain?_tree (j : Json String) : j.tree.plain? = some j := plain?_eq_some_iff.mpr rfl

/-- Different documents have different trees. -/
theorem tree_injective {j k : Json String} (h : j.tree = k.tree) : j = k :=
  Option.some.inj ((plain?_tree j).symm.trans ((congrArg plain? h).trans (plain?_tree k)))

/-! ## What is written -/

/-- Characters are escaped one by one. -/
theorem escaped_glyphs (cs : List Char) : (glyphs cs).flatMap Glyph.escaped = glyphs (cs.flatMap escape) := by
  induction cs with
  | nil => rfl
  | cons c cs ih => rw [glyphs_cons, List.flatMap_cons, ih, List.flatMap_cons, glyphs_append, Glyph.escaped]

/-- A text of characters is quoted with characters. -/
theorem quote_glyphs (cs : List Char) : quote (glyphs cs) = glyphs ('"' :: (cs.flatMap escape ++ ['"'])) := by
  rw [quote, escaped_glyphs]
  simp

mutual

/-- Nothing but characters is written for a value. -/
theorem exists_write_tree : ∀ j : Json String, ∃ cs, write j.tree = glyphs cs
  | .null => ⟨_, rfl⟩
  | .bool true => ⟨_, rfl⟩
  | .bool false => ⟨_, rfl⟩
  | .int _ => ⟨_, rfl⟩
  | .real _ => ⟨_, rfl⟩
  | .text s => ⟨_, quote_glyphs s.toList⟩
  | .array [] => ⟨['[', ']'], by simp [write]⟩
  | .array (v :: vs) => by
    obtain ⟨cs, hcs⟩ := exists_write_tree v
    obtain ⟨ds, hds⟩ := exists_writeItems_tree vs
    exact ⟨'[' :: (cs ++ ds), by simp [write, hcs, hds]⟩
  | .object [] => ⟨['\x7b', '\x7d'], by simp [write]⟩
  | .object ((k, v) :: rest) => by
    obtain ⟨cs, hcs⟩ := exists_write_tree v
    obtain ⟨ds, hds⟩ := exists_writeFields_tree rest
    have hk := quote_glyphs k.toList
    generalize '"' :: (k.toList.flatMap escape ++ ['"']) = quoted at hk
    exact ⟨'\x7b' :: (quoted ++ ':' :: ' ' :: (cs ++ ds)), by simp [write, hk, hcs, hds]⟩

/-- The trees of documents are written in characters, item by item. -/
theorem exists_writeItems_tree : ∀ js : List (Json String), ∃ cs, writeItems (js.map tree) = glyphs cs
  | [] => ⟨[']'], by simp [writeItems]⟩
  | v :: vs => by
    obtain ⟨cs, hcs⟩ := exists_write_tree v
    obtain ⟨ds, hds⟩ := exists_writeItems_tree vs
    exact ⟨',' :: ' ' :: (cs ++ ds), by simp [writeItems, hcs, hds]⟩

/-- The trees of documents are written in characters, field by field. -/
theorem exists_writeFields_tree : ∀ js : List (String × Json String),
    ∃ cs, writeFields (js.map fun f => (glyphs f.1.toList, f.2.tree)) = glyphs cs
  | [] => ⟨['\x7d'], by simp [writeFields]⟩
  | (k, v) :: rest => by
    obtain ⟨cs, hcs⟩ := exists_write_tree v
    obtain ⟨ds, hds⟩ := exists_writeFields_tree rest
    have hk := quote_glyphs k.toList
    generalize '"' :: (k.toList.flatMap escape ++ ['"']) = quoted at hk
    exact ⟨',' :: ' ' :: (quoted ++ ':' :: ' ' :: (cs ++ ds)), by simp [writeFields, hk, hcs, hds]⟩

end

/-- The text of a value is all that is written for its tree. -/
theorem glyphs_print (j : Json String) : glyphs j.print.toList = write j.tree := by
  obtain ⟨cs, hcs⟩ := exists_write_tree j
  rw [print, textOf, hcs, filterMap_glyphs, String.toList_ofList]

end Quarry.Json
