import Quarry.Proofs.Json.Recognized
import Quarry.Proofs.Text.Trim
import Quarry.Proofs.Value.Steady
import Quarry.Proofs.Value.Stored

/-!
# Texts recognized as containers

A text that may be anything is read as a container where it is JSON text of one, or JSON text of a
text that is; each time without the blanks around it. All other texts stay as they are. This holds
of every text but those that begin like JSON text with more containers inside of each other than are
read: they are an error, whether or not they turn out to be JSON text in the end
(`readJson_recognizes_iff`).
-/

set_option autoImplicit false

namespace Quarry

open Json (Glyph Tree DocumentText QuotedDocument DeepDocument ValueText DeepText glyphs quote write)

namespace Content

variable {room : Nat} {gs t : List Glyph} {j : Tree}

/-! ## What a text denotes -/

/-- What is left of glyphs without the blanks around them. -/
def trimmed (gs : List Glyph) : List Glyph := Text.trimBy (Glyph.any Text.isBlank) gs

/-- Whether glyphs are JSON text of a container, with room for a number of containers inside of each
other. -/
def IsContainerText (room : Nat) (gs : List Glyph) (j : Tree) : Prop :=
  j.isContainer = true ∧ DocumentText room gs j

/-- Whether a text, without the blanks around it, is JSON text of a container or JSON text of a text
that, without the blanks around it, is JSON text of the container. -/
def Denotes (room : Nat) (gs : List Glyph) (j : Tree) : Prop :=
  IsContainerText room (trimmed gs) j ∨
    ∃ t, QuotedDocument (trimmed gs) t ∧ IsContainerText room (trimmed t) j

/-- Whether a text, or the text that it is JSON text of, begins like JSON text in which containers
stand deeper than they are read. -/
def BeginsDeep [Limits] (gs : List Glyph) : Prop :=
  DeepDocument (trimmed gs) ∨ ∃ t, QuotedDocument (trimmed gs) t ∧ DeepDocument (trimmed t)

/-- Whether a text is read as the container that it denotes, and as itself if it denotes none. -/
structure Recognizes [Limits] (gs : List Glyph) : Prop where
  container : ∀ room j, Denotes room gs j → readJson gs = .ok (.ofTree j)
  text : (∀ room j, ¬Denotes room gs j) → readJson gs = .ok (.ofGlyphs gs)

/-- Whether glyphs are blanks. -/
def AreBlank (gs : List Glyph) : Prop := ∀ g ∈ gs, g.any Text.isBlank = true

/-- Whether a text is the JSON text that is written for a container, or the JSON text that is
written for such a text, each time with blanks around it. -/
inductive Writes (j : Tree) : List Glyph → Prop
  | plain {front back : List Glyph} (hfront : AreBlank front) (hback : AreBlank back) :
      Writes j (front ++ j.write ++ back)
  | quoted {front back front' back' : List Glyph} (hfront : AreBlank front) (hback : AreBlank back)
      (hfront' : AreBlank front') (hback' : AreBlank back') :
      Writes j (front ++ quote (front' ++ j.write ++ back') ++ back)

/-! ## The start of a container -/

/-- JSON space is blank. -/
theorem isBlank_of_isSpace {c : Char} (h : Json.isSpace c = true) : Text.isBlank c = true := by
  simp only [Json.isSpace, Bool.or_eq_true, beq_iff_eq] at h
  obtain ((rfl | rfl) | rfl) | rfl := h <;> decide

/-- Without the blanks in front there is no space. -/
theorem skipSpace_trimmed (gs : List Glyph) : Json.skipSpace (trimmed gs) = trimmed gs := by
  cases hstart : trimmed gs with
  | nil => rfl
  | cons g rest =>
    have hhead : (trimmed gs).head? = some g := by rw [hstart, List.head?_cons]
    have hblank : g.any Text.isBlank = false := Text.drops_head?_trimBy hhead
    have hspace : ¬(g.any Json.isSpace) = true := by
      intro hspace
      cases g with
      | half n => exact absurd hspace Bool.false_ne_true
      | char c => exact absurd (isBlank_of_isSpace hspace) (Bool.eq_false_iff.mp hblank)
    exact List.dropWhile_cons_of_neg hspace

/-- A scalar is no container. -/
theorem isContainer_of_scalarText (h : Json.ScalarText gs j) : j.isContainer = false := by
  cases h with
  | name h =>
    simp only [Json.named, List.mem_cons, Prod.mk.injEq, List.not_mem_nil, or_false] at h
    obtain ⟨rfl, rfl⟩ | ⟨rfl, rfl⟩ | ⟨rfl, rfl⟩ | ⟨rfl, rfl⟩ | ⟨rfl, rfl⟩ | ⟨rfl, rfl⟩ := h <;> rfl
  | positive h => cases h <;> rfl
  | negative h => cases h <;> rfl

/-- JSON text of a container starts with a bracket. -/
theorem exists_opening (hcontainer : j.isContainer = true) (h : ValueText room gs j) :
    ∃ object tail, gs = Json.opening object :: tail := by
  cases h with
  | empty object => exact ⟨object, _, rfl⟩
  | container => exact ⟨_, _, rfl⟩
  | scalar h => exact absurd hcontainer (by rw [isContainer_of_scalarText h]; decide)
  | text h => exact nomatch hcontainer

/-- The text of a container opens with a bracket. -/
theorem exists_opening_of_documentText (hstart : Json.skipSpace gs = gs) (hcontainer : j.isContainer = true)
    (h : DocumentText room gs j) : ∃ object tail, gs = Json.opening object :: tail := by
  obtain ⟨front, text, back, rfl, hfront, htext, -⟩ := h
  rw [hfront.skipSpace_append, (htext.begins back).skipSpace_eq] at hstart
  obtain ⟨object, tail, rfl⟩ := exists_opening hcontainer htext
  exact ⟨object, _, hstart.symm⟩

/-- What is too deep opens with a bracket. -/
theorem exists_opening_of_deepText (h : DeepText room gs) :
    ∃ object tail, gs = Json.opening object :: tail := by
  cases h with
  | here object => exact ⟨object, _, rfl⟩
  | inside => exact ⟨_, _, rfl⟩

section Texts

variable [Limits]

/-- A document that is too deep opens with a bracket. -/
theorem exists_opening_of_deepDocument (hstart : Json.skipSpace gs = gs) (h : DeepDocument gs) :
    ∃ object tail, gs = Json.opening object :: tail := by
  obtain ⟨front, text, rfl, hfront, hdeep⟩ := h
  rw [hfront.skipSpace_append, hdeep.begins.skipSpace_eq] at hstart
  obtain ⟨object, tail, rfl⟩ := exists_opening_of_deepText hdeep
  exact ⟨object, _, hstart.symm⟩

/-! ## Containers -/

/-- What opens with a bracket is read as JSON. -/
theorem containerOf_opening (object : Bool) (tail : List Glyph) :
    containerOf (Json.opening object :: tail) = Json.read (Json.opening object :: tail) := by
  cases object <;> rfl

/-- A container is found exactly in the text of one. -/
theorem containerOf_eq_ok_iff (hstart : Json.skipSpace gs = gs) :
    containerOf gs = .ok j ↔ IsContainerText Limits.depth gs j := by
  constructor
  · intro h
    obtain ⟨hcontainer, hread⟩ := containerOf_spec h
    exact ⟨hcontainer, Json.read_eq_ok_iff.mp hread⟩
  · rintro ⟨hcontainer, hdocument⟩
    obtain ⟨object, tail, rfl⟩ := exists_opening_of_documentText hstart hcontainer hdocument
    rw [containerOf_opening]
    exact Json.read_eq_ok_iff.mpr hdocument

/-- Depth is noticed exactly in a document that is too deep. -/
theorem containerOf_tooDeep_iff (hstart : Json.skipSpace gs = gs) :
    (∃ object, containerOf gs = .error (.tooDeep object)) ↔ DeepDocument gs := by
  constructor
  · rintro ⟨object, h⟩
    refine Json.read_tooDeep_iff.mp ⟨object, ?_⟩
    unfold containerOf at h
    split at h
    · exact h
    · exact h
    · exact nomatch h
  · intro h
    obtain ⟨object, tail, rfl⟩ := exists_opening_of_deepDocument hstart h
    rw [containerOf_opening]
    exact Json.read_tooDeep_iff.mpr h

/-- Unless it was malformed, a container was read as it stands or in quotes. -/
theorem containerIn_eq_iff (hstart : Json.skipSpace gs = gs) {outcome : Except Json.Unread Tree}
    (houtcome : outcome ≠ .error .malformed) : containerIn gs = outcome ↔
      containerOf gs = outcome ∨ ∃ t, QuotedDocument gs t ∧ containerOf (trimmed t) = outcome := by
  have hquoted (t : List Glyph) := Json.readQuoted?_eq_some_iff (t := t) hstart
  unfold containerIn
  cases hread : Json.readQuoted? gs with
  | none =>
    simp only [hread, reduceCtorEq, false_iff] at hquoted
    simp [hquoted]
  | some u =>
    have hplain : containerOf gs ≠ outcome := by
      unfold Json.readQuoted? at hread
      split at hread
      · exact houtcome.symm
      · exact nomatch hread
    have hsame (t : List Glyph) : QuotedDocument gs t ↔ u = t := by
      rw [← hquoted t, hread, Option.some.injEq]
    simp [hplain, hsame, trimmed]

/-- A container is found inside of blank space exactly if the glyphs denote it. -/
theorem containerIn_eq_ok_iff : containerIn (trimmed gs) = .ok j ↔ Denotes Limits.depth gs j := by
  have hof (gs : List Glyph) := containerOf_eq_ok_iff (j := j) (skipSpace_trimmed gs)
  rw [containerIn_eq_iff (skipSpace_trimmed _) (by simp)]
  simp only [hof, Denotes]

/-- Depth is noticed inside of blank space exactly if the glyphs begin too deep. -/
theorem containerIn_tooDeep_iff :
    (∃ object, containerIn (trimmed gs) = .error (.tooDeep object)) ↔ BeginsDeep gs := by
  have hfails (object : Bool) :
      (Except.error (.tooDeep object) : Except Json.Unread Tree) ≠ .error .malformed := by simp
  have hin (object : Bool) := containerIn_eq_iff (skipSpace_trimmed gs) (hfails object)
  have hof (gs : List Glyph) := containerOf_tooDeep_iff (skipSpace_trimmed gs)
  simp only [hin, BeginsDeep, ← hof, exists_or]
  refine or_congr Iff.rfl ⟨?_, ?_⟩
  · rintro ⟨object, t, ht, h⟩
    exact ⟨t, ht, object, h⟩
  · rintro ⟨t, ht, object, h⟩
    exact ⟨object, t, ht, h⟩

/-- What a text denotes is read unless containers stand too deep in it. -/
theorem Denotes.fits_or_deep (h : Denotes room gs j) : Denotes Limits.depth gs j ∨ BeginsDeep gs := by
  obtain ⟨hcontainer, hdocument⟩ | ⟨t, ht, hcontainer, hdocument⟩ := h
  · exact hdocument.fits_or_deep.imp (fun h => .inl ⟨hcontainer, h⟩) .inl
  · exact hdocument.fits_or_deep.imp (fun h => .inr ⟨t, ht, hcontainer, h⟩) (fun h => .inr ⟨t, ht, h⟩)

/-- Reading looks for a container inside of blank space. -/
theorem readJson_eq (gs : List Glyph) :
    readJson gs = (ofRead (containerIn (trimmed gs))).map fun read => read.getD (.ofGlyphs gs) := by
  rw [readJson, ← trimmed]
  cases ofRead (containerIn (trimmed gs)) <;> rfl

/-- What denotes a document is read as it. -/
theorem readJson_of_denotes (h : Denotes Limits.depth gs j) : readJson gs = .ok (.ofTree j) := by
  rw [readJson_eq, containerIn_eq_ok_iff.mpr h]
  rfl

/-- What begins too deep cannot be read. -/
theorem readJson_of_beginsDeep (h : BeginsDeep gs) : ∃ object, readJson gs = misfit (.depth object) := by
  obtain ⟨object, hread⟩ := containerIn_tooDeep_iff.mpr h
  rw [readJson_eq, hread]
  exact ⟨object, rfl⟩

/-- Every text is read as the container that it denotes, and as itself if it denotes none, exactly
if it does not begin with containers that stand too deep. -/
theorem recognizes_iff (gs : List Glyph) : Recognizes gs ↔ ¬BeginsDeep gs := by
  constructor
  · intro h hdeep
    obtain ⟨e, herror⟩ := readJson_of_beginsDeep hdeep
    by_cases hdenotes : ∃ room j, Denotes room gs j
    · obtain ⟨room, j, hdenotes⟩ := hdenotes
      exact nomatch herror.symm.trans (h.container room j hdenotes)
    · have hnone (room : Nat) (j : Tree) : ¬Denotes room gs j := fun h => hdenotes ⟨room, j, h⟩
      exact nomatch herror.symm.trans (h.text hnone)
  · intro hdeep
    refine ⟨fun room j h => readJson_of_denotes (h.fits_or_deep.resolve_right hdeep), fun hnone => ?_⟩
    rw [readJson_eq]
    cases hread : containerIn (trimmed gs) with
    | ok j => exact absurd (containerIn_eq_ok_iff.mp hread) (hnone Limits.depth j)
    | error e =>
      cases e with
      | malformed => rfl
      | tooDeep object => exact absurd (containerIn_tooDeep_iff.mp ⟨object, hread⟩) hdeep

end Texts

/-! ## Written containers -/

/-- What is written for a plain container is the text of it. -/
theorem isContainerText_write (hcontainer : j.isContainer = true) (h : Json.Plain room j) :
    IsContainerText room (write j) j :=
  ⟨hcontainer, [], _, [], (List.append_nil _).symm, nofun, h.valueText, nofun⟩

/-- Blanks around the text of a container do not matter. -/
theorem trimmed_padded {front back : List Glyph} (hcontainer : j.isContainer = true)
    (hfront : AreBlank front) (hback : AreBlank back) : trimmed (front ++ j.write ++ back) = j.write :=
  (Text.trimBy_surrounded hfront hback).trans (Json.bracketed_write hcontainer).trimBy_eq

/-- There is nothing to trim from a text in quotes. -/
theorem trimmed_quote (t : List Glyph) : trimmed (quote t) = quote t :=
  have hblank : (Glyph.char '"').any Text.isBlank = false := by decide
  Text.trimBy_eq_self hblank hblank rfl (List.cons_append ..).symm

/-- The text that is written for a container, and the one that is written for this text, denote
it. -/
theorem Writes.denotes (hwritten : Writes j gs) (hcontainer : j.isContainer = true) (h : Json.Plain room j) :
    Denotes room gs j := by
  cases hwritten with
  | plain hfront hback =>
    left
    rw [trimmed_padded hcontainer hfront hback]
    exact isContainerText_write hcontainer h
  | @quoted front back front' back' hfront hback hfront' hback' =>
    have htrimmed : trimmed (front ++ quote (front' ++ j.write ++ back') ++ back) =
        quote (front' ++ j.write ++ back') := (Text.trimBy_surrounded hfront hback).trans (trimmed_quote _)
    have hquoted := Json.quotedText_quote (front' ++ j.write ++ back')
    right
    refine ⟨front' ++ j.write ++ back', ⟨[], _, [], ?_, nofun, hquoted, nofun⟩, ?_⟩
    · rw [htrimmed, List.nil_append, List.append_nil]
    · rw [trimmed_padded hcontainer hfront' hback']
      exact isContainerText_write hcontainer h

section Written

variable [Limits]

/-- The text of a plain container is read as the container exactly if the container is not too
deep. -/
theorem Writes.readJson_eq_ok_iff (hwritten : Writes j gs) (hcontainer : j.isContainer = true)
    (h : Json.Plain room j) : readJson gs = .ok (.ofTree j) ↔ Json.Plain Limits.depth j := by
  have hplain {gs : List Glyph} (htext : IsContainerText Limits.depth gs j) : Json.Plain Limits.depth j :=
    Json.plain_read (Json.read_eq_ok_iff.mpr htext.2) h.holdsReal
  constructor
  · intro hread
    obtain hfits | hdeep := (hwritten.denotes hcontainer h).fits_or_deep
    · obtain htext | ⟨_, _, htext⟩ := hfits
      · exact hplain htext
      · exact hplain htext
    · obtain ⟨e, herror⟩ := readJson_of_beginsDeep hdeep
      exact nomatch herror.symm.trans hread
  · exact fun hfits => readJson_of_denotes (hwritten.denotes hcontainer hfits)

/-! ## All texts -/

/-- A text is read as the container that it denotes, and as itself if it denotes none, exactly if it
does not begin with containers that stand too deep. If it is the text of a plain container, or JSON
text of this text, with blanks around them, it is read as the container exactly if the container is
not too deep. -/
theorem readJson_recognizes_iff (gs : List Glyph) : (Recognizes gs ↔ ¬BeginsDeep gs) ∧
    ∀ room j, j.isContainer = true → Json.Plain room j → Writes j gs →
      (readJson gs = .ok (.ofTree j) ↔ Json.Plain Limits.depth j) :=
  ⟨recognizes_iff gs, fun _ _ hcontainer h hwritten => hwritten.readJson_eq_ok_iff hcontainer h⟩

end Written

/-- A list with a text of half a pair in it, with a space in front, written as JSON text twice. -/
theorem readJson_recognizes_twice :
    let j : Tree := .array [.bool true, .text [.half 0]]
    let gs := quote (.char ' ' :: j.write) ++ [.char '\n']
    j.isContainer = true ∧ Json.Plain 1 j ∧ Writes j gs ∧ readJson gs = .ok (.torn j) := by
  intro j gs
  have hplain (room : Nat) : Json.Plain (room + 1) j :=
    .array (List.forall_mem_cons.mpr ⟨.bool true, List.forall_mem_singleton.mpr (.text _)⟩)
  have hwritten : Writes j gs := by
    have hquoted : Writes j ([] ++ quote ([.char ' '] ++ j.write ++ []) ++ [.char '\n']) :=
      .quoted nofun (List.forall_mem_singleton.mpr rfl) (List.forall_mem_singleton.mpr rfl) nofun
    simpa using hquoted
  have hread := ((readJson_recognizes_iff gs).2 1 j rfl (hplain 0) hwritten).mpr (hplain _)
  exact ⟨rfl, hplain 0, hwritten, hread⟩

/-! ## Containers that stand too deep -/

/-- Brackets that open one array after the other begin like arrays inside of each other. -/
theorem deepText_replicate (n : Nat) : DeepText n (List.replicate (n + 1) (Json.opening false)) := by
  induction n with
  | zero => exact .here false
  | succ n ih =>
    have hmembers : Json.DeepMembers false n ([] ++ List.replicate (n + 1) (Json.opening false)) :=
      .first (.item nofun) ih
    exact .inside hmembers

/-- JSON text of a container has the bracket that closes it. -/
theorem exists_closing_mem (h : IsContainerText room gs j) : ∃ object, Json.closing object ∈ gs := by
  obtain ⟨hcontainer, front, text, back, rfl, -, htext, -⟩ := h
  cases htext with
  | empty object => exact ⟨object, by simp⟩
  | @container _ object => exact ⟨object, by simp⟩
  | scalar h => exact absurd hcontainer (by rw [isContainer_of_scalarText h]; decide)
  | text h => exact nomatch hcontainer

/-- There is nothing to trim from opening brackets. -/
theorem trimmed_replicate (n : Nat) : trimmed (List.replicate (n + 1) (Json.opening false)) =
    List.replicate (n + 1) (Json.opening false) :=
  have hblank : (Json.opening false).any Text.isBlank = false := by decide
  Text.trimBy_eq_self hblank hblank List.replicate_succ List.replicate_succ'

/-- Brackets that only open arrays denote nothing. -/
theorem not_denotes_replicate (n room : Nat) (j : Tree) :
    ¬Denotes room (List.replicate (n + 1) (Json.opening false)) j := by
  have hmem {g : Glyph} (h : g ∈ List.replicate (n + 1) (Json.opening false)) : g = Json.opening false :=
    List.eq_of_mem_replicate h
  rw [Denotes, trimmed_replicate]
  rintro (htext | ⟨t, ⟨front, text, back, heq, -, ⟨-⟩, -⟩, -⟩)
  · obtain ⟨object, hclosing⟩ := exists_closing_mem htext
    cases object
    · exact absurd (hmem hclosing) (by decide)
    · exact absurd (hmem hclosing) (by decide)
  · have hquote : Glyph.char '"' ∈ List.replicate (n + 1) (Json.opening false) := by simp [heq]
    exact absurd (hmem hquote) (by decide)

/-- One array more than are read inside of each other, and as many brackets that only open arrays:
the first is not read as the list that it denotes, and the second is not left as it is. -/
theorem readJson_deep_unread :
    let j : Tree := Json.nested Limits.depth
    let gs := List.replicate (Limits.depth + 1) (Json.opening false)
    (j.isContainer = true ∧ Json.Plain (Limits.depth + 1) j ∧
        ∃ object, readJson j.write = misfit (.depth object)) ∧
      (∀ room k, ¬Denotes room gs k) ∧ ∃ object, readJson gs = misfit (.depth object) := by
  intro j gs
  have hcontainer : j.isContainer = true := rfl
  have hread : ∃ object, readJson j.write = misfit (.depth object) := by
    obtain ⟨object, hdeep⟩ := Json.read_nested (Nat.le_refl Limits.depth)
    rw [readJson_of_bracketed (Json.bracketed_write hcontainer), hdeep]
    exact ⟨object, rfl⟩
  have hdeep : BeginsDeep gs := by
    left
    rw [trimmed_replicate]
    exact ⟨[], _, rfl, List.forall_mem_nil _, deepText_replicate Limits.depth⟩
  exact ⟨⟨hcontainer, Json.plain_nested Limits.depth, hread⟩, not_denotes_replicate Limits.depth,
    readJson_of_beginsDeep hdeep⟩

end Content

end Quarry
