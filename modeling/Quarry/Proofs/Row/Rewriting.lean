import Quarry.Proofs.Value.Steady

/-!
# Reading a column and writing it back

A program that reads a value, leaves it as it is and writes it back should find the same value when
it reads again. Containers, integers and truth values take the form of JSON text and are read back
from it. A text is written as it stands, as it counts as JSON text already; where a column of JSON
holds the JSON text of a text, this drops the quotes, and the next reading is one of what was inside
of them.
-/

set_option autoImplicit false

namespace Quarry

open Json (Glyph Tree)

namespace Content

/-- Whether a binary64 number is in a content. -/
def holdsReal : Content → Bool
  | .value v => v.holdsReal
  | .torn t => t.holdsReal

/-- A content holds a number exactly if its tree does. -/
theorem holdsReal_ofTree (t : Tree) : (ofTree t).holdsReal = t.holdsReal := by
  obtain ⟨j, rfl⟩ | htorn := ofTree_cases t
  · rw [ofTree_tree, holdsReal, Json.holdsReal_toValue, Json.tree, Json.holdsReal_map]
  · rw [htorn, holdsReal]

/-- What columns hold where they hold JSON or have no kind: NULL, integers and texts. -/
inductive IsStored : Content → Prop
  | null : IsStored (.value .null)
  | int (n : Int) : IsStored (.value (.int n))
  | text (gs : List Glyph) : IsStored (.ofGlyphs gs)

/-- What a column of JSON holds and what it is read as, where this is not kept when it is written: a
text out of quotes that is not read as itself once more, or an integer too long to be written. -/
inductive Drifts [Limits] (stored x : Content) : Prop
  | text {gs t : List Glyph} (hstored : stored = .ofGlyphs gs) (hx : x = .ofGlyphs t)
    (hread : Json.read gs = .ok (.text t)) (hagain : readJsonText t ≠ .ok (.ofGlyphs t))
  | int {n : Int} (hstored : stored = .value (.int n)) (hx : x = .value (.int n))
    (hlong : Number.maxDigits < Number.digitCount n.natAbs)

end Content

namespace Codec

open Content (Drifts IsStored)

/-- A codec for one column of JSON. -/
def payloadCodec : Codec := ⟨["payload"], [], [("payload", .json)], true, true⟩

section

variable [Limits] {c : Codec} {column : String} {gs : List Glyph} {t : Tree} {x : Content} {v : Value}

/-- Whether writing a content and reading it again gives the content. -/
def Keeps (c : Codec) (column : String) (x : Content) : Prop :=
  ∃ w, c.write column x = .ok w ∧ c.read column w = .ok x

/-- A value is kept if its stored form is decoded to it. -/
theorem keeps_value_iff :
    c.Keeps column (.value v) ↔ ∃ w, c.encode column v = .ok w ∧ c.decode column w = .ok v := by
  simp only [Keeps, write, map_eq_ok, decode_eq_ok]
  constructor
  · rintro ⟨_, ⟨w, hw, rfl⟩, hread⟩
    exact ⟨w, hw, hread⟩
  · rintro ⟨w, hw, hread⟩
    exact ⟨_, ⟨w, hw, rfl⟩, hread⟩

/-! ## Texts -/

/-- A text in a JSON column is read as JSON text. -/
theorem read_text_json (hkind : c.kindOf? column = some .json) (gs : List Glyph) :
    c.read column (.ofGlyphs gs) = Content.readJsonText gs := by
  obtain ⟨s, rfl⟩ | htorn := Content.ofGlyphs_cases gs
  · rw [Content.ofGlyphs_glyphs, read, hkind]
    rfl
  · rw [htorn, read, hkind]
    rfl

/-- A text in an undeclared column is read for a container. -/
theorem read_text_plain (hkind : c.kindOf? column = none) (hparse : c.parseJson = true) (gs : List Glyph) :
    c.read column (.ofGlyphs gs) = Content.readJson gs := by
  obtain ⟨s, rfl⟩ | htorn := Content.ofGlyphs_cases gs
  · rw [Content.ofGlyphs_glyphs, read, hkind, hparse]
    rfl
  · rw [htorn, read, hkind, hparse]
    rfl

/-- A text is written as it stands. -/
theorem write_text (hkind : c.kindOf? column = some .json ∨ c.kindOf? column = none) (gs : List Glyph) :
    c.write column (.ofGlyphs gs) = .ok (.ofGlyphs gs) := by
  obtain ⟨s, rfl⟩ | htorn := Content.ofGlyphs_cases gs
  · rw [Content.ofGlyphs_glyphs, write, encode]
    obtain hkind | hkind := hkind <;> rw [hkind] <;> rfl
  · rw [htorn, write]
    obtain hkind | hkind := hkind <;> rw [hkind] <;> rfl

/-- In a column of JSON a text is kept if it is read as itself. -/
theorem keeps_text_iff (hkind : c.kindOf? column = some .json) (gs : List Glyph) :
    c.Keeps column (.ofGlyphs gs) ↔ Content.readJsonText gs = .ok (.ofGlyphs gs) := by
  simp [Keeps, write_text (.inl hkind), read_text_json hkind]

/-! ## Everything else -/

/-- NULL is kept. -/
theorem keeps_null (hkind : c.kindOf? column = some .json ∨ c.kindOf? column = none) :
    c.Keeps column (.value .null) := by
  refine keeps_value_iff.mpr ⟨.null, ?_, decode_null c column⟩
  rw [encode]
  obtain hkind | hkind := hkind <;> rw [hkind] <;> rfl

/-- A container with halves in its texts is written if it is not too deep. -/
theorem isWritten_torn {depth : Nat} (hkind : c.kindOf? column = some .json ∨ c.kindOf? column = none)
    (hcontainer : t.isContainer = true) (h : Json.Plain depth t) :
    Value.IsWritten (Json.Plain Limits.depth t) (.ofGlyphs t.write) (c.write column (.torn t)) := by
  have hwritten : c.write column (.torn t) =
      (Value.checkWritten Limits.depth t).map fun _ => .ofGlyphs t.write := by
    rw [write, writeTorn.eq_def, if_pos hcontainer]
    obtain hkind | hkind := hkind <;> rw [hkind]
  rw [hwritten]
  exact (Json.isWritten_checkWritten h Limits.depth).map fun _ => Content.ofGlyphs t.write

/-- A value whose stored form is its JSON text is written if it is not too deep. -/
theorem isWritten_value {j : Json String} {depth : Nat}
    (hencode : c.encode column j.toValue = (Value.jsonText j.toValue).map .text) (h : Json.Plain depth j) :
    Value.IsWritten (Json.Plain Limits.depth j.tree) (.ofGlyphs j.tree.write)
      (c.write column (.ofTree j.tree)) := by
  have hwritten : c.write column (.ofTree j.tree) =
      (Value.jsonText j.toValue).map fun s => .value (.text s) := by
    rw [Content.ofTree_tree, write, hencode]
    cases Value.jsonText j.toValue <;> rfl
  have hdepth : Json.Plain Limits.depth j ↔ Json.Plain Limits.depth j.tree :=
    ⟨Json.Plain.tree, fun h => h.of_tree rfl⟩
  rw [hwritten, ← Json.glyphs_print, Content.ofGlyphs_glyphs]
  exact ((Json.isWritten_jsonText h).map fun s => Content.value (.text s)).congr hdepth

/-- In a column of JSON all but NULL and texts is written as JSON text if it is not too deep. -/
theorem isWritten_json {depth : Nat} (hkind : c.kindOf? column = some .json) (hnull : t ≠ .null)
    (htext : ∀ gs, t ≠ .text gs) (h : Json.Plain depth t) :
    Value.IsWritten (Json.Plain Limits.depth t) (.ofGlyphs t.write) (c.write column (.ofTree t)) := by
  obtain ⟨j, rfl⟩ | htorn := Content.ofTree_cases t
  · refine isWritten_value ?_ (h.of_tree rfl)
    rw [encode, hkind]
    cases j with
    | null => exact absurd rfl hnull
    | text s => exact absurd rfl (htext _)
    | _ => rfl
  · have hcontainer : t.isContainer = true := by
      cases t with
      | text gs => exact absurd rfl (htext gs)
      | array | object => rfl
      | _ => exact nomatch htorn
    rw [htorn]
    exact isWritten_torn (.inl hkind) hcontainer h

/-- Containers are written as JSON text if they are not too deep. -/
theorem isWritten_container {depth : Nat} (hkind : c.kindOf? column = none)
    (hcontainer : t.isContainer = true)
    (h : Json.Plain depth t) :
    Value.IsWritten (Json.Plain Limits.depth t) (.ofGlyphs t.write) (c.write column (.ofTree t)) := by
  obtain ⟨j, rfl⟩ | htorn := Content.ofTree_cases t
  · refine isWritten_value ?_ (h.of_tree rfl)
    rw [Json.isContainer_tree] at hcontainer
    rw [encode, hkind]
    cases j with
    | array items => rfl
    | object fields => rfl
    | _ => exact nomatch hcontainer
  · rw [htorn]
    exact isWritten_torn (.inr hkind) hcontainer h

/-- What is written as JSON text is kept if it is read from it. -/
theorem keeps_of_isWritten (hwritten : Value.IsWritten (Json.Plain Limits.depth t) (.ofGlyphs t.write)
    (c.write column (.ofTree t))) (hread : c.read column (.ofGlyphs t.write) = .ok (.ofTree t))
    (h : Json.Plain Limits.depth t) : c.Keeps column (.ofTree t) := by
  obtain ⟨-, hwritten⟩ | ⟨hdeep, -⟩ := hwritten
  · exact ⟨_, hwritten, hread⟩
  · exact absurd h hdeep

/-- In a column of JSON every plain value that is no text is kept. -/
theorem keeps_plain (hkind : c.kindOf? column = some .json) (htext : ∀ gs, t ≠ .text gs)
    (h : Json.Plain Limits.depth t) : c.Keeps column (.ofTree t) := by
  by_cases hnull : t = .null
  · rw [hnull]
    exact keeps_null (.inl hkind)
  · refine keeps_of_isWritten (isWritten_json hkind hnull htext h) ?_ h
    rw [read_text_json hkind]
    exact Content.readJsonText_write h

/-- In a column without a kind every plain container is kept. -/
theorem keeps_container (hkind : c.kindOf? column = none) (hparse : c.parseJson = true)
    (hcontainer : t.isContainer = true) (h : Json.Plain Limits.depth t) : c.Keeps column (.ofTree t) := by
  refine keeps_of_isWritten (isWritten_container hkind hcontainer h) ?_ h
  rw [read_text_plain hkind hparse]
  exact Content.readJson_write hcontainer h

/-- In a column of JSON an integer is kept unless it has too many digits. -/
theorem keeps_int_iff (hkind : c.kindOf? column = some .json) (n : Int) :
    c.Keeps column (.value (.int n)) ↔ Number.digitCount n.natAbs ≤ Number.maxDigits := by
  constructor
  · rw [keeps_value_iff]
    rintro ⟨w, hw, -⟩
    by_contra hlong
    have hlonger : Value.writtenInt n = refuse .longInteger := if_pos (Nat.not_le.mp hlong)
    have hwritten : c.encode column (.int n) = refuse .longInteger := by
      have htext : encodeAs c.utc (some .json) (.int n) = (Value.jsonText (.int n)).map .text := rfl
      rw [encode, hkind, htext, Value.jsonText, Value.toJson, hlonger]
      rfl
    exact nomatch hwritten.symm.trans hw
  · intro hshort
    exact keeps_plain (t := .int n) hkind nofun (.int hshort)

/-! ## Reading and writing back -/

/-- An integer is read as it is. -/
theorem read_int (hkind : c.kindOf? column = some .json ∨ c.kindOf? column = none) (n : Int) :
    c.read column (.value (.int n)) = .ok (.value (.int n)) := by
  rw [read]
  obtain hkind | hkind := hkind <;> rw [hkind] <;> rfl

/-- In a column of JSON what was read from a text is kept unless it drifts. -/
theorem keeps_of_readJsonText (hkind : c.kindOf? column = some .json)
    (h : Content.readJsonText gs = .ok x) (hreal : x.holdsReal = false) :
    c.Keeps column x ↔ ¬Drifts (.ofGlyphs gs) x := by
  cases hread : Json.read gs with
  | ok t =>
    obtain rfl := Except.ok.inj ((Content.readJsonText_of_read hread).symm.trans h)
    rw [Content.holdsReal_ofTree] at hreal
    by_cases htext : ∃ u, t = .text u
    · obtain ⟨u, rfl⟩ := htext
      refine (keeps_text_iff hkind u).trans ⟨?_, fun hno => ?_⟩
      · rintro hagain (⟨-, hx, -, hdrift⟩ | ⟨hstored, -, -⟩)
        · rw [← Content.ofGlyphs_injective hx] at hdrift
          exact hdrift hagain
        · exact Content.ofGlyphs_ne_value (by simp) hstored
      · by_contra hagain
        exact hno (.text rfl rfl hread hagain)
    · have htext' : ∀ u, t ≠ .text u := fun u hu => htext ⟨u, hu⟩
      refine iff_of_true (keeps_plain hkind htext' (Json.plain_read hread hreal)) ?_
      rintro (⟨hstored, -, hread', -⟩ | ⟨hstored, -, -⟩)
      · rw [← Content.ofGlyphs_injective hstored] at hread'
        exact htext' _ (Except.ok.inj (hread.symm.trans hread'))
      · exact Content.ofGlyphs_ne_value (by simp) hstored
  | error defect =>
    have hno : ¬Drifts (.ofGlyphs gs) x := by
      rintro (⟨hstored, -, hread', -⟩ | ⟨hstored, -, -⟩)
      · rw [← Content.ofGlyphs_injective hstored] at hread'
        exact nomatch hread.symm.trans hread'
      · exact Content.ofGlyphs_ne_value (by simp) hstored
    refine iff_of_true ?_ hno
    cases defect with
    | malformed =>
      have hagain := Content.readJsonText_of_malformed hread
      obtain rfl | ⟨t, inner, rfl, hcontainer, hinner⟩ := Content.readJson_cases (hagain.symm.trans h)
      · exact (keeps_text_iff hkind gs).mpr h
      · rw [Content.holdsReal_ofTree] at hreal
        refine keeps_plain hkind (fun u hu => ?_) (Json.plain_read hinner hreal)
        rw [hu] at hcontainer
        exact nomatch hcontainer
    | tooDeep object => exact nomatch (Content.readJsonText_of_tooDeep hread).symm.trans h

/-- In a column without a kind everything that was read is kept. -/
theorem keeps_of_plain {stored : Content} (hkind : c.kindOf? column = none) (hparse : c.parseJson = true)
    (hstored : IsStored stored) (h : c.read column stored = .ok x) (hreal : x.holdsReal = false) :
    c.Keeps column x := by
  cases hstored with
  | null =>
    obtain rfl := Except.ok.inj ((decode_eq_ok.mp (decode_null c column)).symm.trans h)
    exact keeps_null (.inr hkind)
  | int n =>
    obtain rfl := Except.ok.inj ((read_int (.inr hkind) n).symm.trans h)
    exact ⟨.value (.int n), by rw [write, encode, hkind]; rfl, h⟩
  | text gs =>
    have hread := h
    rw [read_text_plain hkind hparse] at hread
    obtain rfl | ⟨t, inner, rfl, hcontainer, hinner⟩ := Content.readJson_cases hread
    · exact ⟨_, write_text (.inr hkind) gs, h⟩
    · rw [Content.holdsReal_ofTree] at hreal
      exact keeps_container hkind hparse hcontainer (Json.plain_read hinner hreal)

/-- What was read from a column of JSON or without a kind is kept when it is written back, unless
the column is one of JSON and the content drifts. -/
theorem keeps_decoded_iff {stored : Content} (hparse : c.parseJson = true)
    (hkind : c.kindOf? column = some .json ∨ c.kindOf? column = none) (hstored : IsStored stored)
    (h : c.read column stored = .ok x) (hreal : x.holdsReal = false) :
    (∃ w, c.write column x = .ok w ∧ c.read column w = .ok x) ↔
      ¬(c.kindOf? column = some .json ∧ Drifts stored x) := by
  obtain hkind | hkind := hkind
  · have hdrift : ¬(c.kindOf? column = some .json ∧ Drifts stored x) ↔ ¬Drifts stored x := by simp [hkind]
    rw [hdrift]
    cases hstored with
    | null =>
      obtain rfl := Except.ok.inj ((decode_eq_ok.mp (decode_null c column)).symm.trans h)
      refine iff_of_true (keeps_null (.inl hkind)) ?_
      rintro (⟨-, hx, -, -⟩ | ⟨hnull, -, -⟩)
      · exact Content.ofGlyphs_ne_value (by simp) hx.symm
      · exact nomatch hnull
    | int n =>
      obtain rfl := Except.ok.inj ((read_int (.inl hkind) n).symm.trans h)
      refine (keeps_int_iff hkind n).trans ⟨?_, fun hno => ?_⟩
      · rintro hshort (⟨-, hx, -, -⟩ | ⟨-, hx, hlong⟩)
        · exact Content.ofGlyphs_ne_value (by simp) hx.symm
        · obtain rfl := Value.int.inj (Content.value.inj hx)
          omega
      · by_contra hlong
        exact hno (.int rfl rfl (Nat.not_le.mp hlong))
    | text gs =>
      rw [read_text_json hkind] at h
      exact keeps_of_readJsonText hkind h hreal
  · refine iff_of_true (keeps_of_plain hkind hparse hstored h hreal) ?_
    simp [hkind]

end

/-- A column of JSON that holds the JSON text of a list keeps the list, also with half of a pair of
code units in it. -/
theorem keeps_decoded_list :
    let t : Tree := .array [.int 1, .text [.half 0]]
    payloadCodec.read "payload" (.ofGlyphs t.write) = .ok (.torn t) ∧
      ∃ w, payloadCodec.write "payload" (.torn t) = .ok w ∧
        payloadCodec.read "payload" w = .ok (.torn t) := by
  intro t
  have hkind : payloadCodec.kindOf? "payload" = some .json := by decide
  have hplain : Json.Plain Limits.depth t :=
    .array (List.forall_mem_cons.mpr ⟨.int (by decide), List.forall_mem_singleton.mpr (.text _)⟩)
  have hread : payloadCodec.read "payload" (.ofGlyphs t.write) = .ok (.torn t) := by
    rw [read_text_json hkind, Content.readJsonText_write hplain]
    rfl
  refine ⟨hread, (keeps_decoded_iff rfl (.inl hkind) (.text _) hread rfl).mpr ?_⟩
  rintro ⟨-, hdrift⟩
  cases hdrift with
  | @text gs u _ hx _ _ =>
    obtain ⟨s, rfl⟩ | htorn := Content.ofGlyphs_cases u
    · rw [Content.ofGlyphs_glyphs] at hx
      exact nomatch hx
    · exact absurd (Content.torn.inj (hx.trans htorn)) (by simp [t])
  | int _ hx _ => exact nomatch hx

/-- A column of JSON that holds the JSON text of the text of a number is read as that text, and as
the number once it was written back. -/
theorem decoded_not_kept : ¬∀ (c : Codec) (column : String) (stored x w : Content), c.parseJson = true →
    (c.kindOf? column = some .json ∨ c.kindOf? column = none) → IsStored stored →
    c.read column stored = .ok x → x.holdsReal = false → c.write column x = .ok w →
    c.read column w = .ok x := by
  intro hall
  have hstored : Content.ofGlyphs (Json.glyphs ['"', '1', '2', '"']) = .value (.text "\"12\"") := rfl
  have hkept := hall payloadCodec "payload" (.value (.text "\"12\"")) (.value (.text "12"))
    (.value (.text "12")) rfl (.inl (by decide)) (hstored ▸ .text _) rfl rfl rfl
  have hread : payloadCodec.read "payload" (.value (.text "12")) = .ok (.value (.int 12)) := rfl
  exact nomatch hread.symm.trans hkept

end Codec

end Quarry
