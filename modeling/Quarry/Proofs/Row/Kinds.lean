import Quarry.Proofs.Row.Object

/-!
# Kinds that read alike

A column can be read by a declared kind or by the one that its name suggests. The two read every
stored value alike when they are the same kind. Besides, a column of text reads like one of no kind
as long as nobody looks for JSON in texts. In all other cases some stored value is read as two
different ones (`Kind.exists_read_apart`).
-/

set_option autoImplicit false

namespace Quarry

namespace Kind

variable {utc parseJson : Bool} {declared suggested : Option Kind}

/-- Whether a declared kind and one that a name suggests read alike. -/
def ReadAlike (parseJson : Bool) (declared suggested : Option Kind) : Prop :=
  declared = suggested ∨ declared = some .text ∧ suggested = none ∧ parseJson = false

/-- Whether two kinds are read alike can be computed. -/
instance (parseJson : Bool) (declared suggested : Option Kind) :
    Decidable (ReadAlike parseJson declared suggested) :=
  inferInstanceAs (Decidable (_ ∨ _))

/-- Kinds that are read alike decode alike. -/
theorem decodeAs_of_readAlike (h : ReadAlike parseJson declared suggested) (v : Value) :
    Codec.decodeAs utc parseJson declared v = Codec.decodeAs utc parseJson suggested v := by
  obtain rfl | ⟨rfl, rfl, rfl⟩ := h
  · rfl
  · cases v <;> rfl

/-- A text that is a time and no JSON. -/
def timeText : Value := .text "2020-05-01 00:00:00"

/-- A column of dates decodes this text to a moment. -/
theorem exists_decodeAs_date (utc parseJson : Bool) :
    ∃ m, Codec.decodeAs utc parseJson (some .date) timeText = .ok (.moment m) := by
  rw [Codec.decodeAs_date]
  cases utc <;> exact ⟨_, rfl⟩

/-- A number is a truth value in a column of truth values alone. -/
theorem decodeAs_seven (utc parseJson : Bool) (h : declared ≠ some .boolean) :
    Codec.decodeAs utc parseJson declared (.int 7) = .ok (.int 7) := by
  cases declared with
  | none => rfl
  | some k =>
    cases k with
    | boolean => exact absurd rfl h
    | _ => rfl

/-- A time as text is no JSON text. -/
theorem decodeAs_timeText_json (utc parseJson : Bool) :
    Codec.decodeAs utc parseJson (some .json) timeText = .ok timeText := by
  have hread : Codec.readAs utc parseJson (some .json) timeText =
      Content.readJsonText (Json.glyphs "2020-05-01 00:00:00".toList) := rfl
  rw [Codec.decodeAs_eq_ok, hread, Content.readJsonText_of_malformed rfl, Content.readJson_of_malformed rfl,
    Content.ofGlyphs_glyphs]
  rfl

/-- An undeclared column leaves this text. -/
theorem decodeAs_timeText_none (utc parseJson : Bool) :
    Codec.decodeAs utc parseJson none timeText = .ok timeText := by
  have hread : Value.readJson "2020-05-01 00:00:00" = .ok timeText := by
    rw [Value.readJson_eq_ok, Content.readJson_of_malformed rfl, Content.ofGlyphs_glyphs]
    rfl
  rw [timeText, Codec.decodeAs_none_text, hread]
  split_ifs <;> rfl

/-- A time as text is a moment in a column of dates alone. -/
theorem decodeAs_timeText (utc parseJson : Bool) (h : declared ≠ some .date) :
    ∃ w, Codec.decodeAs utc parseJson declared timeText = .ok w ∧ ∀ m, w ≠ .moment m := by
  cases declared with
  | none => exact ⟨timeText, decodeAs_timeText_none utc parseJson, nofun⟩
  | some k =>
    cases k with
    | json => exact ⟨timeText, decodeAs_timeText_json utc parseJson, nofun⟩
    | boolean => exact ⟨.bool true, rfl, nofun⟩
    | date => exact absurd rfl h
    | text => exact ⟨timeText, rfl, nofun⟩

/-- Kinds that do not read alike read some value apart, and neither reads it as NULL. -/
theorem exists_read_apart (utc : Bool) (h : ¬ReadAlike parseJson declared suggested)
    (hsuggested : suggested = some .boolean ∨ suggested = some .date ∨ suggested = none) :
    ∃ v w w', Codec.decodeAs utc parseJson declared v = .ok w ∧
      Codec.decodeAs utc parseJson suggested v = .ok w' ∧ w ≠ w' ∧ w' ≠ .null := by
  obtain ⟨hne, htext⟩ := not_or.mp h
  obtain rfl | rfl | rfl := hsuggested
  · exact ⟨.int 7, .int 7, .bool true, decodeAs_seven utc parseJson hne, rfl, nofun, nofun⟩
  · obtain ⟨m, hm⟩ := exists_decodeAs_date utc parseJson
    obtain ⟨w, hw, hapart⟩ := decodeAs_timeText utc parseJson hne
    exact ⟨timeText, w, .moment m, hw, hm, hapart m, nofun⟩
  · cases declared with
    | none => exact absurd rfl hne
    | some k =>
      cases k with
      | json => cases parseJson <;> exact ⟨.text "2", .int 2, .text "2", rfl, rfl, nofun, nofun⟩
      | boolean => exact ⟨.int 7, .bool true, .int 7, rfl, rfl, nofun, nofun⟩
      | date =>
        obtain ⟨m, hm⟩ := exists_decodeAs_date utc parseJson
        exact ⟨timeText, .moment m, timeText, hm, decodeAs_timeText_none utc parseJson, nofun, nofun⟩
      | text =>
        cases parseJson with
        | false => exact absurd ⟨rfl, rfl, rfl⟩ htext
        | true => exact ⟨.text "[1]", .text "[1]", .list [.int 1], rfl, rfl, nofun, nofun⟩

end Kind

end Quarry
