import Quarry.Proofs.Json.Proper
import Quarry.Proofs.Value.Record
import Quarry.Proofs.Value.Stored
import Quarry.Row.Codec

/-!
# Values that equal themselves

Not every value equals itself: one that is no number does not, and neither does what contains one. A
value is steady when no such value is in it and the names of its records are distinct. Steady values
equal themselves, and decoding a steady stored value gives a steady value. Where no kinds are
declared, decoding gives NULL for NULL and only for it.
-/

set_option autoImplicit false

namespace Quarry

open Number (Binary64 Decimal Exact)

/-! ## Steady values -/

namespace Value

mutual

/-- Whether no number in a value is undefined, but for the constant of JSON text, and the names of
its records are distinct. -/
def isSteady : Value → Bool
  | .real x => decide (x ≠ .nan false)
  | .decimal (.nan ..) => false
  | .list items => areSteady items
  | .tuple items => areSteady items
  | .set items => areSteady items
  | .record fields => decide (fields.map (·.1)).Nodup && fieldsAreSteady fields
  | _ => true

/-- Whether all items are steady. -/
def areSteady : List Value → Bool
  | [] => true
  | v :: vs => isSteady v && areSteady vs

/-- Whether all values of fields are steady. -/
def fieldsAreSteady : List (String × Value) → Bool
  | [] => true
  | (_, v) :: rest => isSteady v && fieldsAreSteady rest

end

/-- Fields are steady if their values are. -/
theorem fieldsAreSteady_iff (fields : List (String × Value)) :
    fieldsAreSteady fields = true ↔ ∀ f ∈ fields, f.2.isSteady = true := by
  induction fields with
  | nil => simp [fieldsAreSteady]
  | cons f rest ih => simp [fieldsAreSteady, ih]

/-- A record is steady if its names are different and its values are steady. -/
theorem isSteady_record_iff {fields : Record} : (Value.record fields).isSteady = true ↔
    (Record.names fields).Nodup ∧ ∀ f ∈ fields, f.2.isSteady = true := by
  rw [isSteady, Bool.and_eq_true, decide_eq_true_iff, fieldsAreSteady_iff]
  rfl

end Value

/-! ## Equality -/

/-- An exact value equals itself if it is defined. -/
theorem Number.Exact.equal_self {x : Exact} (h : x ≠ .undefined) : x.equal x = true := by
  cases x with
  | undefined => exact absurd rfl h
  | infinite negative => cases negative <;> rfl
  | finite negative c e =>
    have hsizes : compareSizes c e c e = .eq := by simp [compareSizes]
    simp only [equal, compare?, hsizes]
    cases negative && c != 0 <;> rfl

/-- A moment equals itself. -/
theorem Time.Moment.equal_self (m : Moment) : m.equal m = true := by simp [equal]

namespace Value

/-- A number equals itself if it is defined. -/
theorem sameNumber?_self {v : Value} {x : Exact} (hnumber : v.numeric? = some x)
    (hsignal : v.isSignaling = false) (hx : x ≠ .undefined) : sameNumber? v v = some true := by
  simp [sameNumber?, hnumber, hsignal, Exact.equal_self hx]

/-- Items equal themselves if each of them does. -/
theorem sameItems?_self {vs : List Value} (h : ∀ v ∈ vs, same? v v = some true) :
    sameItems? vs vs = some true := by
  induction vs with
  | nil => simp [sameItems?]
  | cons v vs ih =>
    obtain ⟨hv, hvs⟩ := List.forall_mem_cons.mp h
    simp [sameItems?, hv, ih hvs]

/-- Members equal others among which they are. -/
theorem sameMembers_of_subset {vs ws : List Value} (h : ∀ v ∈ vs, v ∈ ws ∧ same? v v = some true) :
    sameMembers vs ws = true := by
  induction vs with
  | nil => simp [sameMembers]
  | cons v vs ih =>
    obtain ⟨⟨hmem, hv⟩, hvs⟩ := List.forall_mem_cons.mp h
    have hany : (ws.any fun w => same? v w == some true) = true :=
      List.any_eq_true.mpr ⟨v, hmem, by simp [hv]⟩
    simp [sameMembers, hany, ih hvs]

/-- Fields equal others in which they are found. -/
theorem sameFields?_of_get? {fs ws : List (String × Value)}
    (h : ∀ f ∈ fs, Record.get? f.1 ws = some f.2 ∧ same? f.2 f.2 = some true) :
    sameFields? fs ws = some true := by
  induction fs with
  | nil => simp [sameFields?]
  | cons f fs ih =>
    obtain ⟨⟨hget, hf⟩, hfs⟩ := List.forall_mem_cons.mp h
    simp [sameFields?, hget, hf, ih hfs]

mutual

/-- A steady value equals itself. -/
theorem same?_self : ∀ v : Value, v.isSteady = true → same? v v = some true
  | .null, _ => by simp [same?]
  | .unset, _ => by simp [same?]
  | .bool b, _ => by
    unfold same?
    exact sameNumber?_self (v := .bool b) rfl rfl nofun
  | .int n, _ => by
    unfold same?
    exact sameNumber?_self (v := .int n) rfl rfl nofun
  | .real (.nan true), _ => by simp [same?, sameReal?]
  | .real (.nan false), h => by simp [isSteady] at h
  | .real (.infinite s), _ => by
    unfold same?
    exact sameNumber?_self (v := .real (.infinite s)) rfl rfl nofun
  | .real (.finite s m e), _ => by
    unfold same?
    refine sameNumber?_self (v := .real (.finite s m e)) rfl rfl ?_
    unfold Binary64.exact
    dsimp only
    split_ifs <;> exact nofun
  | .decimal (.finite s c e), _ => by
    unfold same?
    exact sameNumber?_self (v := .decimal (.finite s c e)) rfl rfl nofun
  | .decimal (.infinite s), _ => by
    unfold same?
    exact sameNumber?_self (v := .decimal (.infinite s)) rfl rfl nofun
  | .decimal (.nan ..), h => by simp [isSteady] at h
  | .text s, _ => by simp [same?]
  | .bytes data, _ => by simp [same?, sameBytes]
  | .buffer data, _ => by simp [same?, sameBytes]
  | .moment m, _ => by simp [same?, Time.Moment.equal_self]
  | .date d, _ => by simp [same?]
  | .list items, h => by
    have hall := sameEach_self items (by simpa [isSteady] using h)
    simp [same?, sameItems?_self hall]
  | .tuple items, h => by
    have hall := sameEach_self items (by simpa [isSteady] using h)
    simp [same?, sameItems?_self hall]
  | .set items, h => by
    have hall := sameEach_self items (by simpa [isSteady] using h)
    simp [same?, sameMembers_of_subset fun v hv => ⟨hv, hall v hv⟩]
  | .record fields, h => by
    obtain ⟨hnodup, hfields⟩ : (fields.map (·.1)).Nodup ∧ fieldsAreSteady fields = true := by
      simpa [isSteady] using h
    have hall := sameValues_self fields hfields
    simp [same?, sameFields?_of_get? fun f hf => ⟨Record.get?_of_mem hnodup hf, hall f hf⟩]

/-- Steady items equal themselves one by one. -/
theorem sameEach_self : ∀ vs : List Value, areSteady vs = true → ∀ v ∈ vs, same? v v = some true
  | [], _ => nofun
  | v :: vs, h => by
    obtain ⟨hv, hvs⟩ : v.isSteady = true ∧ areSteady vs = true := by simpa [areSteady] using h
    exact List.forall_mem_cons.mpr ⟨same?_self v hv, sameEach_self vs hvs⟩

/-- Values of steady fields equal themselves one by one. -/
theorem sameValues_self : ∀ fs : List (String × Value), fieldsAreSteady fs = true →
    ∀ f ∈ fs, same? f.2 f.2 = some true
  | [], _ => nofun
  | (k, v) :: fs, h => by
    obtain ⟨hv, hfs⟩ : v.isSteady = true ∧ fieldsAreSteady fs = true := by
      simpa [fieldsAreSteady] using h
    exact List.forall_mem_cons.mpr ⟨same?_self v hv, sameValues_self fs hfs⟩

end

end Value

/-! ## JSON -/

namespace Json

/-- The names of the fields of a document stay. -/
theorem map_fst_toFields (fields : List (String × Json String)) :
    (toFields fields).map (·.1) = fields.map (·.1) := by
  rw [toFields_eq_map, List.map_map]
  rfl

mutual

/-- What proper JSON text denotes is steady. -/
theorem isSteady_toValue : ∀ j : Json String, j.isProper = true → j.toValue.isSteady = true
  | .null, _ => rfl
  | .bool _, _ => rfl
  | .int _, _ => rfl
  | .real x, h => by simpa [isProper, toValue, Value.isSteady] using h
  | .text _, _ => rfl
  | .array items, h => by
    simpa [toValue, Value.isSteady] using areSteady_toValues items (by simpa [isProper] using h)
  | .object fields, h => by
    obtain ⟨hnodup, hfields⟩ : (fields.map (·.1)).Nodup ∧ fieldsAreProper fields = true := by
      simpa [isProper] using h
    have hsteady := fieldsAreSteady_toFields fields hfields
    simp [toValue, Value.isSteady, hsteady, map_fst_toFields, hnodup]

/-- The items of a proper document are steady. -/
theorem areSteady_toValues : ∀ js : List (Json String), areProper js = true →
    Value.areSteady (toValues js) = true
  | [], _ => by simp [toValues, Value.areSteady]
  | j :: js, h => by
    obtain ⟨hj, hjs⟩ : j.isProper = true ∧ areProper js = true := by simpa [areProper] using h
    simp [toValues, Value.areSteady, isSteady_toValue j hj, areSteady_toValues js hjs]

/-- The fields of a proper document are steady. -/
theorem fieldsAreSteady_toFields : ∀ fs : List (String × Json String), fieldsAreProper fs = true →
    Value.fieldsAreSteady (toFields fs) = true
  | [], _ => by simp [toFields, Value.fieldsAreSteady]
  | (k, j) :: fs, h => by
    obtain ⟨hj, hfs⟩ : j.isProper = true ∧ fieldsAreProper fs = true := by
      simpa [fieldsAreProper] using h
    simp [toFields, Value.fieldsAreSteady, isSteady_toValue j hj, fieldsAreSteady_toFields fs hfs]

end

end Json

namespace Content

variable [Limits] {gs : List Json.Glyph} {t : Json.Tree}

/-- A container that is found in a text is read from it. -/
theorem containerOf_spec (h : containerOf gs = .ok t) : t.isContainer = true ∧ Json.read gs = .ok t := by
  unfold containerOf at h
  split at h
  · exact ⟨Json.isContainer_read (.inr rfl) h, h⟩
  · exact ⟨Json.isContainer_read (.inl rfl) h, h⟩
  · exact nomatch h

/-- A container that is found inside a text is read from a text. -/
theorem containerIn_spec (h : containerIn gs = .ok t) :
    t.isContainer = true ∧ ∃ inner, Json.read inner = .ok t := by
  unfold containerIn at h
  split at h
  · obtain ⟨hcontainer, hread⟩ := containerOf_spec h
    exact ⟨hcontainer, _, hread⟩
  · obtain ⟨hcontainer, hread⟩ := containerOf_spec h
    exact ⟨hcontainer, _, hread⟩

/-- A text that may be JSON text stays as it is or is the container that it denotes. -/
theorem readJson_cases {x : Content} (h : readJson gs = .ok x) :
    x = .ofGlyphs gs ∨ ∃ t inner, x = .ofTree t ∧ t.isContainer = true ∧ Json.read inner = .ok t := by
  obtain ⟨read, hread, hx⟩ := bind_eq_ok.mp h
  obtain rfl := pure_eq_ok.mp hx
  unfold ofRead at hread
  split at hread
  · rename_i t ht
    obtain rfl := Except.ok.inj hread
    obtain ⟨hcontainer, inner, hinner⟩ := containerIn_spec ht
    exact .inr ⟨t, inner, rfl, hcontainer, hinner⟩
  · obtain rfl := Except.ok.inj hread
    exact .inl rfl
  · exact nomatch hread

end Content

namespace Value

/-- A text that may be JSON text is not read as NULL, and what it is read as is steady. -/
theorem readJson_spec [Limits] {s : String} {w : Value} (h : readJson s = .ok w) :
    w ≠ .null ∧ w.isSteady = true := by
  obtain hsame | ⟨t, inner, hvalue, hcontainer, hread⟩ := Content.readJson_cases (readJson_eq_ok.mp h)
  · rw [Content.ofGlyphs_glyphs] at hsame
    obtain rfl := Content.value.inj hsame
    exact ⟨nofun, rfl⟩
  · obtain ⟨j, rfl, rfl⟩ := Content.ofTree_eq_value.mp hvalue.symm
    refine ⟨?_, Json.isSteady_toValue j (Json.isProper_of_tree j (Json.isProper_read hread))⟩
    rw [Json.isContainer_tree] at hcontainer
    cases j with
    | array items => simp [Json.toValue]
    | object fields => simp [Json.toValue]
    | _ => exact nomatch hcontainer

end Value

/-! ## Decoding -/

namespace Codec

variable {c : Codec} {column : String} {v w : Value}

/-- A value that is not NULL is read as a truth value. -/
theorem readFlag_spec {o : Option Bool} (h : Value.readFlag v = .ok o) (hv : v ≠ .null) :
    ∃ b, o = some b := by
  unfold Value.readFlag at h
  split at h
  · exact absurd rfl hv
  · split_ifs at h
    · exact ⟨_, (Except.ok.inj h).symm⟩
    · obtain ⟨s, -, rfl⟩ := map_eq_ok.mp h
      exact ⟨_, rfl⟩
  · obtain ⟨s, -, rfl⟩ := map_eq_ok.mp h
    exact ⟨_, rfl⟩
  · exact ⟨_, (Except.ok.inj h).symm⟩
  · split_ifs at h
    · exact ⟨_, (Except.ok.inj h).symm⟩
    · exact nomatch h
  · exact ⟨_, (Except.ok.inj h).symm⟩

/-- Reading a moment gives one, or the value back. -/
theorem readMoment_spec {utc : Bool} (h : Value.readMoment utc v = .ok w) :
    w = v ∨ (∃ m, w = .moment m) := by
  have hplace (m : Time.Moment) (hm : Value.placeMoment utc m = .ok w) : ∃ m, w = .moment m := by
    unfold Value.placeMoment at hm
    split at hm
    · split at hm
      · exact ⟨_, (Except.ok.inj hm).symm⟩
      · exact nomatch hm
    · exact ⟨_, (Except.ok.inj hm).symm⟩
  unfold Value.readMoment at h
  split at h
  · split at h
    · exact .inr (hplace _ h)
    · exact .inl (Except.ok.inj h).symm
  · exact .inr (hplace _ h)
  · exact .inl (Except.ok.inj h).symm

/-- What a name suggests is a truth value or a date, if anything. -/
theorem ofColumn?_cases (column : String) :
    Kind.ofColumn? column = some .boolean ∨ Kind.ofColumn? column = some .date ∨
      Kind.ofColumn? column = none := by
  unfold Kind.ofColumn?
  dsimp only
  split_ifs
  · exact .inl rfl
  · exact .inr (.inl rfl)
  · exact .inr (.inr rfl)

variable [Limits] {utc parseJson : Bool}

/-- NULL stays NULL. -/
theorem decode_null (c : Codec) (column : String) : c.decode column .null = .ok .null := by
  unfold decode decodeAs
  rfl

/-- What is decoded is what is read as a value. -/
theorem decodeAs_eq_ok {kind : Option Kind} :
    decodeAs utc parseJson kind v = .ok w ↔ readAs utc parseJson kind v = .ok (.value w) := by
  rw [decodeAs, bind_eq_ok]
  simp [Content.toValue_eq_ok]

/-- Decoding gives what reading does, if this is a value. -/
theorem decode_eq_ok : c.decode column v = .ok w ↔ c.read column (.value v) = .ok (.value w) := decodeAs_eq_ok

/-- A column of truth values is decoded by reading them. -/
theorem decodeAs_boolean (hv : v ≠ .null) :
    decodeAs utc parseJson (some .boolean) v = (Value.readFlag v).map (Value.ofOption .bool) := by
  have hread : readAs utc parseJson (some .boolean) v =
      (Value.readFlag v).map fun b => .value (Value.ofOption .bool b) := by
    cases v <;> first | exact absurd rfl hv | rfl
  rw [decodeAs, hread]
  cases Value.readFlag v <;> rfl

/-- A column of dates is decoded by reading moments. -/
theorem decodeAs_date (v : Value) : decodeAs utc parseJson (some .date) v = Value.readMoment utc v := by
  have hread : readAs utc parseJson (some .date) v = (Value.readMoment utc v).map .value := by
    cases v <;> rfl
  rw [decodeAs, hread]
  cases Value.readMoment utc v <;> rfl

/-- A text of an undeclared column is decoded as JSON if that is wanted. -/
theorem decodeAs_none_text (s : String) :
    decodeAs utc parseJson none (.text s) = if parseJson then Value.readJson s else .ok (.text s) := by
  cases parseJson <;> rfl

/-- Where no kinds are declared, a value that is not NULL is decoded to one that is not NULL, and a
steady one to a steady one. -/
theorem decode_spec (hkinds : c.kinds = []) (h : c.decode column v = .ok w) (hv : v ≠ .null) :
    w ≠ .null ∧ (v.isSteady = true → w.isSteady = true) := by
  have hkind : c.kindOf? column = Kind.ofColumn? column := by
    simp [kindOf?, declaredKind?, hkinds]
  -- The name of the column decides; JSON is read from text only, where no kind is suggested.
  unfold decode at h
  rw [hkind] at h
  obtain hcolumn | hcolumn | hcolumn := ofColumn?_cases column
  · rw [hcolumn, decodeAs_boolean hv] at h
    obtain ⟨o, ho, rfl⟩ := map_eq_ok.mp h
    obtain ⟨b, rfl⟩ := readFlag_spec ho hv
    exact ⟨nofun, fun _ => rfl⟩
  · rw [hcolumn, decodeAs_date] at h
    obtain rfl | ⟨m, rfl⟩ := readMoment_spec h
    · exact ⟨hv, id⟩
    · exact ⟨nofun, fun _ => rfl⟩
  · rw [hcolumn] at h
    cases v with
    | null => exact absurd rfl hv
    | text s =>
      rw [decodeAs_none_text] at h
      split_ifs at h
      · exact ⟨(Value.readJson_spec h).1, fun _ => (Value.readJson_spec h).2⟩
      · obtain rfl := Except.ok.inj h
        exact ⟨nofun, fun _ => rfl⟩
    | _ =>
      obtain rfl := Except.ok.inj h
      exact ⟨hv, id⟩

end Codec

end Quarry
