import Quarry.Proofs.Json.RoundTrip
import Quarry.Proofs.Time.Stored
import Quarry.Value.Reading

/-!
# JSON in columns

What a plain JSON value denotes is stored as the text of the JSON value, if its containers do not
stand too deep inside of each other to be written (`isWritten_jsonText`). The text of a plain value
is read as what the value denotes. A text that may be anything is only read so if it is that of a
container, which shows by its first character and, with blanks around it dropped, ends with a
bracket.
-/

set_option autoImplicit false

namespace Quarry

open Json (Glyph Tree glyphs)

/-! ## Contents -/

namespace Json

/-- Items are read one by one. -/
theorem toValues_eq_map (js : List (Json String)) : toValues js = js.map toValue := by
  induction js with
  | nil => rfl
  | cons j js ih => rw [toValues, ih, List.map_cons]

/-- Fields are read one by one. -/
theorem toFields_eq_map (fs : List (String × Json String)) :
    toFields fs = fs.map fun f => (f.1, f.2.toValue) := by
  induction fs with
  | nil => rfl
  | cons f fs ih => rw [toFields, ih, List.map_cons]

/-- No document is an absent value. -/
theorem toValue_ne_unset (j : Json String) : j.toValue ≠ .unset := by
  cases j <;> simp [toValue]

end Json

namespace Content

/-- Only what is a value has a value. -/
theorem toValue_eq_ok {x : Content} {v : Value} : x.toValue = .ok v ↔ x = .value v := by
  cases x <;> simp [toValue, misfit]

/-- A tree that has nothing but characters in its texts denotes a value. -/
@[simp] theorem ofTree_tree (j : Json String) : ofTree j.tree = .value j.toValue := by
  rw [ofTree, Json.plain?_tree]

/-- The glyphs of a text are that text. -/
@[simp] theorem ofGlyphs_glyphs (s : String) : ofGlyphs (glyphs s.toList) = .value (.text s) :=
  ofTree_tree (.text s)

/-- The value that a tree denotes is that of a JSON value with the same characters. -/
theorem ofTree_eq_value {t : Tree} {v : Value} :
    ofTree t = .value v ↔ ∃ j : Json String, t = j.tree ∧ v = j.toValue := by
  constructor
  · intro h
    unfold ofTree at h
    cases ht : t.plain? with
    | none =>
      rw [ht] at h
      exact nomatch h
    | some j =>
      rw [ht] at h
      exact ⟨j, Json.plain?_eq_some_iff.mp ht, (Content.value.inj h).symm⟩
  · rintro ⟨j, rfl, rfl⟩
    exact ofTree_tree j

/-- JSON denotes a value, or it has halves in its texts. -/
theorem ofTree_cases (t : Tree) : (∃ j : Json String, t = j.tree) ∨ ofTree t = .torn t := by
  cases h : t.plain? with
  | none => exact .inr (by rw [ofTree, h])
  | some j => exact .inl ⟨j, Json.plain?_eq_some_iff.mp h⟩

/-- A text of glyphs is one of characters, or it has halves. -/
theorem ofGlyphs_cases (gs : List Glyph) :
    (∃ s : String, gs = glyphs s.toList) ∨ ofGlyphs gs = .torn (.text gs) := by
  obtain ⟨j, hj⟩ | htorn := ofTree_cases (.text gs)
  · cases j with
    | text s => exact .inl ⟨s, Json.text.inj hj⟩
    | _ => simp at hj
  · exact .inr htorn

/-- A text of glyphs is no other value than a text. -/
theorem ofGlyphs_ne_value {gs : List Glyph} {v : Value} (hv : ∀ s, v ≠ .text s) : ofGlyphs gs ≠ .value v := by
  obtain ⟨s, rfl⟩ | htorn := ofGlyphs_cases gs
  · rw [ofGlyphs_glyphs]
    exact fun h => hv s (Content.value.inj h).symm
  · rw [htorn]
    exact nofun

/-- Different glyphs are different contents. -/
theorem ofGlyphs_injective {gs gs' : List Glyph} (h : ofGlyphs gs = ofGlyphs gs') : gs = gs' := by
  obtain ⟨s, rfl⟩ | htorn := ofGlyphs_cases gs
  · obtain ⟨s', rfl⟩ | htorn' := ofGlyphs_cases gs'
    · rw [ofGlyphs_glyphs, ofGlyphs_glyphs] at h
      rw [Value.text.inj (Content.value.inj h)]
    · rw [ofGlyphs_glyphs, htorn'] at h
      exact nomatch h
  · obtain ⟨s', rfl⟩ | htorn' := ofGlyphs_cases gs'
    · rw [ofGlyphs_glyphs, htorn] at h
      exact nomatch h
    · rw [htorn, htorn'] at h
      exact Json.text.inj (Content.torn.inj h)

end Content

/-! ## Writing -/

namespace Value

section

variable {α β : Type} {fits fits' : Prop} {a : α} {written : Except Error α}

/-- Whether `a` is written if it fits, and is an error of depth if it does not. -/
def IsWritten (fits : Prop) (a : α) (written : Except Error α) : Prop :=
  (fits ∧ written = .ok a) ∨ (¬fits ∧ written = misfit .writtenDepth)

/-- What is made of something written is written as that is. -/
theorem IsWritten.map (h : IsWritten fits a written) (f : α → β) :
    IsWritten fits (f a) (written.map f) := by
  obtain ⟨hfits, rfl⟩ | ⟨hdeep, rfl⟩ := h
  · exact .inl ⟨hfits, rfl⟩
  · exact .inr ⟨hdeep, rfl⟩

/-- The condition may be replaced by an equivalent one. -/
theorem IsWritten.congr (h : IsWritten fits a written) (hiff : fits ↔ fits') :
    IsWritten fits' a written := by
  rwa [IsWritten, ← hiff]

/-- All of some items are written if each of them fits. -/
theorem IsWritten.mapM {write : α → Except Error β} {result : α → β} {room : α → Prop} {items : List α}
    (h : ∀ a ∈ items, IsWritten (room a) (result a) (write a)) :
    IsWritten (∀ a ∈ items, room a) (items.map result) (items.mapM write) := by
  induction items with
  | nil => exact .inl ⟨nofun, rfl⟩
  | cons a rest ih =>
    obtain ⟨ha, hrest⟩ := List.forall_mem_cons.mp h
    rw [List.mapM_cons, List.forall_mem_cons, List.map_cons]
    obtain ⟨hfits, ha⟩ | ⟨hdeep, ha⟩ := ha
    · obtain ⟨hall, hrest⟩ | ⟨hdeep, hrest⟩ := ih hrest
      · exact .inl ⟨⟨hfits, hall⟩, by rw [ha, hrest]; rfl⟩
      · exact .inr ⟨fun h => hdeep h.2, by rw [ha, hrest]; rfl⟩
    · exact .inr ⟨fun h => hdeep h.1, by rw [ha]; rfl⟩

/-- A container is written if there is room for one, and what is in it fits in the room that is
left. -/
theorem IsWritten.inside {fits : Nat → Prop} {write : Nat → Except Error α}
    (h : ∀ room, IsWritten (fits room) a (write room)) (room : Nat) :
    IsWritten (∃ inner, room = inner + 1 ∧ fits inner) a (inside room write) := by
  cases room with
  | zero => exact .inr ⟨by simp, rfl⟩
  | succ room => exact (h room).congr (by simp)

end

/-- Items are written one by one. -/
theorem itemsToJson_eq_mapM (room : Nat) (vs : List Value) : itemsToJson room vs = vs.mapM (toJson room) := by
  induction vs with
  | nil => rw [itemsToJson, List.mapM_nil]; rfl
  | cons v vs ih => rw [itemsToJson, List.mapM_cons, ih]

/-- Fields are written one by one. -/
theorem fieldsToJson_eq_mapM (room : Nat) (fs : List (String × Value)) :
    fieldsToJson room fs = fs.mapM fun f => (toJson room f.2).map (f.1, ·) := by
  induction fs with
  | nil => rw [fieldsToJson, List.mapM_nil]; rfl
  | cons f fs ih =>
    obtain ⟨k, v⟩ := f
    rw [fieldsToJson, List.mapM_cons, ih]
    cases toJson room v <;> rfl

/-- Items are checked one by one. -/
theorem checkItems_eq (room : Nat) (ts : List Tree) :
    checkItems room ts = (ts.mapM (checkWritten room)).map fun _ => () := by
  induction ts with
  | nil => rw [checkItems, List.mapM_nil]; rfl
  | cons t ts ih =>
    rw [checkItems, List.mapM_cons, ih]
    cases checkWritten room t with
    | error e => rfl
    | ok u => cases ts.mapM (checkWritten room) <;> rfl

/-- Fields are checked one by one. -/
theorem checkFields_eq (room : Nat) (fs : List (List Glyph × Tree)) :
    checkFields room fs = (fs.mapM fun f => checkWritten room f.2).map fun _ => () := by
  induction fs with
  | nil => rw [checkFields, List.mapM_nil]; rfl
  | cons f fs ih =>
    rw [checkFields, List.mapM_cons, ih]
    cases checkWritten room f.2 with
    | error e => rfl
    | ok u => cases fs.mapM fun f => checkWritten room f.2 <;> rfl

end Value

namespace Json

variable {τ : Type} {room depth : Nat}

/-- An array is plain if there is room for it and its items are plain inside. -/
theorem plain_array_iff {items : List (Json τ)} :
    Plain room (.array items) ↔ ∃ inner, room = inner + 1 ∧ ∀ v ∈ items, Plain inner v := by
  constructor
  · rintro ⟨⟩
    exact ⟨_, rfl, ‹_›⟩
  · rintro ⟨inner, rfl, hitems⟩
    exact .array hitems

/-- An object is plain if there is room for it and its values are plain inside. -/
theorem plain_object_iff {fields : List (τ × Json τ)} (hnames : (fields.map (·.1)).Nodup) :
    Plain room (.object fields) ↔ ∃ inner, room = inner + 1 ∧ ∀ f ∈ fields, Plain inner f.2 := by
  constructor
  · rintro ⟨⟩
    exact ⟨_, rfl, ‹_›⟩
  · rintro ⟨inner, rfl, hfields⟩
    exact .object hnames hfields

/-- What a plain value denotes is written as the value if there is room for its containers. -/
theorem isWritten_toJson {j : Json String} (h : Plain depth j) (room : Nat) :
    Value.IsWritten (Plain room j) j (Value.toJson room j.toValue) := by
  induction h generalizing room with
  | null => exact .inl ⟨.null, rfl⟩
  | bool b => exact .inl ⟨.bool b, rfl⟩
  | @int _ n hshort =>
    refine .inl ⟨.int hshort, ?_⟩
    rw [toValue, Value.toJson, Value.writtenInt, if_neg (Nat.not_lt.mpr hshort)]
    rfl
  | text t => exact .inl ⟨.text t, rfl⟩
  | @array _ items _ ih =>
    have hitems (room : Nat) : Value.IsWritten (∀ v ∈ items, Plain room v) items
        (Value.itemsToJson room (toValues items)) := by
      rw [Value.itemsToJson_eq_mapM, toValues_eq_map, List.mapM_map]
      simpa [Function.comp_def] using Value.IsWritten.mapM fun v hv => ih v hv room
    rw [toValue, Value.toJson]
    exact (Value.IsWritten.inside (fun room => (hitems room).map Json.array) room).congr plain_array_iff.symm
  | @object _ fields hnames _ ih =>
    have hfields (room : Nat) : Value.IsWritten (∀ f ∈ fields, Plain room f.2) fields
        (Value.fieldsToJson room (toFields fields)) := by
      rw [Value.fieldsToJson_eq_mapM, toFields_eq_map, List.mapM_map]
      simpa [Function.comp_def] using Value.IsWritten.mapM fun f hf => (ih f hf room).map (f.1, ·)
    rw [toValue, Value.toJson]
    exact (Value.IsWritten.inside (fun room => (hfields room).map Json.object) room).congr
      (plain_object_iff hnames).symm

/-- A plain tree may be written if there is room for its containers. -/
theorem isWritten_checkWritten {t : Tree} (h : Plain depth t) (room : Nat) :
    Value.IsWritten (Plain room t) () (Value.checkWritten room t) := by
  induction h generalizing room with
  | null => exact .inl ⟨.null, rfl⟩
  | bool b => exact .inl ⟨.bool b, rfl⟩
  | int hshort =>
    refine .inl ⟨.int hshort, ?_⟩
    rw [Value.checkWritten, Value.writtenInt, if_neg (Nat.not_lt.mpr hshort)]
    rfl
  | text t => exact .inl ⟨.text t, rfl⟩
  | @array _ items _ ih =>
    have hitems (room : Nat) : Value.IsWritten (∀ v ∈ items, Plain room v) ()
        (Value.checkItems room items) := by
      rw [Value.checkItems_eq]
      exact (Value.IsWritten.mapM fun v hv => ih v hv room).map fun _ => ()
    rw [Value.checkWritten]
    exact (Value.IsWritten.inside hitems room).congr plain_array_iff.symm
  | @object _ fields hnames _ ih =>
    have hfields (room : Nat) : Value.IsWritten (∀ f ∈ fields, Plain room f.2) ()
        (Value.checkFields room fields) := by
      rw [Value.checkFields_eq]
      exact (Value.IsWritten.mapM fun f hf => ih f hf room).map fun _ => ()
    rw [Value.checkWritten]
    exact (Value.IsWritten.inside hfields room).congr (plain_object_iff hnames).symm

/-- What a plain value denotes is stored as its text if its containers do not stand too deep. -/
theorem isWritten_jsonText [Limits] {j : Json String} (h : Plain depth j) :
    Value.IsWritten (Plain Limits.depth j) j.print (Value.jsonText j.toValue) :=
  (isWritten_toJson h Limits.depth).map print

end Json

/-! ## Brackets -/

namespace Json

/-- Whether glyphs start with an opening bracket and end with a closing one. -/
def Bracketed (gs : List Glyph) : Prop :=
  ∃ object object' front back, gs = opening object :: back ∧ gs = front ++ [closing object']

/-- Items are written up to a closing bracket. -/
theorem exists_writeItems (items : List Tree) : ∃ front, writeItems items = front ++ [closing false] := by
  induction items with
  | nil => exact ⟨[], by simp [writeItems, closing]⟩
  | cons v vs ih =>
    obtain ⟨front, hfront⟩ := ih
    exact ⟨.char ',' :: .char ' ' :: (write v ++ front), by simp [writeItems, hfront]⟩

/-- Fields are written up to a closing bracket. -/
theorem exists_writeFields (fields : List (List Glyph × Tree)) :
    ∃ front, writeFields fields = front ++ [closing true] := by
  induction fields with
  | nil => exact ⟨[], by simp [writeFields, closing]⟩
  | cons f fs ih =>
    obtain ⟨front, hfront⟩ := ih
    exact ⟨.char ',' :: .char ' ' :: (quote f.1 ++ .char ':' :: .char ' ' :: (write f.2 ++ front)), by
      simp [writeFields, hfront]⟩

/-- The text of a container starts and ends with a bracket. -/
theorem bracketed_write {t : Tree} (h : t.isContainer = true) : Bracketed t.write := by
  cases t with
  | array items =>
    cases items with
    | nil => exact ⟨false, false, [opening false], [closing false], by simp [write, opening, closing]⟩
    | cons v vs =>
      obtain ⟨front, hfront⟩ := exists_writeItems vs
      exact ⟨false, false, opening false :: (write v ++ front), write v ++ writeItems vs, by
        simp [write, opening, hfront]⟩
  | object fields =>
    cases fields with
    | nil => exact ⟨true, true, [opening true], [closing true], by simp [write, opening, closing]⟩
    | cons f fs =>
      obtain ⟨front, hfront⟩ := exists_writeFields fs
      exact ⟨true, true, opening true :: (quote f.1 ++ .char ':' :: .char ' ' :: (write f.2 ++ front)),
        quote f.1 ++ .char ':' :: .char ' ' :: (write f.2 ++ writeFields fs), by
        simp [write, opening, hfront]⟩
  | _ => exact absurd h Bool.false_ne_true

/-- There is nothing to trim where brackets stand on both sides. -/
theorem Bracketed.trimBy_eq {gs : List Glyph} (h : Bracketed gs) :
    Text.trimBy (Glyph.any Text.isBlank) gs = gs := by
  obtain ⟨object, object', front, back, hstart, hend⟩ := h
  refine Text.trimBy_eq_self ?_ ?_ hstart hend
  · cases object <;> decide
  · cases object' <;> decide

/-- A text that starts with a bracket is only read as it stands. -/
theorem Bracketed.containerIn_eq [Limits] {gs : List Glyph} (h : Bracketed gs) :
    Content.containerIn gs = Json.read gs := by
  obtain ⟨object, -, -, back, rfl, -⟩ := h
  cases object <;> rfl

end Json

/-! ## Reading -/

namespace Content

variable [Limits] {gs : List Glyph} {t : Tree}

/-- A text in brackets is read as JSON, and stays a text if it is none. -/
theorem readJson_of_bracketed (h : Json.Bracketed gs) :
    readJson gs = (ofRead (Json.read gs)).map fun read => read.getD (.ofGlyphs gs) := by
  rw [readJson, h.trimBy_eq, h.containerIn_eq]
  cases ofRead (Json.read gs) <;> rfl

/-- The text of a plain container is read as what the container denotes. -/
theorem readJson_write (hcontainer : t.isContainer = true) (h : Json.Plain Limits.depth t) :
    readJson t.write = .ok (.ofTree t) := by
  rw [readJson_of_bracketed (Json.bracketed_write hcontainer), Json.read_write h]
  rfl

/-- A text that is not read as a container stays as it is. -/
theorem readJson_of_malformed
    (h : containerIn (Text.trimBy (Glyph.any Text.isBlank) gs) = .error .malformed) :
    readJson gs = .ok (.ofGlyphs gs) := by
  rw [readJson, h]
  rfl

/-- A text that is read as a document has its content. -/
theorem readJsonText_of_read (h : Json.read gs = .ok t) : readJsonText gs = .ok (.ofTree t) := by
  rw [readJsonText, h]
  rfl

/-- What is no JSON text is looked at once more without the space around it. -/
theorem readJsonText_of_malformed (h : Json.read gs = .error .malformed) :
    readJsonText gs = readJson gs := by
  rw [readJsonText, h]
  rfl

/-- What is too deep has no content. -/
theorem readJsonText_of_tooDeep {object : Bool} (h : Json.read gs = .error (.tooDeep object)) :
    readJsonText gs = misfit (.depth object) := by
  rw [readJsonText, h]
  rfl

/-- The text of a plain value is read as what the value denotes. -/
theorem readJsonText_write (h : Json.Plain Limits.depth t) : readJsonText t.write = .ok (.ofTree t) :=
  readJsonText_of_read (Json.read_write h)

end Content

/-- A text is read as a value if it is read as a content that is this value. -/
theorem Value.readJson_eq_ok [Limits] {s : String} {v : Value} :
    readJson s = .ok v ↔ Content.readJson (glyphs s.toList) = .ok (.value v) := by
  rw [readJson, bind_eq_ok]
  simp [Content.toValue_eq_ok]

/-! ## Moments -/

namespace Value

variable {m : Time.Moment}

/-- A moment in UTC is stored as it is shown. -/
theorem storedMoment_utc (h : m.offset = some 0) :
    storedMoment true m = .ok (String.ofList m.storedChars) := by
  simp [storedMoment, Time.Moment.stored?, Time.Moment.toUtc?, h]

/-- The stored form of a moment in UTC is read as the moment if it has no microseconds. -/
theorem readMoment_storedChars (hutc : m.offset = some 0) (hmicro : m.micro = 0)
    (hvalid : m.isValid = true) (hfour : 1000 ≤ m.date.year) :
    readMoment true (.text (String.ofList m.storedChars)) = .ok (.moment m) := by
  have hsame : { m with micro := 0, offset := some 0 } = m := by rw [← hmicro, ← hutc]
  simp only [readMoment, Time.Moment.ofStored?_storedChars hvalid hfour, placeMoment, if_true,
    Time.Moment.toUtc?, hsame]

end Value

end Quarry
