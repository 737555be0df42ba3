import Quarry.Proofs.Outcome
import Quarry.Proofs.Time.Order
import Quarry.Proofs.Value.Stored
import Quarry.Row.Codec
import Quarry.Value.Parameter

/-!
# Moments inside of containers

A moment is stored as its text, in UTC or as the calendar and clock show it, as the setting wants
it. A container is stored as JSON text, and a moment in it at any depth should have the text there
that it has by itself. So the text of a container should be that of the container whose moments were
stored before (`Value.withStored`).

The setting does not reach the moments in a container, though: they are always moved to UTC.
Therefore this holds exactly if the setting is UTC, or if no moment in the container has an offset
other than zero (`Value.SuitsUtc`). One direction is that moments without such an offset have one
text for both settings. For the other, texts of containers that only differ in texts inside can be
compared part by part, as no text in quotes begins with another.
-/

set_option autoImplicit false

namespace Quarry

open Json (Glyph glyphs)
open Time (Moment)

variable {utc : Bool}

/-! ## One moment -/

namespace Time.Moment

variable {m u : Moment}

/-- The time of day has eight characters. -/
theorem length_clockChars (hhour : m.hour < 100) (hminute : m.minute < 100) (hsecond : m.second < 100) :
    m.clockChars.length = 8 := by
  have htwo {n : Nat} (hn : n < 100) : (Number.padded 2 n).length = 2 := Number.length_padded (by omega) hn
  simp [clockChars, htwo hhour, htwo hminute, htwo hsecond]

/-- Stored texts that are the same show the same time of day. -/
theorem secondOfDay_eq_of_storedChars (hu : u.hour < 100 ∧ u.minute < 100 ∧ u.second < 100)
    (hm : m.hour < 100 ∧ m.minute < 100 ∧ m.second < 100) (h : u.storedChars = m.storedChars) :
    u.secondOfDay = m.secondOfDay := by
  have hlength : (' ' :: u.clockChars).length = (' ' :: m.clockChars).length := by
    simp [length_clockChars hu.1 hu.2.1 hu.2.2, length_clockChars hm.1 hm.2.1 hm.2.2]
  obtain ⟨-, hclock⟩ := List.append_inj' h hlength
  have hparts := (Text.sorts_two hu.1 hm.1).mark ':'
    ((Text.sorts_two hu.2.1 hm.2.1).mark ':' (Text.sorts_two hu.2.2 hm.2.2))
  obtain ⟨hhour, hminute, hsecond⟩ := hparts.eq.mp (by simpa [clockChars] using hclock)
  rw [secondOfDay, secondOfDay, hhour, hminute, hsecond]

/-- A moment that is moved to UTC shows another time of day, since its offset is less than a day. -/
theorem storedChars_ofLocalSeconds_ne {o : Int} (hm : m.isValid = true) (ho : m.offset = some o)
    (hne : o ≠ 0) (hu : ofLocalSeconds? m.seconds m.micro (some 0) = some u) :
    u.storedChars ≠ m.storedChars := by
  intro hsame
  obtain ⟨-, hhour, hminute, hsecond⟩ := bounds hm
  obtain ⟨hlow, hhigh⟩ : -86400 < o ∧ o < 86400 := by
    simp only [isValid, ho, Bool.and_eq_true, decide_eq_true_eq] at hm
    exact hm.2
  have hshown := secondOfDay_lt hm
  have hseconds : m.seconds = m.date.ordinal * 86400 + m.secondOfDay - o := by
    rw [seconds, localSeconds, ho, Option.getD_some]
  have hmod := Int.fmod_eq_emod_of_nonneg m.seconds (show (0 : Int) ≤ 86400 by decide)
  unfold ofLocalSeconds? at hu
  dsimp only at hu
  split_ifs at hu
  rw [← Option.some.inj hu] at hsame
  have hday := secondOfDay_eq_of_storedChars (by dsimp only; omega) ⟨hhour, hminute, hsecond⟩ hsame
  rw [secondOfDay] at hday
  dsimp only at hday
  omega

end Time.Moment

/-- Moved to UTC, a moment is stored with another text than as it is shown, unless its offset is
zero. -/
theorem Value.storedMoment_utc_eq_iff {m : Moment} (h : m.isValid = true) :
    storedMoment true m = storedMoment false m ↔ m.offset.getD 0 = 0 := by
  have hshown : storedMoment false m = .ok (String.ofList m.storedChars) := rfl
  cases ho : m.offset with
  | none => simp [storedMoment, Moment.stored?, ho]
  | some o =>
    by_cases hzero : o = 0
    · rw [hzero] at ho ⊢
      simp [storedMoment_utc ho, hshown]
    · refine ⟨fun hsame => absurd hsame ?_, fun hsome => absurd hsome hzero⟩
      have hmoved : m.toUtc? = Moment.ofLocalSeconds? m.seconds m.micro (some 0) := by
        unfold Moment.toUtc?
        split
        · rename_i hnone
          exact absurd (ho.symm.trans hnone) (Option.some_ne_none o)
        · rename_i hsome
          exact absurd (Option.some.inj (ho.symm.trans hsome)) hzero
        · rfl
      rw [hshown, storedMoment, Moment.stored?, ho, hmoved]
      cases hu : Moment.ofLocalSeconds? m.seconds m.micro (some 0) with
      | none =>
        intro hsame
        cases hsame
      | some u =>
        intro hsame
        have htext : u.storedChars = m.storedChars := String.ofList_injective (Except.ok.inj hsame)
        exact Moment.storedChars_ofLocalSeconds_ne h ho hzero hu htext

/-! ## Texts in quotes -/

/-- No text in quotes begins with another one. -/
theorem Json.quote_append_inj {s t r r' : List Glyph} (h : quote s ++ r = quote t ++ r') :
    s = t ∧ r = r' := by
  have hread (s r : List Glyph) : readText? ((quote s ++ r).tail) = some (s, r) := by
    refine readText?_eq_some_iff.mpr ⟨quote s, quotedText_quote s, ?_⟩
    simp [quote]
  have hsame := hread s r
  rw [h, hread t r'] at hsame
  obtain ⟨htext, hrest⟩ := Prod.mk.inj (Option.some.inj hsame)
  exact ⟨htext.symm, hrest.symm⟩

/-! ## Moments in values -/

namespace Value

mutual

/-- The moments in a value, at any depth. -/
def moments : Value → List Moment
  | .moment m => [m]
  | .list items => itemMoments items
  | .tuple items => itemMoments items
  | .set items => itemMoments items
  | .record fields => fieldMoments fields
  | _ => []

/-- The moments in items. -/
def itemMoments : List Value → List Moment
  | [] => []
  | v :: vs => moments v ++ itemMoments vs

/-- The moments in fields. -/
def fieldMoments : List (String × Value) → List Moment
  | [] => []
  | (_, v) :: rest => moments v ++ fieldMoments rest

end

mutual

/-- A value with each moment in it replaced by the text that it is stored as by itself. -/
def withStored (utc : Bool) : Value → Except Error Value
  | .moment m => (storedMoment utc m).map .text
  | .list items => (itemsWithStored utc items).map .list
  | .tuple items => (itemsWithStored utc items).map .tuple
  | .set items => (itemsWithStored utc items).map .set
  | .record fields => (fieldsWithStored utc fields).map .record
  | v => .ok v

/-- Items with the moments in them replaced. -/
def itemsWithStored (utc : Bool) : List Value → Except Error (List Value)
  | [] => .ok []
  | v :: vs => do return (← withStored utc v) :: (← itemsWithStored utc vs)

/-- Fields with the moments in them replaced. -/
def fieldsWithStored (utc : Bool) : List (String × Value) → Except Error (List (String × Value))
  | [] => .ok []
  | (k, v) :: rest => do return (k, ← withStored utc v) :: (← fieldsWithStored utc rest)

end

/-- Whether moments are stored with one text in UTC and for a setting. -/
def StoredAlike (utc : Bool) (ms : List Moment) : Prop :=
  ∀ m ∈ ms, storedMoment true m = storedMoment utc m

/-- Moments are stored alike if those of both parts are. -/
theorem storedAlike_append {ms ns : List Moment} :
    StoredAlike utc (ms ++ ns) ↔ StoredAlike utc ms ∧ StoredAlike utc ns := List.forall_mem_append

variable {room : Nat} {v : Value} {vs ws : List Value} {js : List (Json String)}

/-- Containers that are both written are written with the same room for what is in them. -/
theorem of_inside {α β : Type} {f g : Nat → Except Error α} {mk : α → β} {j k : β}
    (hj : inside room (fun room => (f room).map mk) = .ok j)
    (hk : inside room (fun room => (g room).map mk) = .ok k) :
    ∃ inner js ks, f inner = .ok js ∧ g inner = .ok ks ∧ mk js = j ∧ mk ks = k := by
  cases room with
  | zero => exact nomatch hj
  | succ room =>
    obtain ⟨js, hjs, rfl⟩ := map_eq_ok.mp hj
    obtain ⟨ks, hks, rfl⟩ := map_eq_ok.mp hk
    exact ⟨room, js, ks, hjs, hks, rfl, rfl⟩

/-- Items have JSON values exactly if the first and the others have. -/
theorem itemsToJson_cons_eq_ok :
    itemsToJson room (v :: vs) = .ok js ↔
      ∃ j rest, toJson room v = .ok j ∧ itemsToJson room vs = .ok rest ∧ j :: rest = js := by
  rw [itemsToJson]
  cases toJson room v <;> cases itemsToJson room vs <;> simp

/-- Fields have JSON values exactly if the first and the others have. -/
theorem fieldsToJson_cons_eq_ok {k : String} {fs : List (String × Value)} {gs : List (String × Json String)} :
    fieldsToJson room ((k, v) :: fs) = .ok gs ↔
      ∃ j rest, toJson room v = .ok j ∧ fieldsToJson room fs = .ok rest ∧ (k, j) :: rest = gs := by
  rw [fieldsToJson]
  cases toJson room v <;> cases fieldsToJson room fs <;> simp

/-- The stored form of items is made one by one. -/
theorem itemsWithStored_cons_eq_ok :
    itemsWithStored utc (v :: vs) = .ok ws ↔
      ∃ w rest, withStored utc v = .ok w ∧ itemsWithStored utc vs = .ok rest ∧ w :: rest = ws := by
  simp only [itemsWithStored, bind_eq_ok, pure_eq_ok]
  tauto

/-- The stored form of fields is made one by one. -/
theorem fieldsWithStored_cons_eq_ok {k : String} {fs gs : List (String × Value)} :
    fieldsWithStored utc ((k, v) :: fs) = .ok gs ↔
      ∃ w rest, withStored utc v = .ok w ∧ fieldsWithStored utc fs = .ok rest ∧ (k, w) :: rest = gs := by
  simp only [fieldsWithStored, bind_eq_ok, pure_eq_ok]
  tauto

/-! ### Where moments are stored alike, so are values -/

mutual

/-- What is stored of a value is what is stored of the value with stored moments. -/
theorem toJson_withStored : ∀ {v w : Value} (room : Nat),
    withStored utc v = .ok w → StoredAlike utc v.moments → toJson room w = toJson room v
  | .moment m, w, room, hw, halike => by
    obtain ⟨s, hs, rfl⟩ := map_eq_ok.mp hw
    have hsame := halike m (List.mem_singleton.mpr rfl)
    rw [hs] at hsame
    rw [toJson, toJson, hsame]
    rfl
  | .list items, w, room, hw, halike => by
    obtain ⟨ws, hws, rfl⟩ := map_eq_ok.mp hw
    have hitems (room : Nat) := itemsToJson_withStored room hws halike
    simp only [toJson, hitems]
  | .tuple items, w, room, hw, halike => by
    obtain ⟨ws, hws, rfl⟩ := map_eq_ok.mp hw
    have hitems (room : Nat) := itemsToJson_withStored room hws halike
    simp only [toJson, hitems]
  | .set items, w, room, hw, halike => by
    obtain ⟨ws, hws, rfl⟩ := map_eq_ok.mp hw
    have hitems (room : Nat) := itemsToJson_withStored room hws halike
    simp only [toJson, hitems]
  | .record fields, w, room, hw, halike => by
    obtain ⟨ws, hws, rfl⟩ := map_eq_ok.mp hw
    have hfields (room : Nat) := fieldsToJson_withStored room hws halike
    simp only [toJson, hfields]
  | .null, _, _, rfl, _ | .unset, _, _, rfl, _ | .bool _, _, _, rfl, _ | .int _, _, _, rfl, _
  | .real _, _, _, rfl, _ | .decimal _, _, _, rfl, _ | .text _, _, _, rfl, _ | .bytes _, _, _, rfl, _
  | .buffer _, _, _, rfl, _ | .date _, _, _, rfl, _ => rfl

/-- Items whose moments are stored alike have the same JSON values in stored form. -/
theorem itemsToJson_withStored : ∀ {vs ws : List Value} (room : Nat), itemsWithStored utc vs = .ok ws →
    StoredAlike utc (itemMoments vs) → itemsToJson room ws = itemsToJson room vs
  | [], _, _, rfl, _ => rfl
  | v :: vs, _, room, hws, halike => by
    obtain ⟨w, rest, hw, hrest, rfl⟩ := itemsWithStored_cons_eq_ok.mp hws
    obtain ⟨hv, hvs⟩ := storedAlike_append.mp halike
    rw [itemsToJson, itemsToJson, toJson_withStored room hw hv, itemsToJson_withStored room hrest hvs]

/-- Fields whose moments are stored alike have the same JSON values in stored form. -/
theorem fieldsToJson_withStored : ∀ {fs gs : List (String × Value)} (room : Nat),
    fieldsWithStored utc fs = .ok gs → StoredAlike utc (fieldMoments fs) →
    fieldsToJson room gs = fieldsToJson room fs
  | [], _, _, rfl, _ => rfl
  | (k, v) :: fs, _, room, hgs, halike => by
    obtain ⟨w, rest, hw, hrest, rfl⟩ := fieldsWithStored_cons_eq_ok.mp hgs
    obtain ⟨hv, hfs⟩ := storedAlike_append.mp halike
    rw [fieldsToJson, fieldsToJson, toJson_withStored room hw hv, fieldsToJson_withStored room hrest hfs]

end

/-! ### Where the texts are the same, moments are stored alike -/

variable {ks : List (Json String)} {r r' : List Glyph}

/-- The text of the items of an array after its first bracket, with the closing bracket. -/
def itemGlyphs (js : List (Json String)) : List Glyph := Json.writeItems (js.map Json.tree)

/-- The text of the fields of an object after its first brace, with the closing brace. -/
def fieldGlyphs (js : List (String × Json String)) : List Glyph :=
  Json.writeFields (js.map fun f => (glyphs f.1.toList, f.2.tree))

/-- The texts of two arrays go on alike behind the first bracket. -/
theorem of_write_array (hws : itemsWithStored utc vs = .ok ws) (hjs : itemsToJson room vs = .ok js)
    (hks : itemsToJson room ws = .ok ks)
    (h : (Json.array js).tree.write ++ r = (Json.array ks).tree.write ++ r') :
    itemGlyphs js ++ r = itemGlyphs ks ++ r' := by
  cases vs with
  | nil =>
    obtain rfl := Except.ok.inj hws
    obtain rfl := Except.ok.inj hjs
    obtain rfl := Except.ok.inj hks
    simpa [Json.write, itemGlyphs, Json.writeItems] using h
  | cons v vs =>
    obtain ⟨w, rest, -, -, rfl⟩ := itemsWithStored_cons_eq_ok.mp hws
    obtain ⟨j, js, -, -, rfl⟩ := itemsToJson_cons_eq_ok.mp hjs
    obtain ⟨k, ks, -, -, rfl⟩ := itemsToJson_cons_eq_ok.mp hks
    simpa [Json.write, itemGlyphs, Json.writeItems] using h

/-- The texts of two objects go on alike behind the first brace. -/
theorem of_write_object {fs gs : List (String × Value)} {js ks : List (String × Json String)}
    (hgs : fieldsWithStored utc fs = .ok gs) (hjs : fieldsToJson room fs = .ok js)
    (hks : fieldsToJson room gs = .ok ks)
    (h : (Json.object js).tree.write ++ r = (Json.object ks).tree.write ++ r') :
    fieldGlyphs js ++ r = fieldGlyphs ks ++ r' := by
  cases fs with
  | nil =>
    obtain rfl := Except.ok.inj hgs
    obtain rfl := Except.ok.inj hjs
    obtain rfl := Except.ok.inj hks
    simpa [Json.write, fieldGlyphs, Json.writeFields] using h
  | cons f fs =>
    obtain ⟨w, rest, -, -, rfl⟩ := fieldsWithStored_cons_eq_ok.mp hgs
    obtain ⟨j, js, -, -, rfl⟩ := fieldsToJson_cons_eq_ok.mp hjs
    obtain ⟨k, ks, -, -, rfl⟩ := fieldsToJson_cons_eq_ok.mp hks
    simpa [Json.write, fieldGlyphs, Json.writeFields] using h

mutual

/-- Where the text of a value begins like that of the value with stored moments, they are the same
text, and the moments are stored alike. -/
theorem storedAlike_of_write : ∀ {v w : Value} {j k : Json String} {r r' : List Glyph} {room : Nat},
    withStored utc v = .ok w → toJson room v = .ok j → toJson room w = .ok k →
    j.tree.write ++ r = k.tree.write ++ r' → r = r' ∧ StoredAlike utc v.moments
  | .moment m, w, j, k, r, r', room, hw, hj, hk, h => by
    obtain ⟨s, hs, rfl⟩ := map_eq_ok.mp hw
    obtain ⟨t, ht, rfl⟩ := map_eq_ok.mp hj
    obtain rfl := Except.ok.inj hk
    obtain ⟨htext, hrest⟩ := Json.quote_append_inj (by simpa [Json.write] using h)
    obtain rfl := String.toList_injective (Json.glyphs_injective htext)
    exact ⟨hrest, List.forall_mem_singleton.mpr (ht.trans hs.symm)⟩
  | .list items, w, j, k, r, r', room, hw, hj, hk, h => by
    obtain ⟨ws, hws, rfl⟩ := map_eq_ok.mp hw
    rw [toJson] at hj hk
    obtain ⟨inner, js, ks, hjs, hks, rfl, rfl⟩ := of_inside hj hk
    exact storedAlike_of_itemGlyphs hws hjs hks (of_write_array hws hjs hks h)
  | .tuple items, w, j, k, r, r', room, hw, hj, hk, h => by
    obtain ⟨ws, hws, rfl⟩ := map_eq_ok.mp hw
    rw [toJson] at hj hk
    obtain ⟨inner, js, ks, hjs, hks, rfl, rfl⟩ := of_inside hj hk
    exact storedAlike_of_itemGlyphs hws hjs hks (of_write_array hws hjs hks h)
  | .set items, w, j, k, r, r', room, hw, hj, hk, h => by
    obtain ⟨ws, hws, rfl⟩ := map_eq_ok.mp hw
    rw [toJson] at hj hk
    obtain ⟨inner, js, ks, hjs, hks, rfl, rfl⟩ := of_inside hj hk
    exact storedAlike_of_itemGlyphs hws hjs hks (of_write_array hws hjs hks h)
  | .record fields, w, j, k, r, r', room, hw, hj, hk, h => by
    obtain ⟨gs, hgs, rfl⟩ := map_eq_ok.mp hw
    rw [toJson] at hj hk
    obtain ⟨inner, js, ks, hjs, hks, rfl, rfl⟩ := of_inside hj hk
    exact storedAlike_of_fieldGlyphs hgs hjs hks (of_write_object hgs hjs hks h)
  | .null, _, _, _, _, _, _, rfl, hj, hk, h | .unset, _, _, _, _, _, _, rfl, hj, hk, h
  | .bool _, _, _, _, _, _, _, rfl, hj, hk, h | .int _, _, _, _, _, _, _, rfl, hj, hk, h
  | .real _, _, _, _, _, _, _, rfl, hj, hk, h | .decimal _, _, _, _, _, _, _, rfl, hj, hk, h
  | .text _, _, _, _, _, _, _, rfl, hj, hk, h | .bytes _, _, _, _, _, _, _, rfl, hj, hk, h
  | .buffer _, _, _, _, _, _, _, rfl, hj, hk, h | .date _, _, _, _, _, _, _, rfl, hj, hk, h => by
    obtain rfl := Except.ok.inj (hj.symm.trans hk)
    exact ⟨List.append_cancel_left h, nofun⟩

/-- Items written in the same way have moments that are stored alike. -/
theorem storedAlike_of_itemGlyphs : ∀ {vs ws : List Value} {js ks : List (Json String)} {r r' : List Glyph}
    {room : Nat}, itemsWithStored utc vs = .ok ws → itemsToJson room vs = .ok js →
    itemsToJson room ws = .ok ks → itemGlyphs js ++ r = itemGlyphs ks ++ r' →
    r = r' ∧ StoredAlike utc (itemMoments vs)
  | [], _, _, _, _, _, _, rfl, hjs, hks, h => by
    obtain rfl := Except.ok.inj hjs
    obtain rfl := Except.ok.inj hks
    exact ⟨List.append_cancel_left h, nofun⟩
  | v :: vs, _, _, _, _, _, _, hws, hjs, hks, h => by
    obtain ⟨w, rest, hw, hrest, rfl⟩ := itemsWithStored_cons_eq_ok.mp hws
    obtain ⟨j, js, hj, hitems, rfl⟩ := itemsToJson_cons_eq_ok.mp hjs
    obtain ⟨k, ks, hk, hitems', rfl⟩ := itemsToJson_cons_eq_ok.mp hks
    obtain ⟨htail, hv⟩ := storedAlike_of_write hw hj hk (by simpa [itemGlyphs, Json.writeItems] using h)
    obtain ⟨hend, hvs⟩ := storedAlike_of_itemGlyphs hrest hitems hitems' htail
    exact ⟨hend, storedAlike_append.mpr ⟨hv, hvs⟩⟩

/-- Fields written in the same way have moments that are stored alike. -/
theorem storedAlike_of_fieldGlyphs : ∀ {fs gs : List (String × Value)} {js ks : List (String × Json String)}
    {r r' : List Glyph} {room : Nat}, fieldsWithStored utc fs = .ok gs → fieldsToJson room fs = .ok js →
    fieldsToJson room gs = .ok ks → fieldGlyphs js ++ r = fieldGlyphs ks ++ r' →
    r = r' ∧ StoredAlike utc (fieldMoments fs)
  | [], _, _, _, _, _, _, rfl, hjs, hks, h => by
    obtain rfl := Except.ok.inj hjs
    obtain rfl := Except.ok.inj hks
    exact ⟨List.append_cancel_left h, nofun⟩
  | (name, v) :: fs, _, _, _, _, _, _, hgs, hjs, hks, h => by
    obtain ⟨w, rest, hw, hrest, rfl⟩ := fieldsWithStored_cons_eq_ok.mp hgs
    obtain ⟨j, js, hj, hfields, rfl⟩ := fieldsToJson_cons_eq_ok.mp hjs
    obtain ⟨k, ks, hk, hfields', rfl⟩ := fieldsToJson_cons_eq_ok.mp hks
    obtain ⟨htail, hv⟩ := storedAlike_of_write hw hj hk (by simpa [fieldGlyphs, Json.writeFields] using h)
    obtain ⟨hend, hfs⟩ := storedAlike_of_fieldGlyphs hrest hfields hfields' htail
    exact ⟨hend, storedAlike_append.mpr ⟨hv, hfs⟩⟩

end

/-! ## Containers -/

/-- Whether the moments in a value have the same texts in UTC as for a setting: the setting is UTC,
or none has an offset other than zero. -/
def SuitsUtc (utc : Bool) (v : Value) : Prop := utc = true ∨ ∀ m ∈ v.moments, m.offset.getD 0 = 0

/-- The moments of a value are stored alike exactly if they suit the setting. -/
theorem storedAlike_iff (hvalid : ∀ m ∈ v.moments, m.isValid = true) :
    StoredAlike utc v.moments ↔ v.SuitsUtc utc := by
  cases utc with
  | true => exact iff_of_true (fun _ _ => rfl) (.inl rfl)
  | false =>
    have hsame : StoredAlike false v.moments ↔ ∀ m ∈ v.moments, m.offset.getD 0 = 0 :=
      forall₂_congr fun m hm => storedMoment_utc_eq_iff (hvalid m hm)
    simpa [SuitsUtc] using hsame

/-- A value has the JSON text of the value with stored moments exactly if UTC makes no
difference. -/
theorem jsonText_eq_ok_iff [Limits] {w : Value} {t : String} (hvalid : ∀ m ∈ v.moments, m.isValid = true)
    (hw : v.withStored utc = .ok w) (ht : jsonText w = .ok t) :
    jsonText v = .ok t ↔ v.SuitsUtc utc := by
  rw [← storedAlike_iff hvalid]
  constructor
  · intro hv
    obtain ⟨j, hj, hprint⟩ := map_eq_ok.mp hv
    obtain ⟨k, hk, rfl⟩ := map_eq_ok.mp ht
    have htext : j.tree.write ++ [] = k.tree.write ++ [] := by
      rw [← Json.glyphs_print, ← Json.glyphs_print, hprint]
    exact (storedAlike_of_write hw hj hk htext).2
  · intro halike
    rw [jsonText, ← toJson_withStored Limits.depth hw halike]
    exact ht

/-- Whether a value holds other values. -/
def isContainer : Value → Bool
  | .list _ => true
  | .tuple _ => true
  | .set _ => true
  | .record _ => true
  | _ => false

/-- Whether a value is bound as JSON text. -/
def isBoundAsJson : Value → Bool
  | .list _ => true
  | .record _ => true
  | _ => false

/-- What is bound as JSON has its JSON text as parameter. -/
theorem parameter_eq_jsonText [Limits] (h : v.isBoundAsJson = true) (utc : Bool) :
    parameter utc v = (jsonText v).map .text := by
  cases v <;> first | exact absurd h Bool.false_ne_true | rfl

/-- An outcome is a text exactly if it was one before. -/
theorem map_text_eq_ok_iff {r : Except Error String} {t : String} :
    r.map Value.text = .ok (.text t) ↔ r = .ok t := by
  cases r <;> simp [Except.map]

end Value

namespace Codec

variable {c : Codec} {column : String} {v w : Value} {t : String}

/-- A container is stored in a JSON column as its JSON text. -/
theorem encode_eq_jsonText [Limits] (h : v.isContainer = true) (hkind : c.kindOf? column = some .json) :
    c.encode column v = (Value.jsonText v).map .text := by
  rw [encode, hkind]
  cases v <;> first | exact absurd h Bool.false_ne_true | rfl

/-- Let a container whose moments are stored one by one have a JSON text. Wherever a container is
stored as JSON text, in a column of JSON or of no kind that says otherwise and as a parameter, it
has this text exactly if UTC makes no difference to its moments. -/
theorem encode_withStored_iff [Limits] (hvalid : ∀ m ∈ v.moments, m.isValid = true)
    (hw : v.withStored c.utc = .ok w) (ht : w.jsonText = .ok t) :
    (v.isContainer = true → c.kindOf? column = some .json →
        (c.encode column v = .ok (.text t) ↔ v.SuitsUtc c.utc)) ∧
      (v.isBoundAsJson = true → c.kindOf? column = none ∨ c.kindOf? column = some .date →
        (c.encode column v = .ok (.text t) ↔ v.SuitsUtc c.utc)) ∧
      (v.isBoundAsJson = true → (Value.parameter c.utc v = .ok (.text t) ↔ v.SuitsUtc c.utc)) := by
  have htext : (Value.jsonText v).map Value.text = .ok (.text t) ↔ v.SuitsUtc c.utc :=
    Value.map_text_eq_ok_iff.trans (Value.jsonText_eq_ok_iff hvalid hw ht)
  refine ⟨fun hcontainer hkind => ?_, fun hbound hkind => ?_, fun hbound => ?_⟩
  · rw [encode_eq_jsonText hcontainer hkind, htext]
  · have hparameter : c.encode column v = Value.parameter c.utc v := by
      rw [encode]
      obtain hkind | hkind := hkind <;> rw [hkind] <;> rfl
    rw [hparameter, Value.parameter_eq_jsonText hbound, htext]
  · rw [Value.parameter_eq_jsonText hbound, htext]

/-- A morning in Tokyo. -/
def tokyoMorning : Moment := ⟨⟨2024, 1, 2⟩, 3, 4, 5, 0, some 32400⟩

/-- A codec with one column of JSON. -/
def seenCodec (utc : Bool) : Codec := ⟨["seen"], [], [("seen", .json)], utc, true⟩

/-- A list with a record with a moment in it, in a column of JSON that is written in UTC. -/
theorem encode_withStored_utc :
    let v : Value := .list [.record [("at", .moment tokyoMorning)]]
    let w : Value := .list [.record [("at", .text "2024-01-01 18:04:05")]]
    (∀ m ∈ v.moments, m.isValid = true) ∧ v.withStored (seenCodec true).utc = .ok w ∧
      ∃ t, w.jsonText = .ok t ∧ (seenCodec true).encode "seen" v = .ok (.text t) := by
  intro v w
  have hvalid : ∀ m ∈ v.moments, m.isValid = true := by decide
  have hw : v.withStored (seenCodec true).utc = .ok w := rfl
  have hkind : (seenCodec true).kindOf? "seen" = some .json := by decide
  have ht : w.jsonText = .ok (Json.print (.array [.object [("at", .text "2024-01-01 18:04:05")]])) := rfl
  exact ⟨hvalid, hw, _, ht, ((encode_withStored_iff hvalid hw ht).1 rfl hkind).mpr (.inl rfl)⟩

/-- Where moments are to be written as they are shown, one in a record is still moved to UTC. -/
theorem encode_moves_inner_moment :
    Value.storedMoment (seenCodec false).utc tokyoMorning = .ok "2024-01-02 03:04:05" ∧
      (seenCodec false).encode "seen" (.record [("at", .moment tokyoMorning)]) =
        .ok (.text "\x7b\"at\": \"2024-01-01 18:04:05\"\x7d") ∧
      Value.parameter (seenCodec false).utc (.record [("at", .moment tokyoMorning)]) =
        .ok (.text "\x7b\"at\": \"2024-01-01 18:04:05\"\x7d") := ⟨rfl, rfl, rfl⟩

end Codec

end Quarry
