import Quarry.Proofs.Row.Held
import Quarry.Proofs.Row.RoundTrip
import Quarry.Proofs.Sql.Encoding
import Quarry.Proofs.Time.Stored

/-!
# Filters by what was stored

A filter by a value binds the value's parameter, whatever the kind of the column; what an insert
stores does depend on the kind. Both come to the same for the values that `Codec.isFoundAs` lists,
kind by kind. In a column of truth values these are the numbers 0 and 1 alone: anything else is
stored as one of them and bound as it is. In a column of JSON it is texts and records, in a column
of texts everything but moments, dates and records. A number that is none equals nothing, not even
itself.

A key may also give way to another one with the same column. Then its value is not stored at all,
and a filter by it matches only a truth value that was left at 0.
-/

set_option autoImplicit false

namespace Quarry

open Text.Name (toSnake)

/-! ## Equality -/

namespace Value

/-- Whether the value is a number that is none. -/
def isNaN : Value → Bool
  | .real (.nan _) => true
  | .decimal (.nan ..) => true
  | _ => false

/-- Whether a value is equal to another one that may be the same. What is no number is not even
equal to itself. -/
def Equals (v w : Value) : Prop := v.isNaN = false ∧ (v = w ∨ same v w = true)

variable {utc : Bool} {v w p : Value} {k : Int}

/-- A value equals itself unless it is undefined. -/
theorem equals_self_iff : Equals v v ↔ v.isNaN = false := by simp [Equals]

/-- An integer equals itself. -/
theorem same_int_self (k : Int) : same (.int k) (.int k) = true := by
  unfold same
  rw [same?_self (.int k) rfl]
  rfl

/-- What equals an integer is defined. -/
theorem isNaN_of_same_int (h : same v (.int k) = true) : v.isNaN = false := by
  cases v with
  | real x =>
    cases x with
    | nan constant => cases constant <;> exact absurd h Bool.false_ne_true
    | _ => rfl
  | decimal d =>
    cases d with
    | nan s signaling payload => cases signaling <;> exact absurd h Bool.false_ne_true
    | _ => rfl
  | _ => rfl

/-- Equality with an integer is that of the values. -/
theorem equals_int_iff : Equals v (.int k) ↔ same v (.int k) = true := by
  constructor
  · rintro ⟨-, rfl | h⟩
    · exact same_int_self k
    · exact h
  · intro h
    exact ⟨isNaN_of_same_int h, .inr h⟩

/-- Whether a value is one that nothing else is equal to. -/
def isAlone : Value → Bool
  | .null => true
  | .unset => true
  | .text _ => true
  | _ => false

/-- A value that stands alone equals only itself. -/
theorem equals_iff_eq (hw : w.isAlone = true) : Equals v w ↔ v = w := by
  constructor
  · rintro ⟨-, h | h⟩
    · exact h
    · cases w <;> first
        | exact absurd hw Bool.false_ne_true
        | cases v <;> simp_all [same, same?, sameNumber?, sameReal?, numeric?, sameBytes]
  · rintro rfl
    refine equals_self_iff.mpr ?_
    cases v <;> first | rfl | exact absurd hw Bool.false_ne_true

/-- Whether a value is bound as a text that stands for it. -/
def isWritten : Value → Bool
  | .moment _ => true
  | .date _ => true
  | .record _ => true
  | .list _ => true
  | _ => false

/-- A value is bound as a text, as a number or as it is. -/
theorem parameter_cases (h : parameter utc v = .ok p) :
    (v.isWritten = true ∧ ∃ t, p = .text t) ∨ (∃ b, v = .bool b ∧ p = .int (if b then 1 else 0)) ∨
      (v.isWritten = false ∧ p = v) := by
  cases v with
  | bool b => exact .inr (.inl ⟨b, rfl, (Except.ok.inj h).symm⟩)
  | moment m =>
    obtain ⟨t, -, rfl⟩ := map_eq_ok.mp h
    exact .inl ⟨rfl, t, rfl⟩
  | date d => exact .inl ⟨rfl, _, (Except.ok.inj h).symm⟩
  | record fields =>
    obtain ⟨t, -, rfl⟩ := map_eq_ok.mp h
    exact .inl ⟨rfl, t, rfl⟩
  | list items =>
    obtain ⟨t, -, rfl⟩ := map_eq_ok.mp h
    exact .inl ⟨rfl, t, rfl⟩
  | _ => exact .inr (.inr ⟨rfl, (Except.ok.inj h).symm⟩)

/-- A parameter is the number that its value is. -/
theorem same_parameter_int (h : parameter utc v = .ok p) : same p (.int k) = same v (.int k) := by
  obtain ⟨hwritten, t, rfl⟩ | ⟨b, rfl, rfl⟩ | ⟨-, rfl⟩ := parameter_cases h
  · cases v <;> first | rfl | exact absurd hwritten Bool.false_ne_true
  · simp [same, same?, sameNumber?, numeric?, isSignaling]
  · rfl

/-- A parameter is undefined if its value is. -/
theorem isNaN_parameter (h : parameter utc v = .ok p) : p.isNaN = v.isNaN := by
  obtain ⟨hwritten, t, rfl⟩ | ⟨b, rfl, rfl⟩ | ⟨-, rfl⟩ := parameter_cases h
  · cases v <;> first | rfl | exact absurd hwritten Bool.false_ne_true
  · rfl
  · rfl

/-- A parameter equals an integer if its value does. -/
theorem equals_parameter_int (h : parameter utc v = .ok p) : Equals p (.int k) ↔ same v (.int k) = true := by
  rw [equals_int_iff, same_parameter_int h]

end Value

/-! ## Truth values -/

namespace Number.Exact

variable {x : Exact}

/-- What equals 0 is zero. -/
theorem isZero_of_equal_zero (h : x.equal (.ofInt 0) = true) : x.isZero = true := by
  cases x with
  | undefined => exact absurd h Bool.false_ne_true
  | infinite negative => cases negative <;> exact absurd h Bool.false_ne_true
  | finite negative c e =>
    cases c with
    | zero => rfl
    | succ c => cases negative <;> simp [equal, compare?, ofInt, compareSizes] at h

/-- What equals 1 is not zero. -/
theorem isZero_of_equal_one (h : x.equal (.ofInt 1) = true) : x.isZero = false := by
  cases x with
  | finite negative c e =>
    cases c with
    | zero => cases negative <;> simp [equal, compare?, ofInt, compareSizes] at h
    | succ c => rfl
  | _ => rfl

end Number.Exact

namespace Value

variable {v : Value} {x : Number.Exact} {k : Int}

/-- What equals an integer is a number. -/
theorem exists_numeric_of_same (h : same v (.int k) = true) :
    ∃ x, v.numeric? = some x ∧ x.equal (.ofInt k) = true := by
  cases v <;> simp_all [same, same?, sameNumber?, sameReal?, numeric?, sameBytes, isSignaling]

/-- A number stands for a truth value by whether it is zero. -/
theorem readFlag_of_numeric {o : Option Bool} (hx : v.numeric? = some x) (h : readFlag v = .ok o) :
    o = some !x.isZero := by
  cases v with
  | bool b =>
    obtain rfl := Except.ok.inj h
    obtain rfl := Option.some.inj hx
    cases b <;> rfl
  | int n =>
    obtain rfl := Except.ok.inj h
    obtain rfl := Option.some.inj hx
    simp [isTrue, Number.Exact.ofInt, Number.Exact.isZero, bne]
  | real r =>
    obtain rfl := Except.ok.inj h
    obtain rfl := Option.some.inj hx
    rfl
  | decimal d =>
    obtain rfl := Option.some.inj hx
    rw [readFlag] at h
    split_ifs at h
    · obtain rfl := Except.ok.inj h
      cases d <;> rfl
    · cases h
  | _ => cases hx

end Value

/-! ## JSON text -/

/-- The stored text of a date has no quote in front. -/
theorem Time.Date.stored_ne_quoted (d : Time.Date) (back rest : List Char) :
    d.stored.toList ++ back ≠ '"' :: rest := by
  intro h
  rw [Time.Date.stored, String.toList_ofList] at h
  cases hyear : Number.padded 1 d.year with
  | nil =>
    rw [hyear] at h
    exact absurd (List.head_eq_of_cons_eq h) (by decide)
  | cons first digits =>
    rw [hyear] at h
    obtain rfl : first = '"' := List.head_eq_of_cons_eq h
    have hdigit := Number.isAsciiDigit_of_mem_padded (hyear ▸ List.mem_cons_self)
    exact absurd hdigit (by decide)

/-- The JSON text of a text begins with a quotation mark. -/
theorem Json.toList_print_text (s : String) : ∃ rest, (Json.print (.text s)).toList = '"' :: rest := by
  have hwritten := glyphs_print (.text s)
  rw [tree_text, write, quote_glyphs] at hwritten
  exact ⟨_, glyphs_injective hwritten⟩

/-- The stored text of a moment is no JSON text of a text. -/
theorem Value.storedMoment_ne_print {utc : Bool} {m : Time.Moment} {t : String} (s : String)
    (h : Value.storedMoment utc m = .ok t) : t ≠ Json.print (.text s) := by
  have hshown : ∃ u : Time.Moment, t = String.ofList u.storedChars := by
    unfold Value.storedMoment Time.Moment.stored? at h
    split at h
    · rename_i shown hshown
      obtain rfl := Except.ok.inj h
      split_ifs at hshown
      · obtain ⟨u, -, rfl⟩ := Option.map_eq_some_iff.mp hshown
        exact ⟨u, rfl⟩
      · exact ⟨m, (Option.some.inj hshown).symm⟩
    · cases h
  obtain ⟨u, rfl⟩ := hshown
  intro hequal
  obtain ⟨rest, hrest⟩ := Json.toList_print_text s
  rw [← hequal, String.toList_ofList] at hrest
  exact Time.Date.stored_ne_quoted u.date _ rest hrest

/-- No stored date is the JSON text of a text. -/
theorem Time.Date.stored_ne_print (d : Time.Date) (s : String) : d.stored ≠ Json.print (.text s) := by
  intro hequal
  obtain ⟨rest, hrest⟩ := Json.toList_print_text s
  rw [← hequal] at hrest
  exact d.stored_ne_quoted [] rest (by rw [List.append_nil, hrest])

namespace Codec

variable {c : Codec} {utc : Bool} {kind : Option Kind} {v stored bound : Value}

/-- Whether a value of a kind is bound as what is stored for it. -/
def isFoundAs (kind : Option Kind) (v : Value) : Bool :=
  match kind, v with
  | some .boolean, v => Value.same v (.int 0) || Value.same v (.int 1)
  | some .json, .text _ => true
  | some .json, .record _ => true
  | some .json, _ => false
  | some .text, v => !v.isWritten && !v.isNaN
  | _, v => !v.isNaN

/-- Whether a key gives way to another one that has the same column. A key that is the name of its
column is a second name of the value for the others. -/
def givesWay (c : Codec) (key : String) : Bool := c.keyOf? (toSnake key) != some key && key != toSnake key

/-- Whether a filter by a value finds what is stored for it under a key. -/
def isFound (c : Codec) (key : String) (v : Value) : Bool :=
  if c.givesWay key then
    c.kindOf? (toSnake key) == some .boolean && !c.isAutoSet (toSnake key) && Value.same v (.int 0)
  else isFoundAs (c.kindOf? (toSnake key)) v

/-- In a text column a value is found if it is stored as it is bound. -/
theorem equals_text_kind (hbound : Value.parameter utc v = .ok bound) :
    Value.Equals bound v ↔ isFoundAs (some .text) v = true := by
  have hfound : isFoundAs (some .text) v = (!v.isWritten && !v.isNaN) := rfl
  rw [hfound]
  obtain ⟨hwritten, t, rfl⟩ | ⟨b, rfl, rfl⟩ | ⟨hwritten, rfl⟩ := Value.parameter_cases hbound
  · rw [hwritten]
    cases v <;> simp_all [Value.Equals, Value.same, Value.same?, Value.isWritten]
  · cases b <;> simp [Value.Equals, Value.isNaN, Value.isWritten] <;> decide
  · rw [hwritten, Value.equals_self_iff]
    simp

/-- In a column of truth values 0 or 1 is stored, and only these two are bound as one of them. -/
theorem equals_boolean_kind (hbound : Value.parameter utc v = .ok bound)
    (hstored : encodeAs utc (some .boolean) v = .ok stored) :
    Value.Equals bound stored ↔ isFoundAs (some .boolean) v = true := by
  obtain ⟨o, hflag, rfl⟩ := map_eq_ok.mp hstored
  have hfound : isFoundAs (some .boolean) v = (Value.same v (.int 0) || Value.same v (.int 1)) := rfl
  rw [hfound, Value.equals_parameter_int hbound, Bool.or_eq_true]
  constructor
  · intro h
    split_ifs at h
    · exact .inr h
    · exact .inl h
  · rintro (h | h)
    · obtain ⟨x, hx, hequal⟩ := Value.exists_numeric_of_same h
      obtain rfl := Value.readFlag_of_numeric hx hflag
      rwa [Number.Exact.isZero_of_equal_zero hequal]
    · obtain ⟨x, hx, hequal⟩ := Value.exists_numeric_of_same h
      obtain rfl := Value.readFlag_of_numeric hx hflag
      rwa [Number.Exact.isZero_of_equal_one hequal]

/-- A value that is neither NULL nor a text is stored as its JSON text. -/
theorem encodeAs_json (hnull : v ≠ .null) (htext : ∀ s, v ≠ .text s) :
    encodeAs utc (some .json) v = (Value.jsonText v).map .text := by
  cases v with
  | null => exact absurd rfl hnull
  | text s => exact absurd rfl (htext s)
  | _ => rfl

/-- In a column of JSON the JSON text is stored, and bound only for records. -/
theorem equals_json_kind (hplain : Sql.IsPlain v) (hbound : Value.parameter utc v = .ok bound)
    (hstored : encodeAs utc (some .json) v = .ok stored) :
    Value.Equals bound stored ↔ isFoundAs (some .json) v = true := by
  by_cases htext : ∃ s, v = .text s
  · obtain ⟨s, rfl⟩ := htext
    obtain rfl := Except.ok.inj hbound
    obtain rfl := Except.ok.inj hstored
    simp [Value.equals_self_iff, Value.isNaN, isFoundAs]
  · have hnull : v ≠ .null := by
      rintro rfl
      exact hplain
    rw [encodeAs_json hnull fun s hs => htext ⟨s, hs⟩] at hstored
    obtain ⟨t, ht, rfl⟩ := map_eq_ok.mp hstored
    rw [Value.equals_iff_eq rfl]
    cases v with
    | text s => exact absurd ⟨s, rfl⟩ htext
    | list items => exact hplain.elim
    | record fields =>
      obtain rfl : bound = .text t := Except.ok.inj (hbound.symm.trans hstored)
      simp [isFoundAs]
    | moment m =>
      obtain ⟨j, hj, rfl⟩ := map_eq_ok.mp ht
      obtain ⟨shown, -, rfl⟩ := map_eq_ok.mp hj
      obtain ⟨s, hs, rfl⟩ := map_eq_ok.mp hbound
      simp [isFoundAs, Value.storedMoment_ne_print shown hs]
    | date d =>
      obtain ⟨j, hj, rfl⟩ := map_eq_ok.mp ht
      obtain rfl := Except.ok.inj hj
      obtain rfl := Except.ok.inj hbound
      simp [isFoundAs, d.stored_ne_print]
    | _ =>
      obtain rfl := Except.ok.inj hbound
      simp [isFoundAs]

/-- A parameter is what is stored for its value in a column of a kind exactly if the value is found
as one of that kind. -/
theorem equals_encodeAs (hplain : Sql.IsPlain v) (hbound : Value.parameter utc v = .ok bound)
    (hstored : encodeAs utc kind v = .ok stored) :
    Value.Equals bound stored ↔ isFoundAs kind v = true := by
  have hsame (hparameter : encodeAs utc kind v = Value.parameter utc v)
      (hfound : isFoundAs kind v = !v.isNaN) :
      Value.Equals bound stored ↔ isFoundAs kind v = true := by
    obtain rfl : bound = stored := Except.ok.inj (hbound.symm.trans (hparameter.symm.trans hstored))
    rw [Value.equals_self_iff, Value.isNaN_parameter hbound, hfound, Bool.not_eq_true']
  cases kind with
  | none => exact hsame rfl rfl
  | some kind =>
    cases kind with
    | date => exact hsame rfl rfl
    | boolean => exact equals_boolean_kind hbound hstored
    | json => exact equals_json_kind hplain hbound hstored
    | text =>
      obtain rfl := Except.ok.inj hstored
      exact equals_text_kind hbound

/-! ## Statements -/

variable {key last : String} {row : Record}

/-- The value in a record of a single field. -/
theorem getD_single (name key : String) (v : Value) :
    Record.getD name [(key, v)] = if key = name then v else .unset := by
  by_cases h : key = name <;> simp [Record.getD, Record.get?, h]

/-- The last key of a column finds the value of a single key unless that one gives way. -/
theorem valueOf_single (hv : v.isUnset = false) (hlast : c.keyOf? (toSnake key) = some last) :
    valueOf (.record [(key, v)]) last (toSnake key) = .ok (if c.givesWay key then .unset else v) := by
  rw [valueOf_record, getD_single, getD_single]
  unfold givesWay
  rw [hlast]
  by_cases hself : key = last
  · subst hself
    simp [hv]
  · have hother : (some last != some key) = true := by simpa using Ne.symm hself
    rw [if_neg hself, hother, Bool.true_and]
    by_cases hcolumn : key = toSnake key
    · have hlong : last ≠ toSnake key := fun h => hself (hcolumn.trans h.symm)
      have hbne : (key != toSnake key) = false := bne_eq_false_iff_eq.mpr hcolumn
      rw [if_neg hlong, if_pos hcolumn, hbne]
      rfl
    · have hbne : (key != toSnake key) = true := bne_iff_ne.mpr hcolumn
      rw [if_neg hcolumn, ite_self, hbne]
      rfl

/-- What a full row holds for the value of a single key. A key that gives way is stored as if it
were not there. -/
theorem exists_stored (hkey : key ∈ c.keys) (hv : v.isUnset = false)
    (hrow : c.toRow (.record [(key, v)]) false false = .ok row) :
    ∃ stored, Record.get? (toSnake key) row = some stored ∧
      if c.givesWay key then
        if c.isAutoSet (toSnake key) then stored = .unset else c.encode (toSnake key) .null = .ok stored
      else c.encode (toSnake key) v = .ok stored := by
  obtain ⟨last, hlast⟩ := exists_keyOf? (List.mem_map.mpr ⟨key, hkey, rfl⟩)
  obtain ⟨stored, hstored, hget⟩ := get?_toRow hrow hlast
  refine ⟨stored, hget, ?_⟩
  simp only [encodeKey, Bool.false_and, Bool.false_eq_true, if_false] at hstored
  obtain ⟨value, hvalue, hencoded⟩ := bind_eq_ok.mp hstored
  rw [valueOf_single hv hlast] at hvalue
  obtain rfl := Except.ok.inj hvalue
  cases hgives : c.givesWay key with
  | true =>
    rw [hgives, if_pos rfl] at hencoded
    dsimp only at hencoded
    rw [if_pos rfl]
    split_ifs at hencoded ⊢ with hauto
    · exact (Option.some.inj (pure_eq_ok.mp hencoded)).symm
    · obtain ⟨w, hw, hsome⟩ := bind_eq_ok.mp hencoded
      rwa [← Option.some.inj (pure_eq_ok.mp hsome)]
  | false =>
    rw [hgives, if_neg Bool.false_ne_true] at hencoded
    rw [if_neg Bool.false_ne_true]
    have hgiven : (do return some (← c.encode (toSnake key) v)) = Except.ok (some stored) := by
      cases v with
      | unset => exact absurd hv.symm Bool.false_ne_true
      | _ => exact hencoded
    obtain ⟨w, hw, hsome⟩ := bind_eq_ok.mp hgiven
    rwa [← Option.some.inj (pure_eq_ok.mp hsome)]

variable {d : Sql.Dialect} {owner : Value} {f : Sql.Filter}

/-- A filter by one value binds the value's parameter. -/
theorem exists_bound (hplain : Sql.IsPlain v)
    (hf : Sql.Filter.compile d owner utc (.record [(key, v)]) [] = .ok f) :
    ∃ bound, Value.parameter utc v = .ok bound ∧ Sql.Fragment.params (f.fragment d) = [bound] := by
  obtain ⟨fields, hfields, hmain⟩ := bind_eq_ok.mp hf
  obtain rfl : [(key, v)] = fields := Except.ok.inj hfields
  obtain ⟨atoms, hatoms, hgroups⟩ := bind_eq_ok.mp hmain
  obtain rfl : (⟨atoms, []⟩ : Sql.Filter) = f := Except.ok.inj hgroups
  obtain ⟨entry, hentry, hrest⟩ := bind_eq_ok.mp hatoms
  obtain ⟨column, bound, -, hbound, rfl⟩ := Sql.entryAtom_plain hplain hentry
  obtain rfl := Except.ok.inj hrest
  refine ⟨bound, hbound, ?_⟩
  rw [Sql.Filter.params_eq]
  rfl

/-- A plain value is bound to something that is given. -/
theorem parameter_given (hplain : Sql.IsPlain v) (hbound : Value.parameter utc v = .ok bound) :
    bound ≠ .null ∧ bound ≠ .unset := by
  obtain ⟨-, t, rfl⟩ | ⟨b, rfl, rfl⟩ | ⟨-, rfl⟩ := Value.parameter_cases hbound
  · exact ⟨nofun, nofun⟩
  · exact ⟨nofun, nofun⟩
  · constructor <;> (rintro rfl; exact hplain)

/-- A value that was not given is stored as NULL, in a column of truth values as 0. -/
theorem equals_absent (hbound : Value.parameter utc v = .ok bound) (hnull : bound ≠ .null)
    (hstored : encodeAs utc kind .null = .ok stored) :
    Value.Equals bound stored ↔ (kind == some .boolean && Value.same v (.int 0)) = true := by
  by_cases hkind : kind = some .boolean
  · subst hkind
    obtain rfl := Except.ok.inj hstored
    exact Value.equals_parameter_int hbound
  · have hplain : encodeAs utc kind .null = .ok .null := by
      cases kind with
      | none => rfl
      | some kind => cases kind <;> first | rfl | exact absurd rfl hkind
    obtain rfl := Except.ok.inj (hplain.symm.trans hstored)
    rw [Value.equals_iff_eq rfl]
    simp [hnull, hkind]

/-- For a value that is compared with as a whole, the parameter of a filter by it equals what a full
row stores for it under a key exactly if the value is found there. -/
theorem filter_binds_stored_iff (hkey : key ∈ c.keys) (hplain : Sql.IsPlain v)
    (hrow : c.toRow (.record [(key, v)]) false false = .ok row)
    (hf : Sql.Filter.compile d owner c.utc (.record [(key, v)]) [] = .ok f) :
    ∃ stored bound, Record.get? (toSnake key) row = some stored ∧
      Sql.Fragment.params (f.fragment d) = [bound] ∧
      (Value.Equals bound stored ↔ c.isFound key v = true) := by
  have hunset : v.isUnset = false := by
    cases v <;> first | rfl | exact hplain.elim
  obtain ⟨stored, hget, hstored⟩ := exists_stored hkey hunset hrow
  obtain ⟨bound, hbound, hparams⟩ := exists_bound hplain hf
  refine ⟨stored, bound, hget, hparams, ?_⟩
  unfold isFound
  cases hgives : c.givesWay key with
  | false =>
    rw [hgives] at hstored
    exact equals_encodeAs hplain hbound hstored
  | true =>
    rw [hgives, if_pos rfl] at hstored
    rw [if_pos rfl]
    obtain ⟨hnull, hunset⟩ := parameter_given hplain hbound
    cases hauto : c.isAutoSet (toSnake key) with
    | true =>
      rw [hauto, if_pos rfl] at hstored
      rw [hstored, Value.equals_iff_eq rfl]
      simp [hunset]
    | false =>
      rw [hauto, if_neg Bool.false_ne_true] at hstored
      rw [equals_absent hbound hnull hstored]
      simp

/-- A draft is found by the truth value that it was stored with. -/
theorem filter_binds_stored_draft :
    ∃ row f, storyCodec.toRow (.record [("isDraft", .bool true)]) false false = .ok row ∧
      Sql.Filter.compile .sqlite .null true (.record [("isDraft", .bool true)]) [] = .ok f ∧
      ∃ stored bound, Record.get? "is_draft" row = some stored ∧
        Sql.Fragment.params (f.fragment .sqlite) = [bound] ∧ Value.Equals bound stored := by
  have hrow : storyCodec.toRow (.record [("isDraft", .bool true)]) false false = .ok _ := rfl
  have hf : Sql.Filter.compile .sqlite .null storyCodec.utc (.record [("isDraft", .bool true)]) [] = .ok _ :=
    rfl
  obtain ⟨stored, bound, hget, hparams, hfound⟩ :=
    filter_binds_stored_iff (by decide) (v := .bool true) trivial hrow hf
  exact ⟨_, _, hrow, hf, stored, bound, hget, hparams, hfound.mpr (by decide)⟩

/-- A text other than a number is stored as 1 in a column of truth values, and bound as it is. -/
theorem filter_binds_not_stored :
    ¬ ∀ (c : Codec) (key : String) (v : Value) (row : Record) (f : Sql.Filter), key ∈ c.keys →
      Sql.IsPlain v → c.toRow (.record [(key, v)]) false false = .ok row →
      Sql.Filter.compile .sqlite .null c.utc (.record [(key, v)]) [] = .ok f →
      ∃ stored bound, Record.get? (toSnake key) row = some stored ∧
        Sql.Fragment.params (f.fragment .sqlite) = [bound] ∧ Value.Equals bound stored := by
  intro h
  obtain ⟨stored, bound, hget, hparams, hequal⟩ :=
    h ⟨["isDraft"], [], [], true, true⟩ "isDraft" (.text "yes") _ _ (by decide) trivial rfl rfl
  obtain rfl : .int 1 = stored := Option.some.inj hget
  obtain rfl : .text "yes" = bound := List.head_eq_of_cons_eq hparams
  exact absurd (Value.equals_int_iff.mp hequal) (by decide)

end Codec

end Quarry
