import Quarry.Proofs.Database.Columnwise
import Quarry.Proofs.Number.Equal

/-!
# Truth values in MySQL rows

A column of one-digit integers may be turned into truth values when it is fetched, and the integers
in it are read as truth values by a codec in any case. The first counts 1 as true and nothing else,
the second whatever is not zero. A value is therefore read alike from a row as it was fetched and
from the row with truth values, except for integers other than 0 and 1 in a column of one-digit
integers. All other columns stay as they are unless decimal numbers are to be turned into
floating-point numbers.
-/

set_option autoImplicit false

namespace Quarry

variable {c : Codec} {name : String} {v u : Value}

namespace Codec

/-- A truth value or an integer is read as a truth value by whether it counts as true. -/
theorem decode_boolean (hkind : c.kindOf? name = some .boolean) :
    c.decode name .null = .ok .null ∧ (∀ b, c.decode name (.bool b) = .ok (.bool b)) ∧
      ∀ n, c.decode name (.int n) = .ok (.bool (n != 0)) := by
  simp only [decode, hkind]
  exact ⟨rfl, fun _ => rfl, fun _ => rfl⟩

end Codec

namespace Mysql

variable {settings : Settings} {columns : List Column} {column : Column} {row record : Record}

/-- Whether a value is an integer or NULL. -/
def isWholeOrNull : Value → Bool
  | .null => true
  | .int _ => true
  | _ => false

/-- Whether fetching turns the value of a column into another truth value than it is read as. -/
def isFlipped (column : Column) : Value → Bool
  | .int n => isFlagColumn column && n != 0 && n != 1
  | _ => false

/-- An integer is compared with 1 as integers are. -/
theorem isOne_int (n : Int) : isOne (.int n) = .ok (n == 1) := by
  have hequal : (Number.Exact.ofInt n).equal (.ofInt 1) = (n == 1) := by
    rw [Bool.eq_iff_iff, Number.Exact.equal_ofInt_iff, beq_iff_eq]
  simp [isOne, Value.same?, Value.sameNumber?, Value.numeric?, Value.isSignaling, hequal]

/-- A flag that is an integer is true exactly if it is 1. -/
theorem flagValue_int (n : Int) : flagValue (.int n) = .ok (.bool (n == 1)) := by
  have hnull : Value.int n ≠ .null := nofun
  rw [flagValue_of_ne hnull, isOne_int]
  rfl

/-- Only decimal numbers become floating-point numbers. -/
theorem normalizeDecimal_eq_self (h : ∀ d, v ≠ .decimal d) : normalizeDecimal settings v = .ok v := by
  unfold normalizeDecimal
  split_ifs
  · cases v <;> first | exact absurd rfl (h _) | rfl
  · rfl

/-- What a column of integers has in a row with truth values: a truth value, or what it had
before. -/
theorem normalizeFlag_cases (hcast : settings.castBoolean.isTrue = true) (hv : isWholeOrNull v = true)
    (h : normalizeFlag settings column v = .ok u) :
    u = v ∧ isFlipped column v = false ∨
      ∃ n, v = .int n ∧ isFlagColumn column = true ∧ u = .bool (n == 1) := by
  rw [normalizeFlag, hcast, Bool.true_and] at h
  cases hflags : isFlagColumn column with
  | false =>
    rw [hflags] at h
    refine .inl ⟨(Except.ok.inj h).symm, ?_⟩
    cases v <;> simp [isFlipped, hflags]
  | true =>
    rw [if_pos hflags] at h
    cases v with
    | null => exact .inl ⟨(Except.ok.inj h).symm, rfl⟩
    | int n =>
      rw [flagValue_int] at h
      exact .inr ⟨n, rfl, rfl, (Except.ok.inj h).symm⟩
    | _ => exact absurd hv Bool.false_ne_true

/-- A codec reads the value that was turned into a truth value as it reads the value itself, unless
it was flipped. -/
theorem decode_normalizeFlag_iff (hcast : settings.castBoolean.isTrue = true)
    (hkind : c.kindOf? name = some .boolean) (hv : isWholeOrNull v = true)
    (h : normalizeFlag settings column v = .ok u) :
    c.decode name u = c.decode name v ↔ isFlipped column v = false := by
  obtain ⟨rfl, hkept⟩ | ⟨n, rfl, hflags, rfl⟩ := normalizeFlag_cases hcast hv h
  · exact iff_of_true rfl hkept
  · obtain ⟨-, hbool, hint⟩ := Codec.decode_boolean hkind
    rw [hbool, hint, Except.ok.injEq, Value.bool.injEq, isFlipped, hflags]
    by_cases hzero : n = 0
    · simp [hzero]
    · by_cases hone : n = 1
      · simp [hone]
      · simp [hone, beq_eq_false_iff_ne.mpr hone, bne_iff_ne.mpr hzero]

/-- What was an integer or NULL is no decimal when normalized. -/
theorem normalizeFlag_ne_decimal (hv : isWholeOrNull v = true) (h : normalizeFlag settings column v = .ok u)
    (d : Number.Decimal) : u ≠ .decimal d := by
  rintro rfl
  unfold normalizeFlag at h
  split_ifs at h
  · cases v with
    | null => exact nomatch h
    | int n =>
      rw [flagValue_int] at h
      exact nomatch h
    | _ => exact absurd hv Bool.false_ne_true
  · obtain rfl := Except.ok.inj h
    exact absurd hv Bool.false_ne_true

/-- A name under which there is no column of one-digit integers has in a row with truth values what
it had before. -/
theorem get?_normalizeRow_of_plain (h : normalizeRow settings columns row = .ok record)
    (hdecimals : settings.decimalNumbers.isTrue = false)
    (hplain : ∀ column ∈ columns, column.name = name → isFlagColumn column = false) :
    Record.get? name record = Record.get? name row := by
  rw [normalizeRow_eq] at h
  obtain ⟨flagged, hflagged, hrest⟩ := bind_eq_ok.mp h
  rw [castDecimals, hdecimals] at hrest
  obtain rfl := Except.ok.inj hrest
  unfold castFlags at hflagged
  split_ifs at hflagged
  · refine get?_foldlM_of_ne hflagged fun column hcolumn hname => ?_
    obtain ⟨hcolumn, hflags⟩ := List.mem_filter.mp hcolumn
    rw [hplain column hcolumn hname] at hflags
    exact absurd hflags Bool.false_ne_true
  · rw [Except.ok.inj hflagged]

/-- A row of distinct columns can be fetched with truth values. An integer or NULL in a column is
then read as the same truth value as without them exactly if it was not flipped; and unless decimal
numbers are wanted as floating-point numbers, all but the columns of one-digit integers are as they
were. -/
theorem normalizeRow_reads_iff (hcast : settings.castBoolean.isTrue = true)
    (hlabels : (columns.map Column.name).Nodup) (hreturned : ∀ f ∈ row, f.2.isReturned = true) :
    ∃ record, normalizeRow settings columns row = .ok record ∧
      (∀ column ∈ columns, ∀ v, Record.get? column.name row = some v → isWholeOrNull v = true →
        ∃ u, Record.get? column.name record = some u ∧
          ∀ (c : Codec) (name : String), c.kindOf? name = some .boolean →
            (c.decode name u = c.decode name v ↔ isFlipped column v = false)) ∧
      (settings.decimalNumbers.isTrue = false → ∀ name,
        (∀ column ∈ columns, column.name = name → isFlagColumn column = false) →
          Record.get? name record = Record.get? name row) := by
  obtain ⟨record, hrecord⟩ := exists_normalizeRow settings columns hreturned
  refine ⟨record, hrecord, fun column hcolumn v hv hwhole => ?_, fun hdecimals name hplain =>
    get?_normalizeRow_of_plain hrecord hdecimals hplain⟩
  have hsame : ∀ other ∈ columns, other.name = column.name → other = column :=
    fun other hother hname => List.inj_on_of_nodup_map hlabels hother hcolumn hname
  rw [normalizeRow_eq] at hrecord
  obtain ⟨flagged, hflagged, hdecimals⟩ := bind_eq_ok.mp hrecord
  obtain ⟨u, hu, hheld⟩ := get?_castFlags hflagged hcolumn hsame hv
  obtain ⟨u', hu', hget⟩ := get?_castDecimals hdecimals hheld
  rw [normalizeDecimal_eq_self (normalizeFlag_ne_decimal hwhole hu)] at hu'
  obtain rfl := Except.ok.inj hu'
  exact ⟨u, hget, fun c name hkind => decode_normalizeFlag_iff hcast hkind hwhole hu⟩

/-- A column of one-digit integers that holds 1 and another one that holds NULL, beside a column of
integers of any size that holds 2. -/
theorem normalizeRow_reads_drafts :
    let settings : Settings := { castBoolean := .bool true }
    let columns : List Column := [⟨"is_draft", 1, 1⟩, ⟨"is_final", 1, 1⟩, ⟨"pages", 3, 11⟩]
    let row : Record := [("is_draft", .int 1), ("is_final", .null), ("pages", .int 2)]
    let c : Codec := ⟨["isDraft", "isFinal", "pages"], [], [], true, true⟩
    settings.castBoolean.isTrue = true ∧ (columns.map Column.name).Nodup ∧
      (∀ f ∈ row, f.2.isReturned = true) ∧ c.kindOf? "is_draft" = some .boolean ∧
      ∃ record u, normalizeRow settings columns row = .ok record ∧
        Record.get? "is_draft" record = some u ∧ c.decode "is_draft" u = c.decode "is_draft" (.int 1) ∧
        Record.get? "pages" record = some (.int 2) := by
  intro settings columns row c
  have hlabels : (columns.map Column.name).Nodup := by decide
  have hreturned : ∀ f ∈ row, f.2.isReturned = true := by decide
  have hkind : c.kindOf? "is_draft" = some .boolean := by decide
  have hcast : settings.castBoolean.isTrue = true := rfl
  obtain ⟨record, hrecord, hreads, hplain⟩ := normalizeRow_reads_iff hcast hlabels hreturned
  obtain ⟨u, hu, hsame⟩ := hreads ⟨"is_draft", 1, 1⟩ (by decide) (.int 1) rfl rfl
  have hpages := hplain rfl "pages" (by decide)
  exact ⟨rfl, hlabels, hreturned, hkind, record, u, hrecord, hu, (hsame c "is_draft" hkind).mpr rfl, hpages⟩

/-- An integer 2 in a column of one-digit integers is read as true, and as false once it was turned
into a truth value. -/
theorem normalizeRow_flips_two :
    let settings : Settings := { castBoolean := .bool true }
    let c : Codec := ⟨["isDraft"], [], [], true, true⟩
    normalizeRow settings [⟨"is_draft", 1, 1⟩] [("is_draft", .int 2)] = .ok [("is_draft", .bool false)] ∧
      c.decode "is_draft" (.int 2) = .ok (.bool true) ∧
      c.decode "is_draft" (.bool false) = .ok (.bool false) := by
  intro settings c
  have hkind : c.kindOf? "is_draft" = some .boolean := by decide
  obtain ⟨-, hbool, hint⟩ := Codec.decode_boolean hkind
  exact ⟨rfl, hint 2, hbool false⟩

end Mysql

end Quarry
