import Mathlib.Data.List.Nodup
import Quarry.Proofs.Number.Written
import Quarry.Proofs.Row.Declared
import Quarry.Sql.Aggregate

/-!
# The numbers of aggregates

An answer has one number for each label. Integers stay what they are when the driver gives them as
integers or as decimal numbers. Texts are read as floating-point numbers, which have 53 bits, and
infinite decimal numbers and those that signal are no numbers at all. So an answer is exact if the
row holds nothing of that kind, and in no other case (`result_exact_iff`).
-/

set_option autoImplicit false

namespace Quarry

open Number (Binary64 Decimal Exact)

/-! ## Decimal numbers that are integers -/

namespace Number.Decimal

/-- An integer has the sign and the size of an equal number. -/
theorem signedNum_of_sign {s : Bool} {c : Nat} {n : Int} (hzero : c = 0 ↔ n.natAbs = 0)
    (hsign : (s && c != 0) = (decide (n < 0) && n.natAbs != 0)) :
    Exact.signedNum s n.natAbs = n := by
  by_cases hn : n = 0
  · subst hn
    cases s <;> rfl
  · have hne : n.natAbs ≠ 0 := Int.natAbs_ne_zero.mpr hn
    have hc : c ≠ 0 := fun h => hne (hzero.mp h)
    rw [bne_iff_ne.mpr hc, bne_iff_ne.mpr hne, Bool.and_true, Bool.and_true] at hsign
    rw [hsign]
    exact Binary64.signedNum_natAbs n

/-- The digits behind the point are all zeros. -/
theorem whole_of_places {m k : Nat} {s : Bool} {e : Int} (he : e < 0) (hk : k = e.natAbs) :
    (finite s (m * Nat.pow 10 k) e).isWhole = true ∧ wholePart (m * Nat.pow 10 k) e = m := by
  have hpos : 0 < Nat.pow 10 k := Nat.pow_pos (by decide)
  by_cases hm : m = 0
  · subst hm
    simp [isWhole, wholePart]
  · have hne : m * Nat.pow 10 k ≠ 0 := Nat.mul_ne_zero hm hpos.ne'
    have hdigits : (digitCount (m * Nat.pow 10 k) : Int) = digitCount m + k := by
      rw [Nat.pow_eq, digitCount_mul_pow hm]
      omega
    have hsize : 0 < e + digitCount (m * Nat.pow 10 k) := by
      have hcount := digitCount_pos m
      omega
    have hrest : m * Nat.pow 10 k % Nat.pow 10 k = 0 := Nat.mul_mod_left m _
    have hcut : m * Nat.pow 10 k / Nat.pow 10 k = m := Nat.mul_div_cancel m hpos
    constructor
    · rw [isWhole, ← hk, hrest, decide_eq_true hsize, beq_self_eq_true, Bool.and_self, Bool.or_true]
    · rw [wholePart, ← hk, hcut, beq_eq_false_iff_ne.mpr hne, decide_eq_false (Int.not_le.mpr hsize),
        Bool.or_self, if_neg Bool.false_ne_true, if_pos he]

/-- A decimal number that equals an integer has no fraction, and the integer in front of it. -/
theorem whole_of_equal {s : Bool} {c : Nat} {e n : Int}
    (h : (Exact.finite s c e).equal (.ofInt n) = true) :
    (finite s c e).isWhole = true ∧ Exact.signedNum s (wholePart c e) = n := by
  obtain ⟨hsign, hsize⟩ := (Exact.equal_finite_iff (Int.min_le_left e 0) (Int.min_le_right e 0)).mp h
  by_cases hneg : e < 0
  · have hlow : min e 0 = e := by omega
    have hplaces : (0 - e).toNat = e.natAbs := by omega
    have hc : c = n.natAbs * Nat.pow 10 e.natAbs := by
      rw [hlow, Exact.lowered, Exact.lowered, hplaces, Int.sub_self] at hsize
      simpa using hsize
    obtain ⟨hwhole, hpart⟩ := whole_of_places (m := n.natAbs) (s := s) hneg rfl
    rw [← hc] at hwhole hpart
    have hzero : c = 0 ↔ n.natAbs = 0 := by simp [hc]
    exact ⟨hwhole, by rw [hpart, signedNum_of_sign hzero hsign]⟩
  · have hlow : min e 0 = 0 := by omega
    have hc : c * Nat.pow 10 e.toNat = n.natAbs := by
      rw [hlow, Exact.lowered, Exact.lowered, Int.sub_zero] at hsize
      simpa using hsize
    have hzero : c = 0 ↔ n.natAbs = 0 := by simp [← hc]
    have hpart : wholePart c e = n.natAbs := by
      by_cases hnone : c = 0
      · rw [hzero.mp hnone, hnone]
        rfl
      · have hcount := digitCount_pos c
        have hsize : ¬e + digitCount c ≤ 0 := by omega
        simp [wholePart, hnone, hneg, hsize, ← hc]
    refine ⟨?_, by rw [hpart, signedNum_of_sign hzero hsign]⟩
    simp [isWhole, Int.not_lt.mp hneg]

end Number.Decimal

namespace Sql

/-! ## Numbers of single values -/

/-- Whether a value is a number as answers have it. -/
def IsNumber (v : Value) : Prop := (∃ n, v = .int n) ∨ ∃ x, v = .real x

/-- That a value in a row is an integer: one as such, a decimal number that equals it, or its
text. -/
inductive IsInteger : Value → Int → Prop where
  | int (n : Int) : IsInteger (.int n) n
  | decimal {d : Decimal} {n : Int} (h : d.exact.equal (.ofInt n) = true) : IsInteger (.decimal d) n
  | text (n : Int) : IsInteger (.text (toString n)) n

open Aggregate (tidy tidyRead numberOf)

/-- A tidy number is a number. -/
theorem isNumber_tidy (x : Binary64) : IsNumber (tidy x) := by
  unfold tidy
  cases x.toInt? with
  | some n => exact .inl ⟨n, rfl⟩
  | none => exact .inr ⟨x, rfl⟩

/-- What was read is a number when tidied. -/
theorem isNumber_tidyRead (read : Option Binary64) : IsNumber (tidyRead read) := by
  cases read with
  | some x => exact isNumber_tidy x
  | none => exact .inl ⟨0, rfl⟩

/-- A number is tidied to an integer exactly if it is that integer. -/
theorem tidy_eq_int_iff {x : Binary64} {n : Int} : tidy x = .int n ↔ x.toInt? = some n := by
  unfold tidy
  cases x.toInt? <;> simp

/-- A number is set under its name. -/
theorem Aggregate.setNumber_text_cons (name other : String) (number old : Value)
    (answer : List (Value × Value)) :
    Aggregate.setNumber (.text name) number ((.text other, old) :: answer) =
      if other = name then (.text other, number) :: answer
      else (.text other, old) :: Aggregate.setNumber (.text name) number answer := by
  simp only [Aggregate.setNumber, Value.same_text, beq_iff_eq]

section

variable [Limits]

/-- That the number of a value can be told and is exact if the value is an integer. Decimal numbers
must not signal, be infinite or have too many zeros at the end; the text of an integer must not have
more bits than a floating-point number. -/
def IsCountedExactly : Value → Prop
  | .decimal (.finite _ c e) => c = 0 ∨ e ≤ Limits.zeros
  | .decimal (.infinite _) => False
  | .decimal (.nan _ signaling _) => signaling = false
  | .text s => ∀ n : Int, s = toString n → Number.FitsBinary64 n
  | _ => True

/-- That a value has a number, the integer if it is one. -/
def HasExactNumber (v : Value) : Prop :=
  ∃ number, Aggregate.numberOf v = .ok number ∧ IsNumber number ∧
    ∀ n, IsInteger v n → number = .int n

/-- The text of an integer gives the integer only if it is a floating-point number. -/
theorem hasExactNumber_text_iff (s : String) :
    HasExactNumber (.text s) ↔ ∀ n : Int, s = toString n → Number.FitsBinary64 n := by
  have hinteger {n : Int} : tidyRead (Number.readReal? (toString n)) = .int n ↔
      Number.FitsBinary64 n := by
    rw [Number.readReal?_toString, tidyRead, tidy_eq_int_iff, Binary64.toInt?_ofInt_eq_some_iff]
  constructor
  · rintro ⟨number, hnumber, -, hexact⟩ n rfl
    obtain rfl := Except.ok.inj hnumber
    exact hinteger.mp (hexact n (.text n))
  · intro hfits
    refine ⟨_, rfl, isNumber_tidyRead _, fun n hn => ?_⟩
    generalize htext : Value.text s = v at hn
    cases hn with
    | text n =>
      obtain rfl := Value.text.inj htext
      exact hinteger.mpr (hfits n rfl)
    | _ => exact nomatch htext

/-- A finite decimal number has a number unless that would have too many zeros. -/
theorem hasExactNumber_decimal_iff (s : Bool) (c : Nat) (e : Int) :
    HasExactNumber (.decimal (.finite s c e)) ↔ c = 0 ∨ e ≤ Limits.zeros := by
  have hnumber : numberOf (.decimal (.finite s c e)) =
      if (Decimal.finite s c e).isWhole then (Value.wholeOfDecimal (.finite s c e)).map .int
      else .ok (.real (Decimal.finite s c e).toBinary64) := by
    simp [numberOf, Aggregate.numberOfDecimal, Decimal.isSignaling, Decimal.isInfinite]
  have hwhole : Value.wholeOfDecimal (.finite s c e) =
      if c = 0 ∨ e ≤ Limits.zeros then .ok (Exact.signedNum s (Decimal.wholePart c e))
      else misfit .tooLong := by
    have hlimit : (c != 0 && decide (Limits.zeros < e)) = true ↔
        ¬(c = 0 ∨ e ≤ Limits.zeros) := by
      rw [Bool.and_eq_true, bne_iff_ne, decide_eq_true_eq, not_or, Int.not_le]
    simp only [Value.wholeOfDecimal, hlimit, Decimal.truncate?, Option.getD_some, ite_not]
  have hinteger {n : Int} (hn : IsInteger (.decimal (.finite s c e)) n) :
      (Exact.finite s c e).equal (.ofInt n) = true := by
    cases hn with
    | decimal hequal => exact hequal
  by_cases hshort : c = 0 ∨ e ≤ Limits.zeros
  · refine iff_of_true ?_ hshort
    rw [if_pos hshort] at hwhole
    rw [HasExactNumber, hnumber, hwhole]
    cases hcut : (Decimal.finite s c e).isWhole with
    | true =>
      refine ⟨_, rfl, .inl ⟨_, rfl⟩, fun n hn => ?_⟩
      rw [(Decimal.whole_of_equal (hinteger hn)).2]
    | false =>
      refine ⟨_, rfl, .inr ⟨_, rfl⟩, fun n hn => ?_⟩
      rw [(Decimal.whole_of_equal (hinteger hn)).1] at hcut
      exact nomatch hcut
  · have hlong : (Decimal.finite s c e).isWhole = true := by
      have hpositive : 0 ≤ e := by
        simp only [not_or, Int.not_le] at hshort
        omega
      simp [Decimal.isWhole, hpositive]
    rw [if_neg hshort] at hwhole
    rw [hlong, if_pos rfl, hwhole] at hnumber
    refine iff_of_false ?_ hshort
    rintro ⟨number, hok, -⟩
    rw [hnumber] at hok
    exact nomatch hok

/-- A value has an exact number exactly if it is counted exactly. -/
theorem hasExactNumber_iff (v : Value) : HasExactNumber v ↔ IsCountedExactly v := by
  have htrivial {number : Value} (hnumber : numberOf v = .ok number) (hkind : IsNumber number)
      (hother : ∀ n, ¬IsInteger v n) : HasExactNumber v :=
    ⟨number, hnumber, hkind, fun n hn => absurd hn (hother n)⟩
  cases v with
  | text s => exact hasExactNumber_text_iff s
  | decimal d =>
    cases d with
    | finite s c e => exact hasExactNumber_decimal_iff s c e
    | infinite s => exact iff_of_false (fun ⟨_, hnumber, _⟩ => nomatch hnumber) id
    | nan s signaling payload =>
      cases signaling with
      | true => exact iff_of_false (fun ⟨_, hnumber, _⟩ => nomatch hnumber) nofun
      | false =>
        refine iff_of_true (htrivial rfl (.inr ⟨_, rfl⟩) ?_) rfl
        rintro n (_ | hequal)
        exact nomatch hequal
  | int n =>
    refine iff_of_true ⟨.int n, rfl, .inl ⟨n, rfl⟩, ?_⟩ trivial
    rintro _ ⟨⟩
    rfl
  | real x => exact iff_of_true (htrivial rfl (isNumber_tidy x) nofun) trivial
  | bytes data => exact iff_of_true (htrivial rfl (isNumber_tidyRead _) nofun) trivial
  | buffer data => exact iff_of_true (htrivial rfl (isNumber_tidyRead _) nofun) trivial
  | bool b => exact iff_of_true (htrivial rfl (.inl ⟨_, rfl⟩) nofun) trivial
  | _ => exact iff_of_true (htrivial rfl (.inl ⟨0, rfl⟩) nofun) trivial

/-! ## Numbers of labels -/

namespace Aggregate

/-- That an entry of an answer is the number of what the row holds under its label, which is a
text. -/
def IsNumberOf (row : Record) (entry : Value × Value) : Prop :=
  ∃ name, entry.1 = .text name ∧ numberOf (row.valueOr name .null) = .ok entry.2

variable {row : Record} {answer : List (Value × Value)}

/-- Setting the number of a label puts the label at the end unless it is there already. -/
theorem labels_setNumber (hanswer : ∀ entry ∈ answer, IsNumberOf row entry) (name : String)
    (number : Value) :
    Value.text name ∈ answer.map Prod.fst ∧
        (setNumber (.text name) number answer).map Prod.fst = answer.map Prod.fst ∨
      Value.text name ∉ answer.map Prod.fst ∧
        (setNumber (.text name) number answer).map Prod.fst = answer.map Prod.fst ++ [.text name] := by
  induction answer with
  | nil => exact .inr ⟨by simp, rfl⟩
  | cons entry answer ih =>
    obtain ⟨⟨other, hother, -⟩, hrest⟩ := List.forall_mem_cons.mp hanswer
    obtain ⟨label, old⟩ := entry
    obtain rfl : label = .text other := hother
    rw [setNumber_text_cons]
    split_ifs with hname
    · subst hname
      exact .inl ⟨by simp, rfl⟩
    · obtain ⟨hmem, hlabels⟩ | ⟨hmem, hlabels⟩ := ih hrest
      · exact .inl ⟨by simp [hmem], by simp [hlabels]⟩
      · refine .inr ⟨?_, by simp [hlabels]⟩
        simpa [Ne.symm hname] using hmem

/-- Setting a number keeps all numbers those of their columns. -/
theorem isNumberOf_of_mem_setNumber (hanswer : ∀ entry ∈ answer, IsNumberOf row entry) {name : String}
    {number : Value} (hnumber : numberOf (row.valueOr name .null) = .ok number) :
    ∀ entry ∈ setNumber (.text name) number answer, IsNumberOf row entry := by
  induction answer with
  | nil => simpa [setNumber] using ⟨name, rfl, hnumber⟩
  | cons entry answer ih =>
    obtain ⟨hentry, hrest⟩ := List.forall_mem_cons.mp hanswer
    obtain ⟨label, old⟩ := entry
    obtain ⟨other, hother, -⟩ := id hentry
    obtain rfl : label = .text other := hother
    rw [setNumber_text_cons]
    split_ifs with hname
    · subst hname
      exact List.forall_mem_cons.mpr ⟨⟨other, rfl, hnumber⟩, hrest⟩
    · exact List.forall_mem_cons.mpr ⟨hentry, ih hrest⟩

/-- What has been collected: numbers of what the row holds, one for each label. -/
structure HasCollected (row : Record) (labels : Value → Prop) (answer : List (Value × Value)) : Prop where
  nodup : (answer.map Prod.fst).Nodup
  labels : ∀ label, label ∈ answer.map Prod.fst ↔ labels label
  numbers : ∀ entry ∈ answer, IsNumberOf row entry

/-- Setting a number collects one more label. -/
theorem HasCollected.setNumber {labels : Value → Prop} (h : HasCollected row labels answer)
    {name : String} {number : Value} (hnumber : numberOf (row.valueOr name .null) = .ok number) :
    HasCollected row (fun label => labels label ∨ .text name = label)
      (setNumber (.text name) number answer) := by
  refine ⟨?_, fun label => ?_, isNumberOf_of_mem_setNumber h.numbers hnumber⟩
  · obtain ⟨-, hlabels⟩ | ⟨hmem, hlabels⟩ := labels_setNumber h.numbers name number
    · rw [hlabels]
      exact h.nodup
    · rw [hlabels]
      exact List.nodup_append.mpr ⟨h.nodup, List.nodup_singleton _, by
        rintro label hlabel _ hlast rfl
        exact hmem (List.mem_singleton.mp hlast ▸ hlabel)⟩
  · rw [← h.labels]
    obtain ⟨hmem, hlabels⟩ | ⟨-, hlabels⟩ := labels_setNumber h.numbers name number
    · rw [hlabels]
      exact ⟨.inl, fun hlabel => hlabel.elim id fun hname => hname ▸ hmem⟩
    · rw [hlabels, List.mem_append, List.mem_singleton, eq_comm (a := label)]

/-- To collect aggregates is to set the first number and to collect the others. -/
theorem collect_cons {a : Aggregate} {name : String} (hname : a.label = .text name)
    (answer : List (Value × Value)) (rest : List Aggregate) : collect row answer (a :: rest) =
      numberOf (row.valueOr name .null) >>= fun number =>
        collect row (setNumber (.text name) number answer) rest := by
  rw [collect, hname]
  rfl

/-- Collecting adds the labels of all aggregates. -/
theorem HasCollected.collect {labels : Value → Prop} {aggregates : List Aggregate}
    {out : List (Value × Value)} (h : HasCollected row labels answer)
    (hlabels : ∀ a ∈ aggregates, ∃ name, a.label = .text name)
    (hout : collect row answer aggregates = .ok out) :
    HasCollected row (fun label => labels label ∨ ∃ a ∈ aggregates, a.label = label) out := by
  induction aggregates generalizing labels answer with
  | nil =>
    obtain rfl : answer = out := by simpa [Aggregate.collect] using hout
    simpa using h
  | cons a aggregates ih =>
    obtain ⟨⟨name, hname⟩, hrest⟩ := List.forall_mem_cons.mp hlabels
    rw [collect_cons hname] at hout
    obtain ⟨number, hnumber, hlater⟩ := bind_eq_ok.mp hout
    have hall := ih (h.setNumber hnumber) hrest hlater
    simpa [hname, or_assoc] using hall

/-- Collecting goes on as long as the cells have numbers. -/
theorem exists_collect {aggregates : List Aggregate} (answer : List (Value × Value))
    (h : ∀ a ∈ aggregates, ∃ name number, a.label = .text name ∧
      numberOf (row.valueOr name .null) = .ok number) :
    ∃ out, collect row answer aggregates = .ok out := by
  induction aggregates generalizing answer with
  | nil => exact ⟨answer, rfl⟩
  | cons a aggregates ih =>
    obtain ⟨⟨name, number, hname, hnumber⟩, hrest⟩ := List.forall_mem_cons.mp h
    obtain ⟨out, hout⟩ := ih (setNumber (.text name) number answer) hrest
    exact ⟨out, (collect_cons hname answer aggregates).trans (bind_eq_ok.mpr ⟨number, hnumber, hout⟩)⟩

/-- A row without columns is as good as none. -/
theorem result_eq_collect (row : Option Record) (aggregates : List Aggregate) :
    result (Value.ofOption .record row) aggregates = collect (row.getD []) [] aggregates := by
  have hfields : (Value.ofOption .record row).asOptionalFields = .ok (row.getD []) := by
    cases row with
    | none => rfl
    | some fields => cases fields <;> rfl
  cases aggregates with
  | nil => rfl
  | cons a aggregates =>
    rw [result, hfields]
    · rfl
    · nofun

end Aggregate

/-- That an answer has one number for each label, which is the integer in the row if there is
one. -/
structure IsExactAnswer (row : Record) (aggregates : List Aggregate) (answer : List (Value × Value)) :
    Prop where
  nodup : (answer.map Prod.fst).Nodup
  labels : ∀ label, label ∈ answer.map Prod.fst ↔ ∃ a ∈ aggregates, a.label = label
  number : ∀ entry ∈ answer, IsNumber entry.2
  exact : ∀ entry ∈ answer, ∀ name n, entry.1 = .text name → IsInteger (row.valueOr name .null) n →
    entry.2 = .int n

/-- The answer to aggregates is a number for each label, and the integer itself where the row holds
one, exactly if the row holds nothing under the labels that cannot be counted exactly. -/
theorem result_exact_iff (row : Option Record) (aggregates : List Aggregate)
    (hlabels : ∀ a ∈ aggregates, ∃ name, a.label = .text name) :
    (∃ answer, Aggregate.result (Value.ofOption .record row) aggregates = .ok answer ∧
        IsExactAnswer (row.getD []) aggregates answer) ↔
      ∀ a ∈ aggregates, ∀ name, a.label = .text name →
        IsCountedExactly ((row.getD []).valueOr name .null) := by
  rw [Aggregate.result_eq_collect]
  have hnone : Aggregate.HasCollected (row.getD []) (fun _ => False) [] :=
    ⟨List.nodup_nil, by simp, nofun⟩
  constructor
  · rintro ⟨answer, hanswer, hexact⟩ a ha name hname
    have hcollected := hnone.collect hlabels hanswer
    obtain ⟨entry, hentry, hlabel⟩ := List.mem_map.mp
      ((hcollected.labels (.text name)).mpr (.inr ⟨a, ha, hname⟩))
    obtain ⟨other, hother, hnumber⟩ := hcollected.numbers entry hentry
    obtain rfl : name = other := Value.text.inj (hlabel.symm.trans hother)
    rw [← hasExactNumber_iff]
    exact ⟨entry.2, hnumber, hexact.number entry hentry, fun n => hexact.exact entry hentry name n hlabel⟩
  · intro hcounted
    have hexact : ∀ a ∈ aggregates, ∀ name, a.label = .text name →
        HasExactNumber ((row.getD []).valueOr name .null) := fun a ha name hname =>
      (hasExactNumber_iff _).mpr (hcounted a ha name hname)
    have hnumbers : ∀ a ∈ aggregates, ∃ name number, a.label = .text name ∧
        Aggregate.numberOf ((row.getD []).valueOr name .null) = .ok number := by
      intro a ha
      obtain ⟨name, hname⟩ := hlabels a ha
      obtain ⟨number, hnumber, -⟩ := hexact a ha name hname
      exact ⟨name, number, hname, hnumber⟩
    obtain ⟨answer, hanswer⟩ := Aggregate.exists_collect [] hnumbers
    have hcollected := hnone.collect hlabels hanswer
    -- Each entry is the number of a value that has an exact one.
    have hentries : ∀ entry ∈ answer, ∃ name, entry.1 = .text name ∧ IsNumber entry.2 ∧
        ∀ n, IsInteger ((row.getD []).valueOr name .null) n → entry.2 = .int n := by
      intro entry hentry
      obtain ⟨name, hname, hnumber⟩ := hcollected.numbers entry hentry
      obtain ⟨a, ha, hlabel⟩ := ((hcollected.labels entry.1).mp
        (List.mem_map_of_mem hentry)).resolve_left id
      obtain ⟨number, hsame, hkind, hinteger⟩ := hexact a ha name (hlabel.trans hname)
      obtain rfl := Except.ok.inj (hnumber.symm.trans hsame)
      exact ⟨name, hname, hkind, hinteger⟩
    refine ⟨answer, hanswer, hcollected.nodup, by simpa using hcollected.labels, ?_, ?_⟩
    · intro entry hentry
      obtain ⟨-, -, hkind, -⟩ := hentries entry hentry
      exact hkind
    · intro entry hentry name n hname hinteger
      obtain ⟨other, hother, -, hexact⟩ := hentries entry hentry
      obtain rfl := Value.text.inj (hname.symm.trans hother)
      exact hexact n hinteger

end

/-- A long total as a decimal number, and an average that is a text: both are counted exactly. -/
theorem result_exact_of_total :
    let row : Record := [("total", .decimal (.finite false 9007199254740993 0)), ("mean", .text "2.5")]
    let aggregates : List Aggregate :=
      [⟨.sum, .text "total", .text "price", .null, none⟩,
        ⟨.average, .text "mean", .text "price", .null, none⟩]
    (∀ a ∈ aggregates, ∃ name, a.label = .text name) ∧
      (∀ a ∈ aggregates, ∀ name, a.label = .text name → IsCountedExactly (row.valueOr name .null)) ∧
      ∃ answer, Aggregate.result (Value.ofOption .record (some row)) aggregates = .ok answer ∧
        IsExactAnswer row aggregates answer := by
  intro row aggregates
  have hlabels : ∀ a ∈ aggregates, ∃ name, a.label = .text name := by simp [aggregates]
  have hcounted : ∀ a ∈ aggregates, ∀ name, a.label = .text name →
      IsCountedExactly (row.valueOr name .null) := by
    have hpoint (n : Int) : "2.5" ≠ toString n := by
      intro hn
      have hdot : '.' ∈ (toString n).toList := hn ▸ by decide
      obtain hsign | hdigit := Number.standsInInteger_of_mem_toString hdot
      · exact absurd hsign (by decide)
      · exact absurd hdigit (by decide)
    intro a ha name hname
    simp only [aggregates, List.mem_cons, List.not_mem_nil, or_false] at ha
    obtain rfl | rfl := ha
    · obtain rfl := Value.text.inj hname
      exact .inr (by decide)
    · obtain rfl := Value.text.inj hname
      exact fun n hn => absurd hn (hpoint n)
  exact ⟨hlabels, hcounted, (result_exact_iff (some row) aggregates hlabels).mpr hcounted⟩

/-- The text of an integer of 54 bits is rounded, and an infinite decimal number makes the answer
fail. -/
theorem result_rounds_long_text :
    let aggregates : List Aggregate := [⟨.maximum, .text "m", .text "code", .null, none⟩]
    (Aggregate.result (.record [("m", .text (toString (9007199254740993 : Int)))]) aggregates =
        .ok [(.text "m", .int 9007199254740992)] ∧
      IsInteger (.text (toString (9007199254740993 : Int))) 9007199254740993) ∧
    Aggregate.result (.record [("m", .decimal (.infinite false))]) aggregates =
      .error (.misfit (.range .decimalInfinity)) := by
  have hread : tidyRead (Number.readReal? (toString (9007199254740993 : Int))) =
      .int 9007199254740992 := by
    rw [Number.readReal?_toString, tidyRead, tidy_eq_int_iff]
    decide +kernel
  intro aggregates
  refine ⟨⟨?_, .text _⟩, rfl⟩
  show Except.ok [(Value.text "m", tidyRead (Number.readReal? _))] = _
  rw [hread]

end Sql

end Quarry
