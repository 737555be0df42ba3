import Quarry.Proofs.Number.Equal
import Quarry.Proofs.Value.Steady

/-!
# Equality from value to value

Equality of values goes over from one to the next: numbers by their exact values, containers by what
they hold. So a value equals one of several values exactly when it equals one of those that are left
after repetitions were dropped. Whether steady values are equal can always be told.
-/

set_option autoImplicit false

namespace Quarry.Value

variable {u v w : Value}

/-! ## Numbers -/

/-- Numbers are equal if their exact values are and neither is signaling. -/
theorem sameNumber?_eq_some_true_iff : sameNumber? v w = some true ↔ ∃ x y, v.numeric? = some x ∧
    w.numeric? = some y ∧ v.isSignaling = false ∧ w.isSignaling = false ∧ x.equal y = true := by
  unfold sameNumber?
  cases v.numeric? <;> cases w.numeric? <;> simp [and_assoc]

/-- A number equals the numbers of the same value, and the constant that is no number equals
itself. -/
theorem same?_number_iff {x : Number.Exact} (hv : v.numeric? = some x) : same? v w = some true ↔
    v = .real (.nan true) ∧ w = .real (.nan true) ∨ sameNumber? v w = some true := by
  cases v with
  | bool b => simp [same?]
  | int n => simp [same?]
  | decimal d => simp [same?]
  | real r =>
    rw [same?]
    unfold sameReal?
    split
    · simp
    · rename_i hconstant
      refine (or_iff_right ?_).symm
      rintro ⟨hr, hw⟩
      exact hconstant (real.inj hr) hw
  | _ => cases hv

/-- Equality of numbers goes over. -/
theorem same?_trans_number {x : Number.Exact} (hu : u.numeric? = some x) (huv : same? u v = some true)
    (hvw : same? v w = some true) : same? u w = some true := by
  obtain ⟨rfl, rfl⟩ | hnumber := (same?_number_iff hu).mp huv
  · exact hvw
  · obtain ⟨x, y, hx, hy, hsignal, hsignal', hxy⟩ := sameNumber?_eq_some_true_iff.mp hnumber
    obtain ⟨rfl, rfl⟩ | hnumber' := (same?_number_iff hy).mp hvw
    · exact huv
    · obtain ⟨y', z, hy', hz, -, hsignal'', hyz⟩ := sameNumber?_eq_some_true_iff.mp hnumber'
      obtain rfl := Option.some.inj (hy.symm.trans hy')
      have hxz := Number.Exact.equal_trans hxy hyz
      have hsame := sameNumber?_eq_some_true_iff.mpr ⟨x, z, hx, hz, hsignal, hsignal'', hxz⟩
      exact (same?_number_iff hu).mpr (.inr hsame)

/-! ## Containers -/

/-- What is false under a condition is true only if the condition holds. -/
theorem ite_eq_some_true_iff {p : Prop} [Decidable p] {x : Option Bool} :
    (if p then x else some false) = some true ↔ p ∧ x = some true := by
  split_ifs with hp <;> simp [hp]

/-- Items are equal one by one. -/
theorem sameItems?_eq_some_true_iff {vs ws : List Value} :
    sameItems? vs ws = some true ↔ List.Forall₂ (fun v w => same? v w = some true) vs ws := by
  induction vs generalizing ws with
  | nil => cases ws <;> simp [sameItems?]
  | cons v vs ih =>
    cases ws with
    | nil => simp [sameItems?]
    | cons w ws =>
      rw [sameItems?, List.forall₂_cons, ← ih]
      cases hvw : same? v w with
      | none => simp
      | some b => cases b <;> simp

/-- Members are among others if each of them equals one of these. -/
theorem sameMembers_iff {vs ws : List Value} :
    sameMembers vs ws = true ↔ ∀ v ∈ vs, ∃ w ∈ ws, same? v w = some true := by
  induction vs with
  | nil => simp [sameMembers]
  | cons v vs ih => simp [sameMembers, ih]

/-- Fields are equal to others if each of them is found there with an equal value. -/
theorem sameFields?_eq_some_true_iff {fs gs : List (String × Value)} : sameFields? fs gs = some true ↔
    ∀ f ∈ fs, ∃ v, Record.get? f.1 gs = some v ∧ same? f.2 v = some true := by
  induction fs with
  | nil => simp [sameFields?]
  | cons f fs ih =>
    rw [sameFields?, List.forall_mem_cons, ← ih]
    cases hget : Record.get? f.1 gs with
    | none => simp
    | some v =>
      cases hsame : same? f.2 v with
      | none => simp [hsame]
      | some b => cases b <;> simp [hsame]

/-! ## All values -/

/-- Whether what equals a value equals all that the value equals. -/
def GoesOver (u : Value) : Prop :=
  ∀ v w, same? u v = some true → same? v w = some true → same? u w = some true

/-- Equality of items goes over if that of each does. -/
theorem sameItems?_trans {us vs ws : List Value} (h : ∀ u ∈ us, GoesOver u)
    (huv : sameItems? us vs = some true) (hvw : sameItems? vs ws = some true) :
    sameItems? us ws = some true := by
  rw [sameItems?_eq_some_true_iff] at huv hvw ⊢
  have hmem := (List.forall₂_and_left us vs).mpr ⟨h, huv⟩
  exact forall₂_trans (fun u v w hu hw => hu.1 v w hu.2 hw) hmem hvw

/-- Being among others goes over if the equality of each member does. -/
theorem sameMembers_trans {us vs ws : List Value} (h : ∀ u ∈ us, GoesOver u)
    (huv : sameMembers us vs = true) (hvw : sameMembers vs ws = true) : sameMembers us ws = true := by
  rw [sameMembers_iff] at huv hvw ⊢
  intro u hu
  obtain ⟨v, hv, huv⟩ := huv u hu
  obtain ⟨w, hw, hvw⟩ := hvw v hv
  exact ⟨w, hw, h u hu v w huv hvw⟩

/-- Equality of fields goes over if that of each value does. -/
theorem sameFields?_trans {fs gs hs : List (String × Value)} (h : ∀ f ∈ fs, GoesOver f.2)
    (huv : sameFields? fs gs = some true) (hvw : sameFields? gs hs = some true) :
    sameFields? fs hs = some true := by
  rw [sameFields?_eq_some_true_iff] at huv hvw ⊢
  intro f hf
  obtain ⟨v, hv, huv⟩ := huv f hf
  obtain ⟨w, hw, hvw⟩ := hvw _ (Record.mem_of_get? hv)
  exact ⟨w, hw, h f hf v w huv hvw⟩

mutual

/-- Equality goes over from any value. -/
theorem goesOver : ∀ u : Value, GoesOver u
  | .null => fun v w huv hvw => by
    cases v <;> first | exact hvw | (simp [same?] at huv)
  | .unset => fun v w huv hvw => by
    cases v <;> first | exact hvw | (simp [same?] at huv)
  | .bool _ => fun _ _ => same?_trans_number rfl
  | .int _ => fun _ _ => same?_trans_number rfl
  | .real _ => fun _ _ => same?_trans_number rfl
  | .decimal _ => fun _ _ => same?_trans_number rfl
  | .text s => fun v w huv hvw => by
    cases v <;> simp [same?] at huv
    rwa [huv]
  | .bytes a => fun v w huv hvw => by
    cases v <;> simp [same?, sameBytes] at huv <;> simpa [same?, huv] using hvw
  | .buffer a => fun v w huv hvw => by
    cases v <;> simp [same?, sameBytes] at huv <;> simpa [same?, huv] using hvw
  | .moment a => fun v w huv hvw => by
    cases v <;> simp [same?] at huv
    cases w <;> simp [same?] at hvw ⊢
    simp only [Time.Moment.equal, Bool.and_eq_true, beq_iff_eq] at huv hvw ⊢
    exact ⟨huv.1.trans hvw.1, huv.2.trans hvw.2⟩
  | .date d => fun v w huv hvw => by
    cases v <;> simp [same?] at huv
    rwa [huv]
  | .list us => fun v w huv hvw => by
    cases v <;> simp [same?, ite_eq_some_true_iff] at huv
    cases w <;> simp [same?, ite_eq_some_true_iff] at hvw ⊢
    exact ⟨huv.1.trans hvw.1, sameItems?_trans (goesOverEach us) huv.2 hvw.2⟩
  | .tuple us => fun v w huv hvw => by
    cases v <;> simp [same?] at huv
    cases w <;> simp [same?] at hvw ⊢
    exact sameItems?_trans (goesOverEach us) huv hvw
  | .set us => fun v w huv hvw => by
    cases v <;> simp [same?, ite_eq_some_true_iff] at huv
    cases w <;> simp [same?, ite_eq_some_true_iff] at hvw ⊢
    exact ⟨huv.1.trans hvw.1, sameMembers_trans (goesOverEach us) huv.2 hvw.2⟩
  | .record fs => fun v w huv hvw => by
    cases v <;> simp [same?, ite_eq_some_true_iff] at huv
    cases w <;> simp [same?, ite_eq_some_true_iff] at hvw ⊢
    exact ⟨huv.1.trans hvw.1, sameFields?_trans (goesOverFields fs) huv.2 hvw.2⟩

/-- Equality goes over from each of some values. -/
theorem goesOverEach : ∀ us : List Value, ∀ u ∈ us, GoesOver u
  | [] => nofun
  | u :: us => List.forall_mem_cons.mpr ⟨goesOver u, goesOverEach us⟩

/-- Equality goes over from the values of fields. -/
theorem goesOverFields : ∀ fs : List (String × Value), ∀ f ∈ fs, GoesOver f.2
  | [] => nofun
  | (_, u) :: fs => List.forall_mem_cons.mpr ⟨goesOver u, goesOverFields fs⟩

end

/-- Equality goes over from one value to the next. -/
theorem same?_trans (huv : same? u v = some true) (hvw : same? v w = some true) :
    same? u w = some true := goesOver u v w huv hvw

/-! ## Steady values -/

/-- Steady numbers are not signaling. -/
theorem isSignaling_of_isSteady (h : v.isSteady = true) : v.isSignaling = false := by
  cases v with
  | decimal d =>
    cases d with
    | nan => exact nomatch h
    | _ => rfl
  | _ => rfl

/-- Steady numbers can be told from one another. -/
theorem exists_sameNumber? (hv : v.isSteady = true) (hw : w.isSteady = true) :
    ∃ b, sameNumber? v w = some b := by
  unfold sameNumber?
  rw [isSignaling_of_isSteady hv, isSignaling_of_isSteady hw]
  cases v.numeric? <;> cases w.numeric? <;> simp

/-- Values are steady if each of them is. -/
theorem areSteady_iff (vs : List Value) : areSteady vs = true ↔ ∀ v ∈ vs, v.isSteady = true := by
  induction vs with
  | nil => simp [areSteady]
  | cons v vs ih => simp [areSteady, ih]

/-- Whether it can be told if a value equals any steady one. -/
def CanBeTold (v : Value) : Prop := ∀ w, w.isSteady = true → ∃ b, same? v w = some b

/-- Items can be told from steady ones if each of them can. -/
theorem exists_sameItems? {vs ws : List Value} (h : ∀ v ∈ vs, CanBeTold v)
    (hws : ∀ w ∈ ws, w.isSteady = true) : ∃ b, sameItems? vs ws = some b := by
  induction vs generalizing ws with
  | nil => cases ws <;> simp [sameItems?]
  | cons v vs ih =>
    cases ws with
    | nil => exact ⟨false, rfl⟩
    | cons w ws =>
      obtain ⟨hv, hvs⟩ := List.forall_mem_cons.mp h
      obtain ⟨hw, hws⟩ := List.forall_mem_cons.mp hws
      obtain ⟨b, hb⟩ := hv w hw
      rw [sameItems?, hb]
      cases b with
      | true => exact ih hvs hws
      | false => exact ⟨false, rfl⟩

/-- Fields can be told from steady ones if each value can. -/
theorem exists_sameFields? {fs gs : List (String × Value)} (h : ∀ f ∈ fs, CanBeTold f.2)
    (hgs : ∀ g ∈ gs, g.2.isSteady = true) : ∃ b, sameFields? fs gs = some b := by
  induction fs with
  | nil => exact ⟨true, by simp [sameFields?]⟩
  | cons f fs ih =>
    obtain ⟨hf, hfs⟩ := List.forall_mem_cons.mp h
    rw [sameFields?]
    cases hget : Record.get? f.1 gs with
    | none => exact ⟨false, rfl⟩
    | some v =>
      obtain ⟨b, hb⟩ := hf v (hgs _ (Record.mem_of_get? hget))
      dsimp only
      rw [hb]
      cases b with
      | true => exact ih hfs
      | false => exact ⟨false, rfl⟩

mutual

/-- A steady value can be told from other steady ones. -/
theorem canBeTold : ∀ v : Value, v.isSteady = true → CanBeTold v
  | .bool b, hv => fun w hw => by
    unfold same?
    exact exists_sameNumber? (v := .bool b) hv hw
  | .int n, hv => fun w hw => by
    unfold same?
    exact exists_sameNumber? (v := .int n) hv hw
  | .decimal d, hv => fun w hw => by
    unfold same?
    exact exists_sameNumber? (v := .decimal d) hv hw
  | .real x, hv => fun w hw => by
    unfold same? sameReal?
    split
    · exact ⟨true, rfl⟩
    · exact exists_sameNumber? (v := .real x) hv hw
  | .list vs, hv => fun w hw => by
    have hvs := canBeToldEach vs (by simpa [isSteady] using hv)
    cases w with
    | list ws =>
      have hws := (areSteady_iff ws).mp (by simpa [isSteady] using hw)
      rw [same?]
      split_ifs
      · exact exists_sameItems? hvs hws
      · exact ⟨false, rfl⟩
    | _ => exact ⟨false, by simp [same?]⟩
  | .tuple vs, hv => fun w hw => by
    have hvs := canBeToldEach vs (by simpa [isSteady] using hv)
    cases w with
    | tuple ws =>
      have hws := (areSteady_iff ws).mp (by simpa [isSteady] using hw)
      rw [same?]
      exact exists_sameItems? hvs hws
    | _ => exact ⟨false, by simp [same?]⟩
  | .record fs, hv => fun w hw => by
    obtain ⟨-, hfields⟩ : (fs.map (·.1)).Nodup ∧ fieldsAreSteady fs = true := by
      simpa [isSteady] using hv
    have hfs := canBeToldFields fs hfields
    cases w with
    | record gs =>
      obtain ⟨-, hsteady⟩ : (gs.map (·.1)).Nodup ∧ fieldsAreSteady gs = true := by
        simpa [isSteady] using hw
      rw [same?]
      split_ifs
      · exact exists_sameFields? hfs ((fieldsAreSteady_iff gs).mp hsteady)
      · exact ⟨false, rfl⟩
    | _ => exact ⟨false, by simp [same?]⟩
  | .null, _ => fun w _ => by cases w <;> simp [same?]
  | .unset, _ => fun w _ => by cases w <;> simp [same?]
  | .text _, _ => fun w _ => by cases w <;> simp [same?]
  | .bytes _, _ => fun w _ => by simp [same?]
  | .buffer _, _ => fun w _ => by simp [same?]
  | .moment _, _ => fun w _ => by cases w <;> simp [same?]
  | .date _, _ => fun w _ => by cases w <;> simp [same?]
  | .set _, _ => fun w _ => by
    cases w with
    | set ws =>
      rw [same?]
      split_ifs
      · exact ⟨_, rfl⟩
      · exact ⟨false, rfl⟩
    | _ => exact ⟨false, by simp [same?]⟩

/-- Each of some steady values can be told from others. -/
theorem canBeToldEach : ∀ vs : List Value, areSteady vs = true → ∀ v ∈ vs, CanBeTold v
  | [], _ => nofun
  | v :: vs, h => by
    obtain ⟨hv, hvs⟩ : v.isSteady = true ∧ areSteady vs = true := by simpa [areSteady] using h
    exact List.forall_mem_cons.mpr ⟨canBeTold v hv, canBeToldEach vs hvs⟩

/-- The values of steady fields can be told from others. -/
theorem canBeToldFields : ∀ fs : List (String × Value), fieldsAreSteady fs = true →
    ∀ f ∈ fs, CanBeTold f.2
  | [], _ => nofun
  | (_, v) :: fs, h => by
    obtain ⟨hv, hfs⟩ : v.isSteady = true ∧ fieldsAreSteady fs = true := by
      simpa [fieldsAreSteady] using h
    exact List.forall_mem_cons.mpr ⟨canBeTold v hv, canBeToldFields fs hfs⟩

end

/-- Whether two steady values are equal can be told. -/
theorem exists_same? (hv : v.isSteady = true) (hw : w.isSteady = true) : ∃ b, same? v w = some b :=
  canBeTold v hv w hw

end Quarry.Value
