import Quarry.Proofs.Json.Recognized
import Quarry.Proofs.Json.Scalar

/-!
# JSON text read back

The text that is written for a plain value is JSON text of the value, and so it is read as this
value. The induction is on how the value is made up: what is written for the items of an array, or
for the fields of an object, are its members and the bracket that closes it.
-/

set_option autoImplicit false

namespace Quarry.Json

variable {room fuel : Nat}

/-! ## Containers -/

/-- Nothing is space. -/
theorem isSpacing_nil : IsSpacing [] := nofun

/-- A blank is space. -/
theorem isSpacing_space : IsSpacing [.char ' '] := List.forall_mem_singleton.mpr rfl

section Fields

variable {τ α : Type} [DecidableEq τ]

/-- A field with a new name comes behind the others. -/
theorem setField_append {name : τ} {front : List (τ × α)} (h : name ∉ front.map (·.1)) (v : α) :
    setField name v front = front ++ [(name, v)] := by
  induction front with
  | nil => rfl
  | cons f front ih =>
    obtain ⟨hne, hfront⟩ : name ≠ f.1 ∧ name ∉ front.map (·.1) := by simpa using h
    simp [setField, Ne.symm hne, ih hfront]

/-- Of fields with distinct names all are kept. -/
theorem keepLast_of_nodup {fields : List (τ × α)} (h : (fields.map (·.1)).Nodup) :
    keepLast fields = fields := by
  unfold keepLast
  induction fields using List.reverseRecOn with
  | nil => rfl
  | append_singleton front f ih =>
    rw [List.map_append, List.nodup_append] at h
    have hnew : f.1 ∉ front.map (·.1) := fun hmem => h.2.2 _ hmem _ (by simp) rfl
    rw [List.foldl_append, ih h.1]
    exact setField_append hnew f.2

end Fields

/-- What is written for items are the members of an array and its bracket. -/
theorem exists_itemsText {v : Tree} {vs : List Tree} (h : ∀ w ∈ v :: vs, ValueText room (write w) w) :
    ∃ front, MembersText false room front ((v :: vs).map ([], ·)) ∧
      write v ++ writeItems vs = front ++ [closing false] := by
  induction vs generalizing v with
  | nil =>
    refine ⟨_, .last (.item isSpacing_nil) (h v List.mem_cons_self) isSpacing_nil, ?_⟩
    simp [writeItems, closing]
  | cons w ws ih =>
    obtain ⟨hv, hws⟩ := List.forall_mem_cons.mp h
    obtain ⟨later, hlater, htext⟩ := ih hws
    refine ⟨_, .more (.item isSpacing_nil) hv isSpacing_nil (hlater.pad isSpacing_space), ?_⟩
    simp [writeItems, htext]

/-- What is written in front of the value of a field leads to it. -/
theorem leadText_quote (k : List Glyph) : LeadText true (quote k ++ [.char ':', .char ' ']) k := by
  have hlead := LeadText.field isSpacing_nil (quotedText_quote k) isSpacing_nil isSpacing_space
  simpa using hlead

/-- What is written for fields are the members of an object and its brace. -/
theorem exists_fieldsText {k : List Glyph} {v : Tree} {fs : List (List Glyph × Tree)}
    (h : ∀ f ∈ (k, v) :: fs, ValueText room (write f.2) f.2) :
    ∃ front, MembersText true room front ((k, v) :: fs) ∧
      quote k ++ .char ':' :: .char ' ' :: (write v ++ writeFields fs) = front ++ [closing true] := by
  induction fs generalizing k v with
  | nil =>
    refine ⟨_, .last (leadText_quote k) (h _ List.mem_cons_self) isSpacing_nil, ?_⟩
    simp [writeFields, closing]
  | cons f fs ih =>
    obtain ⟨l, w⟩ := f
    obtain ⟨hv, hws⟩ := List.forall_mem_cons.mp h
    obtain ⟨later, hlater, htext⟩ := ih hws
    refine ⟨_, .more (leadText_quote k) hv isSpacing_nil (hlater.pad isSpacing_space), ?_⟩
    simp [writeFields, htext]

/-! ## Values -/

/-- An array is written as its text if its items are. -/
theorem valueText_array {items : List Tree} (h : ∀ v ∈ items, ValueText room (write v) v) :
    ValueText (room + 1) (write (.array items)) (.array items) := by
  cases items with
  | nil =>
    rw [write]
    exact .empty false isSpacing_nil
  | cons v vs =>
    obtain ⟨front, hfront, htext⟩ := exists_itemsText h
    have hvalue := ValueText.container hfront
    have hitems : container false ((v :: vs).map ([], ·)) = .array (v :: vs) := by
      simp [container, Function.comp_def]
    rw [hitems] at hvalue
    simpa [write, htext, opening] using hvalue

/-- An object is written as its text if its values are. -/
theorem valueText_object {fields : List (List Glyph × Tree)} (hnames : (fields.map (·.1)).Nodup)
    (h : ∀ f ∈ fields, ValueText room (write f.2) f.2) :
    ValueText (room + 1) (write (.object fields)) (.object fields) := by
  cases fields with
  | nil =>
    rw [write]
    exact .empty true isSpacing_nil
  | cons f fs =>
    obtain ⟨k, v⟩ := f
    obtain ⟨front, hfront, htext⟩ := exists_fieldsText h
    have hvalue := ValueText.container hfront
    rw [container, if_pos rfl, keepLast_of_nodup hnames] at hvalue
    simpa [write, htext, opening] using hvalue

/-- The text that is written for a plain value is JSON text of the value. -/
theorem Plain.valueText {j : Tree} (h : Plain room j) : ValueText room (write j) j := by
  have hname {word : String} {j : Tree} (hnamed : (word, j) ∈ named) {room : Nat} :
      ValueText room (glyphs word.toList) j := .scalar (.name hnamed)
  -- One case for each form of plain values; what is in a container has been written before.
  induction h with
  | null =>
    rw [write]
    exact hname (by simp [named])
  | bool b =>
    cases b with
    | true =>
      rw [write]
      exact hname (by simp [named])
    | false =>
      rw [write]
      exact hname (by simp [named])
  | int hshort =>
    rw [write]
    exact .scalar (scalarText_intChars hshort)
  | text t =>
    rw [write]
    exact .text (quotedText_quote t)
  | array _ ih => exact valueText_array ih
  | object hnames _ ih => exact valueText_object hnames ih

/-! ## Whole texts -/

section

variable [Limits]

/-- The text of a plain value is JSON text of the value. -/
theorem read_write {j : Tree} (h : Plain Limits.depth j) : read (write j) = .ok j :=
  read_eq_ok_iff.mpr ⟨[], _, [], (List.append_nil _).symm, isSpacing_nil, h.valueText, isSpacing_nil⟩

/-- The text of a plain value with texts of characters is JSON text of its tree. -/
theorem read_print {j : Json String} (h : Plain Limits.depth j) :
    read (glyphs j.print.toList) = .ok j.tree := by
  rw [glyphs_print]
  exact read_write h.tree

end

/-- Plain values with one text are the same: a machine with room for both of them reads it as
either. -/
theorem print_injective {j k : Json String} (hj : Plain room j) (hk : Plain room k) (h : j.print = k.print) :
    j = k := by
  let limits : Limits := ⟨room, 0⟩
  have hread : read (glyphs j.print.toList) = .ok j.tree := read_print hj
  have hread' : read (glyphs k.print.toList) = .ok k.tree := read_print hk
  rw [h, hread'] at hread
  exact (tree_injective (Except.ok.inj hread)).symm

/-! ## Depth -/

/-- Arrays inside of each other, each the only item of the next. -/
def nested {τ : Type} : Nat → Json τ
  | 0 => .array []
  | n + 1 => .array [nested n]

/-- Nested arrays are plain if there is room for them. -/
theorem plain_nested {τ : Type} (n : Nat) : Plain (n + 1) (nested n : Json τ) := by
  induction n with
  | zero => exact .array nofun
  | succ n ih => exact .array (List.forall_mem_singleton.mpr ih)

/-- One more array adds a pair of brackets. -/
theorem write_nested_succ (n : Nat) :
    write (nested (n + 1)) = opening false :: (write (nested n) ++ [closing false]) := by
  simp [nested, write, writeItems, opening, closing]

/-- What is written for more arrays inside of each other than there is room for begins like
containers that stand too deep. -/
theorem deepText_nested {n : Nat} (h : room ≤ n) (rest : List Glyph) :
    DeepText room (write (nested n) ++ rest) := by
  induction room generalizing n rest with
  | zero =>
    cases n with
    | zero => exact .here false
    | succ n =>
      rw [write_nested_succ]
      exact .here false
  | succ room ih =>
    obtain ⟨n, rfl⟩ := Nat.exists_eq_add_one.mpr (Nat.zero_lt_of_lt h)
    have hitem := ih (Nat.le_of_succ_le_succ h) (closing false :: rest)
    rw [write_nested_succ, List.cons_append, List.append_assoc]
    have hmembers : DeepMembers false room ([] ++ (write (nested n) ++ closing false :: rest)) :=
      .first (.item isSpacing_nil) hitem
    exact .inside hmembers

/-- More arrays inside of each other than reading allows are not read. -/
theorem read_nested [Limits] {n : Nat} (h : Limits.depth ≤ n) :
    ∃ object, read (write (nested n)) = .error (.tooDeep object) := by
  have hdeep := deepText_nested h []
  rw [List.append_nil] at hdeep
  exact read_tooDeep_iff.mpr ⟨[], _, rfl, isSpacing_nil, hdeep⟩

end Quarry.Json
