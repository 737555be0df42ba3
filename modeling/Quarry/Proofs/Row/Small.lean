import Quarry.Proofs.Database.Columnwise
import Quarry.Proofs.Row.Object

/-!
# Small values

Some rows can be fetched and read whatever the settings and the kinds of their columns are: those
that hold nothing but ones and NULL. A one may become a truth value on the way, and it is never read
as NULL or as an object. Where a statement about all rows fails, such rows show it.
-/

set_option autoImplicit false

namespace Quarry

open Text.Name (toSnake)

variable {δ : Type}

/-- One, or the truth value that it is. -/
def Value.IsOne (v : Value) : Prop := v = .int 1 ∨ v = .bool true

/-- A value that can be read in a column of any kind. -/
def Value.IsSmall (v : Value) : Prop := v = .null ∨ v.IsOne

/-- The number 1 is not NULL. -/
theorem Value.IsOne.ne_null {v : Value} (h : v.IsOne) : v ≠ .null := by
  obtain rfl | rfl := h <;> nofun

/-- The number 1 is decoded to something that is neither NULL nor a record. -/
theorem Codec.exists_decode_one (c : Codec) (column : String) {v : Value} (h : v.IsOne) :
    ∃ w, c.decode column v = .ok w ∧ w ≠ .null ∧ ∀ fields, w ≠ .record fields := by
  unfold decode
  obtain rfl | rfl := h
  · cases c.kindOf? column with
    | none => exact ⟨.int 1, rfl, nofun, nofun⟩
    | some k =>
      cases k with
      | boolean => exact ⟨.bool true, rfl, nofun, nofun⟩
      | _ => exact ⟨.int 1, rfl, nofun, nofun⟩
  · cases c.kindOf? column with
    | none => exact ⟨.bool true, rfl, nofun, nofun⟩
    | some k => cases k <;> exact ⟨.bool true, rfl, nofun, nofun⟩

/-- A small value can be decoded. -/
theorem Codec.exists_decode_small (c : Codec) (column : String) {v : Value} (h : v.IsSmall) :
    ∃ w, c.decode column v = .ok w := by
  obtain rfl | hone := h
  · exact ⟨.null, c.decode_null column⟩
  · obtain ⟨w, hw, -⟩ := c.exists_decode_one column hone
    exact ⟨w, hw⟩

/-- Small values can be read under the columns of any keys. -/
theorem Codec.exists_decodeKeys_small (c : Codec) (start : String) (keys : List String) {row : Record}
    (hsmall : ∀ f ∈ row, f.2.IsSmall) : ∃ object, c.decodeKeys (.record row) start keys = .ok object :=
  exists_decodeKeys fun key _ _ hget =>
    c.exists_decode_small (toSnake key) (hsmall _ (Record.mem_of_get? hget))

namespace Mysql

/-- A flag of a row of ones can be cast, and the row is one of ones still. -/
theorem exists_castFlag_one (row : Record) (column : Column) (h : ∀ f ∈ row, f.2.IsOne) :
    ∃ flagged, castFlag row column = .ok flagged ∧ ∀ f ∈ flagged, f.2.IsOne := by
  cases hget : Record.get? column.name row with
  | none => exact ⟨row, by rw [castFlag, hget], h⟩
  | some v =>
    have hone : v.IsOne := h _ (Record.mem_of_get? hget)
    have hflag : isOne v = .ok true := by obtain rfl | rfl := hone <;> rfl
    refine ⟨row.set column.name (.bool true), ?_, ?_⟩
    · rw [castFlag_of_ne hone.ne_null hget, hflag]
      rfl
    · intro f hf
      obtain hf | hf := Record.mem_set hf
      · exact .inr hf
      · exact h f hf

/-- There are no decimals to cast in a row of ones. -/
theorem castDecimals_one (settings : Settings) {row : Record} (h : ∀ f ∈ row, f.2.IsOne) :
    castDecimals settings row = .ok row := by
  unfold castDecimals
  split_ifs
  · rw [mapM_eq_ok_iff]
    apply List.forall₂_same.mpr
    intro f hf
    have hcast : castDecimal f.2 = .ok f.2 := by obtain hv | hv := h f hf <;> rw [hv] <;> rfl
    rw [hcast]
    rfl
  · rfl

end Mysql

namespace Session

variable {x : Session δ} {columns : List Column} {column : Column} {row : Record}

/-- A row of ones is shaped into a record of ones. -/
theorem exists_shapes_one (x : Session δ) (columns : List Column) (h : ∀ f ∈ row, f.2.IsOne) :
    ∃ record, x.Shapes columns row record ∧ ∀ f ∈ record, f.2.IsOne := by
  unfold Shapes
  cases x.target.engine with
  | sqlite path => exact ⟨row, rfl, h⟩
  | mysql =>
    have hflags : ∃ flagged, Mysql.castFlags x.settings columns row = .ok flagged ∧
        ∀ f ∈ flagged, f.2.IsOne := by
      unfold Mysql.castFlags
      split_ifs
      · exact exists_foldlM_eq_ok Mysql.exists_castFlag_one _ h
      · exact ⟨row, rfl, h⟩
    obtain ⟨flagged, hflagged, hone⟩ := hflags
    refine ⟨flagged, ?_, hone⟩
    dsimp only
    rw [Mysql.normalizeRow_eq, hflagged]
    exact Mysql.castDecimals_one x.settings hone

/-- A one that is fetched by itself is still one. -/
theorem isOne_of_rows {name : String} {v : Value}
    (h : x.rows (.single column (.int 1)) = .ok [[(name, v)]]) : v.IsOne := by
  rw [rows_single_iff] at h
  have hrow : ∀ f ∈ [(column.name, Value.int 1)], f.2.IsOne := List.forall_mem_singleton.mpr (.inl rfl)
  obtain ⟨record, hrecord, hone⟩ := exists_shapes_one x [column] hrow
  rw [hrecord.unique h] at hone
  exact hone _ List.mem_cons_self

end Session

end Quarry
