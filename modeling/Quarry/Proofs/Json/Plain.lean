import Quarry.Json.Value
import Quarry.Proofs.Json.Reading
import Quarry.Proofs.Json.Texts
import Quarry.Proofs.Number.Digits

/-!
# Plain JSON values

A value is plain when JSON text keeps all of it: it has no binary64 number, its integers do not have
too many digits, the names of its objects are distinct, and its containers do not stand inside of
each other to too great a depth. Whatever is read from JSON text is plain unless it has a binary64
number.
-/

set_option autoImplicit false

namespace Quarry

namespace Json

/-- A value that JSON text keeps, with room for a number of containers inside of each other. -/
inductive Plain {τ : Type} : Nat → Json τ → Prop
  | null {room : Nat} : Plain room .null
  | bool {room : Nat} (b : Bool) : Plain room (.bool b)
  | int {room : Nat} {n : Int} (hshort : Number.digitCount n.natAbs ≤ Number.maxDigits) :
    Plain room (.int n)
  | text {room : Nat} (t : τ) : Plain room (.text t)
  | array {room : Nat} {items : List (Json τ)} (hitems : ∀ v ∈ items, Plain room v) :
    Plain (room + 1) (.array items)
  | object {room : Nat} {fields : List (τ × Json τ)} (hnames : (fields.map (·.1)).Nodup)
    (hfields : ∀ f ∈ fields, Plain room f.2) : Plain (room + 1) (.object fields)

/-! ## Binary64 numbers -/

section Reals

variable {τ : Type}

mutual

/-- Whether a binary64 number is in the value. -/
def holdsReal : Json τ → Bool
  | .real _ => true
  | .array items => itemsHoldReal items
  | .object fields => fieldsHoldReal fields
  | _ => false

/-- Whether a binary64 number is in items. -/
def itemsHoldReal : List (Json τ) → Bool
  | [] => false
  | v :: vs => holdsReal v || itemsHoldReal vs

/-- Whether a binary64 number is in the values of fields. -/
def fieldsHoldReal : List (τ × Json τ) → Bool
  | [] => false
  | (_, v) :: rest => holdsReal v || fieldsHoldReal rest

end

/-- Items hold no number if none of them does. -/
theorem itemsHoldReal_eq_false_iff {items : List (Json τ)} :
    itemsHoldReal items = false ↔ ∀ v ∈ items, v.holdsReal = false := by
  induction items with
  | nil => simp [itemsHoldReal]
  | cons v vs ih => simp [itemsHoldReal, ih]

/-- Fields hold no number if none of their values does. -/
theorem fieldsHoldReal_eq_false_iff {fields : List (τ × Json τ)} :
    fieldsHoldReal fields = false ↔ ∀ f ∈ fields, f.2.holdsReal = false := by
  induction fields with
  | nil => simp [fieldsHoldReal]
  | cons f fs ih => simp [fieldsHoldReal, ih]

mutual

/-- Other texts bring no binary64 number and take none away. -/
theorem holdsReal_map {σ : Type} (f : τ → σ) : ∀ j : Json τ, (map f j).holdsReal = j.holdsReal
  | .null | .bool _ | .int _ | .real _ | .text _ => rfl
  | .array items => itemsHoldReal_mapItems f items
  | .object fields => fieldsHoldReal_mapFields f fields

/-- Changed texts leave the numbers of items. -/
theorem itemsHoldReal_mapItems {σ : Type} (f : τ → σ) :
    ∀ items : List (Json τ), itemsHoldReal (mapItems f items) = itemsHoldReal items
  | [] => rfl
  | v :: vs => by rw [mapItems, itemsHoldReal, itemsHoldReal, holdsReal_map f v, itemsHoldReal_mapItems f vs]

/-- Changed texts leave the numbers of fields. -/
theorem fieldsHoldReal_mapFields {σ : Type} (f : τ → σ) :
    ∀ fields : List (τ × Json τ), fieldsHoldReal (mapFields f fields) = fieldsHoldReal fields
  | [] => rfl
  | (_, v) :: fs => by
    rw [mapFields, fieldsHoldReal, fieldsHoldReal, holdsReal_map f v, fieldsHoldReal_mapFields f fs]

end

/-- A plain value has no binary64 number. -/
theorem Plain.holdsReal {room : Nat} {j : Json τ} (h : Plain room j) : j.holdsReal = false := by
  induction h with
  | array _ ih => exact itemsHoldReal_eq_false_iff.mpr ih
  | object _ _ ih => exact fieldsHoldReal_eq_false_iff.mpr ih
  | _ => rfl

end Reals

end Json

namespace Value

mutual

/-- Whether a binary64 number is in the value. -/
def holdsReal : Value → Bool
  | .real _ => true
  | .list items => itemsHoldReal items
  | .tuple items => itemsHoldReal items
  | .set items => itemsHoldReal items
  | .record fields => fieldsHoldReal fields
  | _ => false

/-- Whether a binary64 number is in items. -/
def itemsHoldReal : List Value → Bool
  | [] => false
  | v :: vs => holdsReal v || itemsHoldReal vs

/-- Whether a binary64 number is in the values of fields. -/
def fieldsHoldReal : List (String × Value) → Bool
  | [] => false
  | (_, v) :: rest => holdsReal v || fieldsHoldReal rest

end

end Value

namespace Json

mutual

/-- What a value denotes has the binary64 numbers of the value. -/
theorem holdsReal_toValue : ∀ j : Json String, j.toValue.holdsReal = j.holdsReal
  | .null | .bool _ | .int _ | .real _ | .text _ => rfl
  | .array items => itemsHoldReal_toValues items
  | .object fields => fieldsHoldReal_toFields fields

/-- Items hold a number if their documents do. -/
theorem itemsHoldReal_toValues :
    ∀ items : List (Json String), Value.itemsHoldReal (toValues items) = itemsHoldReal items
  | [] => rfl
  | v :: vs => by
    rw [toValues, Value.itemsHoldReal, itemsHoldReal, holdsReal_toValue v, itemsHoldReal_toValues vs]

/-- Fields hold a number if their documents do. -/
theorem fieldsHoldReal_toFields :
    ∀ fields : List (String × Json String), Value.fieldsHoldReal (toFields fields) = fieldsHoldReal fields
  | [] => rfl
  | (_, v) :: fs => by
    rw [toFields, Value.fieldsHoldReal, fieldsHoldReal, holdsReal_toValue v, fieldsHoldReal_toFields fs]

end

/-! ## Texts of characters -/

/-- The tree of a plain document is plain. -/
theorem Plain.tree {room : Nat} {j : Json String} (h : Plain room j) : Plain room j.tree := by
  induction h with
  | null => exact .null
  | bool b => exact .bool b
  | int hshort => exact .int hshort
  | text s => exact .text _
  | @array room items _ ih =>
    rw [tree_array]
    exact .array (List.forall_mem_map.mpr ih)
  | @object room fields hnames _ ih =>
    rw [tree_object]
    refine .object ?_ (List.forall_mem_map.mpr ih)
    have hinjective : Function.Injective fun s : String => glyphs s.toList :=
      fun _ _ h => String.toList_injective (glyphs_injective h)
    have hnames' := hnames.map hinjective
    rw [List.map_map] at hnames' ⊢
    exact hnames'

/-- A document whose tree is plain is plain. -/
theorem Plain.of_tree {room : Nat} {t : Tree} (h : Plain room t) :
    ∀ {j : Json String}, t = j.tree → Plain room j := by
  -- In each case the value has the form of its tree.
  induction h with
  | null =>
    intro j hj
    cases j with
    | null => exact .null
    | _ => simp at hj
  | bool b =>
    intro j hj
    cases j with
    | bool b => exact .bool b
    | _ => simp at hj
  | int hshort =>
    intro j hj
    cases j with
    | int n =>
      obtain rfl := Json.int.inj hj
      exact .int hshort
    | _ => simp at hj
  | text t =>
    intro j hj
    cases j with
    | text s => exact .text s
    | _ => simp at hj
  | array _ ih =>
    intro j hj
    cases j with
    | array items =>
      obtain rfl := Json.array.inj (hj.trans (tree_array items))
      exact .array fun v hv => ih _ (List.mem_map_of_mem hv) rfl
    | _ => simp at hj
  | object hnames _ ih =>
    intro j hj
    cases j with
    | object fields =>
      obtain rfl := Json.object.inj (hj.trans (tree_object fields))
      refine .object (.of_map (fun s => glyphs s.toList) ?_) fun f hf => ih _ (List.mem_map_of_mem hf) rfl
      rwa [List.map_map] at hnames ⊢
    | _ => simp at hj

/-! ## Reading -/

/-- What is taken as digits is digits. -/
theorem takeDigits_spec (gs : List Glyph) :
    ∀ c ∈ (takeDigits gs).1, Text.isAsciiDigit c = true := by
  induction gs with
  | nil => nofun
  | cons g gs ih =>
    cases g with
    | half n => nofun
    | char c =>
      unfold takeDigits
      split_ifs with hc
      · exact List.forall_mem_cons.mpr ⟨hc, ih⟩
      · nofun

/-- A whole number has digits, and nothing else. -/
theorem takeWhole?_spec {gs rest : List Glyph} {ds : List Char}
    (h : takeWhole? gs = some (ds, rest)) :
    ds ≠ [] ∧ ∀ c ∈ ds, Text.isAsciiDigit c = true := by
  unfold takeWhole? at h
  split at h
  · obtain ⟨rfl, -⟩ := Prod.mk.inj (Option.some.inj h)
    exact ⟨nofun, List.forall_mem_singleton.mpr rfl⟩
  · have hdigits := takeDigits_spec gs
    dsimp only at h
    split_ifs at h with hempty
    obtain ⟨rfl, -⟩ := Prod.mk.inj (Option.some.inj h)
    exact ⟨by simpa using hempty, hdigits⟩

/-- What is read of a number is plain if it is an integer. -/
theorem plain_readNumber? {room : Nat} {negative : Bool} {gs rest : List Glyph} {j : Tree}
    (h : readNumber? negative gs = some (j, rest)) (hreal : j.holdsReal = false) :
    Plain room j := by
  obtain ⟨⟨whole, behind⟩, hwhole, hnumber⟩ := Option.bind_eq_some_iff.mp h
  dsimp only at hnumber
  split_ifs at hnumber with hexact hlong
  · obtain ⟨rfl, -⟩ := Prod.mk.inj (Option.some.inj hnumber)
    obtain ⟨hne, hdigits⟩ := takeWhole?_spec hwhole
    have hsize : (Number.Exact.signedNum negative (Text.asciiNat whole)).natAbs =
        Text.asciiNat whole := by
      cases negative <;> simp [Number.Exact.signedNum]
    have hfew := Number.digitCount_asciiNat_le hne hdigits
    refine .int ?_
    rw [hsize]
    omega
  · obtain ⟨rfl, -⟩ := Prod.mk.inj (Option.some.inj hnumber)
    simp [holdsReal] at hreal

/-- A scalar without a binary64 number is plain. -/
theorem plain_readScalar? {room : Nat} {gs rest : List Glyph} {j : Tree}
    (h : readScalar? gs = some (j, rest)) (hreal : j.holdsReal = false) : Plain room j := by
  have hword (w : List Char) (v : Tree) (hv : v.holdsReal = false → Plain room v)
      (hread : (takeWord? w gs).map (v, ·) = some (j, rest)) : Plain room j := by
    obtain ⟨behind, -, heq⟩ := Option.map_eq_some_iff.mp hread
    obtain ⟨rfl, -⟩ := Prod.mk.inj heq
    exact hv hreal
  have hconstant (x : Number.Binary64) : (Json.real x : Tree).holdsReal = false →
      Plain room (Json.real x : Tree) := by simp [holdsReal]
  unfold readScalar? at h
  split at h
  · exact hword _ _ (fun _ => .null) h
  · exact hword _ _ (fun _ => .bool true) h
  · exact hword _ _ (fun _ => .bool false) h
  · exact hword _ _ (hconstant _) h
  · exact hword _ _ (hconstant _) h
  · exact hword _ _ (hconstant _) h
  · exact plain_readNumber? h hreal
  · exact plain_readNumber? h hreal

/-- What is read without a binary64 number is plain. -/
theorem readable_plain : Readable fun room j => j.holdsReal = false → Plain room j where
  text _ t _ := .text t
  scalar := plain_readScalar?
  array h hreal := .array fun v hv => h v hv (itemsHoldReal_eq_false_iff.mp hreal v hv)
  object hnames h hreal := .object hnames fun f hf => h f hf (fieldsHoldReal_eq_false_iff.mp hreal f hf)

/-- What is read from JSON text is plain unless it has a binary64 number. -/
theorem plain_read [Limits] {gs : List Glyph} {j : Tree} (h : read gs = .ok j) (hreal : j.holdsReal = false) :
    Plain Limits.depth j := readable_plain.of_read h hreal

end Json

end Quarry
