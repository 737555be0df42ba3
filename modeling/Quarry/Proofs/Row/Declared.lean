import Quarry.Proofs.Outcome
import Quarry.Repository.Basic

/-!
# What a codec is made from

The keys of a codec must be texts, and no two of them may be the same. Nothing else is asked of
them: in particular nobody looks at their columns.
-/

set_option autoImplicit false

namespace Quarry

namespace Value

/-- There are at most as many distinct values as values. -/
theorem length_distinctFrom_le (seen vs : List Value) : (distinctFrom seen vs).length ≤ vs.length := by
  induction vs generalizing seen with
  | nil => exact Nat.le_refl 0
  | cons v vs ih =>
    rw [distinctFrom]
    split_ifs
    · have hrest := ih seen
      rw [List.length_cons]
      omega
    · have hrest := ih (seen ++ [v])
      rw [List.length_cons, List.length_cons]
      omega

/-- Texts are the same exactly if they are equal. -/
theorem same_text (a b : String) : same (.text a) (.text b) = (a == b) := by
  cases h : a == b <;> simp [same, same?, h]

/-- Texts are kept as many as they are when no two of them are the same. -/
theorem length_distinctFrom_eq_iff (seen names : List String) :
    (distinctFrom (seen.map .text) (names.map .text)).length = names.length ↔
      names.Nodup ∧ ∀ name ∈ names, name ∉ seen := by
  induction names generalizing seen with
  | nil => simp [distinctFrom]
  | cons name rest ih =>
    have hany : ((seen.map Value.text).any fun w => same w (.text name)) = decide (name ∈ seen) := by
      rw [List.any_map, Bool.eq_iff_iff, List.any_eq_true, decide_eq_true_iff]
      simp [same_text]
    have hseen : seen.map Value.text ++ [.text name] = (seen ++ [name]).map .text := by simp
    rw [List.map_cons, distinctFrom, hany]
    by_cases hmem : name ∈ seen
    · have hshort := length_distinctFrom_le (seen.map .text) (rest.map .text)
      rw [List.length_map] at hshort
      rw [if_pos (decide_eq_true hmem)]
      constructor
      · intro heq
        rw [List.length_cons] at heq
        omega
      · intro hall
        exact absurd hmem (hall.2 name List.mem_cons_self)
    · rw [if_neg (by simpa using hmem), hseen, List.length_cons, List.length_cons, Nat.succ_inj, ih]
      simp only [List.nodup_cons, List.forall_mem_cons, List.mem_append, List.mem_singleton, not_or]
      constructor
      · intro ⟨hnodup, hrest⟩
        have hnot : name ∉ rest := fun h => (hrest name h).2 rfl
        exact ⟨⟨hnot, hnodup⟩, hmem, fun other h => (hrest other h).1⟩
      · rintro ⟨⟨hnot, hnodup⟩, -, hrest⟩
        refine ⟨hnodup, fun other h => ⟨hrest other h, ?_⟩⟩
        rintro rfl
        exact hnot h

/-- Texts are fixed. -/
theorem areFixed_texts (names : List String) : areFixed (names.map .text) = true := by
  induction names with
  | nil => rfl
  | cons name rest ih =>
    rw [List.map_cons, areFixed, ih]
    rfl

end Value

namespace Codec

variable {c : Codec}

/-- Values that are all texts are those of their names. -/
theorem eq_texts_of_mapM_asText {vs : List Value} {names : List String}
    (h : vs.mapM Value.asText = .ok names) : vs = names.map .text := by
  have hall := mapM_eq_ok_iff.mp h
  clear h
  induction hall with
  | nil => rfl
  | @cons v name vs names hfirst _ ih =>
    cases v with
    | text s => rw [List.map_cons, ← ih, Except.ok.inj hfirst]
    | _ => simp [Value.asText, misfit] at hfirst

/-- Texts are read as their names. -/
theorem mapM_asText (names : List String) : (names.map Value.text).mapM Value.asText = .ok names := by
  induction names with
  | nil => rfl
  | cons name rest ih =>
    rw [List.map_cons, List.mapM_cons, ih]
    rfl

/-- Keys are read exactly if they are different texts. -/
theorem readKeys_eq_ok_iff {vs : List Value} {names : List String} :
    readKeys vs = .ok names ↔ vs = names.map .text ∧ names.Nodup := by
  constructor
  · intro h
    unfold readKeys at h
    cases hdistinct : Value.dedupe? vs with
    | none => simp [hdistinct, misfit] at h
    | some distinct =>
      rw [hdistinct] at h
      dsimp only at h
      split_ifs at h with hlength
      · obtain rfl := eq_texts_of_mapM_asText h
        rw [Value.dedupe?, Value.areFixed_texts, if_pos rfl] at hdistinct
        rw [← Option.some.inj hdistinct, List.length_map] at hlength
        exact ⟨rfl, ((Value.length_distinctFrom_eq_iff [] names).mp hlength).1⟩
      · simp [refuse] at h
  · intro ⟨hvs, hnodup⟩
    have hlength : (Value.distinctFrom [] (names.map .text)).length = names.length :=
      (Value.length_distinctFrom_eq_iff [] names).mpr ⟨hnodup, fun _ _ => List.not_mem_nil⟩
    rw [hvs, readKeys, Value.dedupe?, Value.areFixed_texts, if_pos rfl]
    dsimp only
    rw [if_pos (by rw [hlength, List.length_map]), mapM_asText]

/-- A codec that is made has the keys and the settings that were given. -/
theorem of_make {keys : List Value} {autoSet kinds : Value} {utc parseJson : Bool}
    (h : make keys autoSet kinds utc parseJson = .ok c) :
    keys = c.keys.map .text ∧ c.keys.Nodup ∧ c.utc = utc ∧ c.parseJson = parseJson := by
  obtain ⟨names, hnames, hassigned⟩ := bind_eq_ok.mp h
  obtain ⟨items, -, hassigned⟩ := bind_eq_ok.mp hassigned
  obtain ⟨assigned, -, hfields⟩ := bind_eq_ok.mp hassigned
  obtain ⟨fields, -, hdeclared⟩ := bind_eq_ok.mp hfields
  obtain ⟨declared, -, rfl⟩ := functor_map_eq_ok.mp hdeclared
  obtain ⟨hkeys, hnodup⟩ := readKeys_eq_ok_iff.mp hnames
  exact ⟨hkeys, hnodup, rfl, rfl⟩

/-- A codec of texts that are all different, with nothing else declared. -/
theorem make_plain (names : List String) (h : names.Nodup) (utc parseJson : Bool) :
    make (names.map .text) (.tuple []) .null utc parseJson = .ok ⟨names, [], [], utc, parseJson⟩ := by
  rw [make, readKeys_eq_ok_iff.mpr ⟨rfl, h⟩]
  rfl

/-- A codec that is made without kinds has none. -/
theorem eq_of_make_plain {keys : List Value} {utc parseJson : Bool}
    (h : make keys (.tuple []) .null utc parseJson = .ok c) : c = ⟨c.keys, [], [], utc, parseJson⟩ := by
  obtain ⟨hkeys, hnodup, -, -⟩ := of_make h
  have hplain := make_plain c.keys hnodup utc parseJson
  rw [← hkeys, h] at hplain
  exact Except.ok.inj hplain

end Codec

/-- The codec of a repository has distinct keys and the settings of the database. -/
theorem Repository.of_ofDeclaration {settings : Settings} {declaration : Declaration}
    {repository : Repository} (h : ofDeclaration settings declaration = .ok repository) :
    repository.codec.keys.Nodup ∧ repository.codec.utc = settings.utcDates.isTrue ∧
      repository.codec.parseJson = settings.parseJson.isTrue := by
  obtain ⟨outline, -, houtlined⟩ := bind_eq_ok.mp h
  obtain ⟨codec, hcodec, rfl⟩ := functor_map_eq_ok.mp houtlined
  obtain ⟨-, hkeys, hutc, hparse⟩ := Codec.of_make hcodec
  exact ⟨hkeys, hutc, hparse⟩

end Quarry
