import Quarry.Proofs.Repository.Filtered
import Quarry.Proofs.Session.Sequential

/-!
# No statement goes out unfiltered

An update or a delete that would change every row is refused as a whole, and that before anything is
asked of the database.
-/

set_option autoImplicit false

namespace Quarry

open Sql (Filter Statement)

variable {δ : Type}

/-- Updates and deletes never go out unfiltered. If payloads can be encoded and conditions can be
compiled, there is one statement for each change that sets something, or for each condition of a
delete, and it ends in the text of the condition; unless one of these conditions says nothing, where
the request is refused. A request that cannot be built makes no call. -/
theorem Session.never_unfiltered (x : Session δ) (r : Repository) {table : String}
    (htable : Sql.identifier r.table = .ok table) :
    let d := x.database.dialect
    (∀ changes force,
      (∀ change ∈ changes, ∃ row, r.codec.toRow change.2 (!force) true = .ok row) →
      (∀ change ∈ changes, ∃ f, Filter.compile d .null r.codec.utc change.1 [] = .ok f) →
      Filtered (fun change => Restricts d r.codec.utc change.1) (IsUpdate d r table force)
        (fun change => .invalid (.unfilteredUpdate r.table change.1))
        (changes.filter (Update.isEffective r force)) (Update.build d r changes force)) ∧
    (∀ conditions items, conditions.items = .ok items →
      (∀ condition ∈ items, ∃ f, Filter.compile d .null r.codec.utc condition [] = .ok f) →
      Filtered (Restricts d r.codec.utc) (IsDelete d r table)
        (fun condition => .invalid (.unfilteredDelete r.table condition)) items
        (Delete.build d r conditions)) ∧
    ∀ b given s e, b.statements d r = .error e →
      ((x.bulk r given b).runOn s).1 = .error e ∧ (x.database.seenBulk r given b s).1 = .error e ∧
        (x.database.seenBulk r given b s).2.calls = [] := by
  intro d
  refine ⟨?_, ?_, ?_⟩
  · intro changes force hencode hcompile
    exact Update.filtered_build hencode hcompile htable
  · intro conditions items hitems hcompile
    exact Delete.filtered_build hitems hcompile htable
  · intro b given s e hbuild
    obtain ⟨u, hu⟩ := x.database.runOn_bulk_of_error r given hbuild s
    have halike : Alike _ (x.database.transcribed.bulk r given b) (x.database.bulk r given b) :=
      x.database.transcribed_mirrors.bulk b
    have hplain := halike.runOn_plain s []
    rw [Session.bulk_eq, hplain, Database.seenBulk, hu]
    exact ⟨rfl, rfl, rfl⟩

/-- The changes of two single rows, the second of them without a condition that was given. -/
def twoChanges : List (Value × Value) :=
  [(.record [("a", .int 1)], .record [("a", .int 2)]),
    (.record [("a", .unset)], .record [("a", .int 3)])]

/-- The second change is refused, so that the first is not made either. -/
theorem Session.never_unfiltered_unset_condition :
    let refusal : Error := .invalid (.unfilteredUpdate (.text "t") (.record [("a", .unset)]))
    Filtered (fun change => Restricts .sqlite true change.1) (IsUpdate .sqlite singles "t" false)
        (fun change => .invalid (.unfilteredUpdate (.text "t") change.1))
        (twoChanges.filter (Update.isEffective singles false))
        (Update.build .sqlite singles twoChanges false) ∧
      Update.build .sqlite singles twoChanges false = .error refusal ∧
      (inMemory.database.seenBulk singles none (.update twoChanges false) fillingUp).2.calls = [] := by
  intro refusal
  have htable : Sql.identifier singles.table = .ok "t" := rfl
  obtain ⟨hupdate, -, hrefused⟩ := inMemory.never_unfiltered singles htable
  have hencode : ∀ change ∈ twoChanges,
      ∃ row, singles.codec.toRow change.2 (!false) true = .ok row := by
    simp only [twoChanges, List.forall_mem_cons]
    exact ⟨⟨[("a", .int 2)], rfl⟩, ⟨[("a", .int 3)], rfl⟩, by simp⟩
  have hcompile : ∀ change ∈ twoChanges,
      ∃ f, Filter.compile .sqlite .null singles.codec.utc change.1 [] = .ok f := by
    simp only [twoChanges, List.forall_mem_cons]
    exact ⟨⟨_, rfl⟩, ⟨⟨[], []⟩, rfl⟩, by simp⟩
  have hbuild : Update.build .sqlite singles twoChanges false = .error refusal := rfl
  exact ⟨hupdate twoChanges false hencode hcompile, hbuild,
    (hrefused (.update twoChanges false) none fillingUp refusal hbuild).2.2⟩

end Quarry
