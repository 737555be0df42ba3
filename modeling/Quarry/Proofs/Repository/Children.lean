import Quarry.Proofs.Outcome
import Quarry.Repository.Mapper

/-!
# The children of one parent

When a parent has children for several relations, the join repeats each of them: there is a row for
every choice of one child for each relation. Adding the children row by row, each unless it is
there, gives every list back, in its order.

The choices are nested as the loops are. While the first relation's child stays the same, the other
lists are filled from the first block of rows; the later blocks bring nothing new for them.
-/

set_option autoImplicit false

namespace Quarry.Mapper

/-! ## Adding what rows bring -/

/-- The children with the one that a row brings, if it brings one. -/
def accept (choice : Option Record) (children : List Value) : Except Error (List Value) :=
  match choice with
  | none => .ok children
  | some child => addChild child children

/-- The children for each relation with those that a row brings. -/
def acceptEach : List (Option Record) → List (List Value) → Except Error (List (List Value))
  | choice :: row, children :: lists => do
    let grown ← accept choice children
    return grown :: (← acceptEach row lists)
  | _, _ => .ok []

/-- The children for each relation after some rows. -/
def acceptAll (rows : List (List (Option Record))) (lists : List (List Value)) :
    Except Error (List (List Value)) :=
  rows.foldlM (fun lists row => acceptEach row lists) lists

/-- What the rows of a parent bring for one relation, nothing if it has no children. -/
def options (children : List Record) : List (Option Record) :=
  if children.isEmpty then [none] else children.map some

/-- What the rows of a parent bring for each relation, in the order of nested loops. -/
def choices : List (List Record) → List (List (Option Record))
  | [] => [[]]
  | children :: rest => (options children).flatMap fun choice => (choices rest).map (choice :: ·)

/-- Children that equal themselves and no other one. -/
structure Distinct (children : List Record) : Prop where
  different : children.Pairwise fun a b => Value.same? (.record a) (.record b) = some false
  reflexive : ∀ child ∈ children, Value.same? (.record child) (.record child) = some true

variable {child : Record} {choice : Option Record} {children done todo : List Record}
  {lists grown : List (List Value)} {rows : List (List (Option Record))}

/-! ## One list -/

/-- A child that equals none before is looked for behind them. -/
theorem isAmong_append
    (h : ∀ d ∈ done, Value.same? (.record d) (.record child) = some false) (rest : List Value) :
    isAmong child (done.map .record ++ rest) = isAmong child rest := by
  induction done with
  | nil => rfl
  | cons d done ih =>
    obtain ⟨hd, hdone⟩ := List.forall_mem_cons.mp h
    simp [isAmong, hd, ih hdone]

/-- A child is distinct from all before it. -/
theorem Distinct.before (h : Distinct (done ++ child :: todo)) :
    ∀ d ∈ done, Value.same? (.record d) (.record child) = some false := by
  intro d hd
  exact (List.pairwise_append.mp h.different).2.2 d hd child List.mem_cons_self

/-- The first ones of distinct children are distinct. -/
theorem Distinct.of_append (h : Distinct (done ++ todo)) : Distinct done := by
  refine ⟨h.different.sublist (List.sublist_append_left done todo), ?_⟩
  intro child hchild
  exact h.reflexive child (List.mem_append_left todo hchild)

/-- The next of distinct children is accepted. -/
theorem Distinct.accept_next (h : Distinct (done ++ child :: todo)) :
    accept (some child) (done.map .record) = .ok ((done ++ [child]).map .record) := by
  have hamong : isAmong child (done.map .record) = .ok false := by
    simpa [isAmong] using isAmong_append h.before []
  simp [accept, addChild, hamong, pure, Except.pure, bind, Except.bind]

/-- A child that is there is not accepted again. -/
theorem Distinct.accept_again (h : Distinct children) (hchild : child ∈ children) :
    accept (some child) (children.map .record) = .ok (children.map .record) := by
  obtain ⟨done, todo, rfl⟩ := List.append_of_mem hchild
  have hamong : isAmong child ((done ++ child :: todo).map .record) = .ok true := by
    rw [List.map_append, isAmong_append h.before, List.map_cons, isAmong, h.reflexive child hchild]
  rw [accept, addChild, hamong]
  rfl

/-- Accepting one of the choices again changes nothing. -/
theorem Distinct.accept_option (h : Distinct children) (hchoice : choice ∈ options children) :
    accept choice (children.map .record) = .ok (children.map .record) := by
  unfold options at hchoice
  split_ifs at hchoice
  · rw [List.mem_singleton.mp hchoice]
    rfl
  · obtain ⟨child, hchild, rfl⟩ := List.mem_map.mp hchoice
    exact h.accept_again hchild

/-! ## Several lists -/

/-- There is always a choice. -/
theorem choices_ne_nil (children : List (List Record)) : choices children ≠ [] := by
  induction children with
  | nil => simp [choices]
  | cons first rest ih =>
    have hoptions : options first ≠ [] := by
      cases first <;> simp [options]
    obtain ⟨choice, more, hmore⟩ := List.exists_cons_of_ne_nil hoptions
    simp [choices, hmore, ih]

/-- Rows of choices are accepted one after the other. -/
theorem acceptAll_cons (row : List (Option Record)) (rows : List (List (Option Record)))
    (lists : List (List Value)) :
    acceptAll (row :: rows) lists = acceptEach row lists >>= acceptAll rows := List.foldlM_cons

/-- Rows of choices may be accepted in two parts. -/
theorem acceptAll_append (rows more : List (List (Option Record))) (lists : List (List Value)) :
    acceptAll (rows ++ more) lists = acceptAll rows lists >>= acceptAll more := List.foldlM_append

/-- Rows that agree in what they bring for the first relation, when that is there already. -/
theorem acceptAll_map_cons_of_stays {first : List Value} (hstays : accept choice first = .ok first)
    (h : acceptAll rows lists = .ok grown) :
    acceptAll (rows.map (choice :: ·)) (first :: lists) = .ok (first :: grown) := by
  induction rows generalizing lists with
  | nil =>
    obtain rfl := Except.ok.inj h
    rfl
  | cons row rows ih =>
    rw [acceptAll_cons] at h
    obtain ⟨next, hnext, hrest⟩ := bind_eq_ok.mp h
    rw [List.map_cons, acceptAll_cons]
    refine bind_eq_ok.mpr ⟨first :: next, ?_, ih hrest⟩
    simp [acceptEach, hstays, hnext]

/-- Rows that agree in what they bring for the first relation: the first of them brings it, the
others bring it again. -/
theorem acceptAll_map_cons {first after : List Value} (hrows : rows ≠ [])
    (hfirst : accept choice first = .ok after) (hstays : accept choice after = .ok after)
    (h : acceptAll rows lists = .ok grown) :
    acceptAll (rows.map (choice :: ·)) (first :: lists) = .ok (after :: grown) := by
  obtain ⟨row, rest, rfl⟩ := List.exists_cons_of_ne_nil hrows
  rw [acceptAll_cons] at h
  obtain ⟨next, hnext, hrest⟩ := bind_eq_ok.mp h
  rw [List.map_cons, acceptAll_cons]
  refine bind_eq_ok.mpr ⟨after :: next, ?_, acceptAll_map_cons_of_stays hstays hrest⟩
  simp [acceptEach, hfirst, hnext]

/-- What the rows of a parent bring is nothing new when all lists are complete. -/
theorem acceptAll_choices_again {lists : List (List Record)} (h : ∀ l ∈ lists, Distinct l) :
    acceptAll (choices lists) (lists.map (·.map .record)) = .ok (lists.map (·.map .record)) := by
  induction lists with
  | nil => rfl
  | cons first rest ih =>
    obtain ⟨hfirst, hrest⟩ := List.forall_mem_cons.mp h
    have hblock (choice : Option Record) (hchoice : choice ∈ options first) :=
      acceptAll_map_cons_of_stays (hfirst.accept_option hchoice) (ih hrest)
    unfold choices
    -- No block changes anything, so it does not matter which choices the blocks are for.
    generalize options first = blocks at hblock ⊢
    induction blocks with
    | nil => rfl
    | cons choice blocks ihblocks =>
      obtain ⟨hchoice, hblocks⟩ := List.forall_mem_cons.mp hblock
      rw [List.flatMap_cons, acceptAll_append]
      exact bind_eq_ok.mpr ⟨_, hchoice, ihblocks hblocks⟩

/-- The blocks of the children that are still to come, when the other lists are complete. -/
theorem acceptAll_blocks (hrows : rows ≠ []) (hgrown : acceptAll rows grown = .ok grown)
    (h : Distinct (done ++ todo)) :
    acceptAll ((todo.map some).flatMap fun choice => rows.map (choice :: ·))
      (done.map .record :: grown) = .ok ((done ++ todo).map .record :: grown) := by
  -- Each block moves one child from `todo` to `done`.
  induction todo generalizing done with
  | nil => simp [acceptAll, pure, Except.pure]
  | cons child todo ih =>
    have hsplit : done ++ child :: todo = (done ++ [child]) ++ todo := by simp
    have hnext := h.accept_next
    rw [hsplit] at h ⊢
    have hstays := h.of_append.accept_again (List.mem_append_right done List.mem_cons_self)
    have hblock := acceptAll_map_cons hrows hnext hstays hgrown
    rw [List.map_cons, List.flatMap_cons, acceptAll_append]
    exact bind_eq_ok.mpr ⟨_, hblock, ih h⟩

/-- The rows of a parent bring all its children, in the order of each list. -/
theorem acceptAll_choices {lists : List (List Record)} (h : ∀ l ∈ lists, Distinct l) :
    acceptAll (choices lists) (lists.map fun _ => []) = .ok (lists.map (·.map .record)) := by
  induction lists with
  | nil => rfl
  | cons first rest ih =>
    obtain ⟨hfirst, hrest⟩ := List.forall_mem_cons.mp h
    have hrows := choices_ne_nil rest
    cases first with
    | nil =>
      have hnone : accept none [] = .ok [] := rfl
      simpa [choices, options] using acceptAll_map_cons hrows hnone hnone (ih hrest)
    | cons child todo =>
      -- The first block completes the other lists, so that only the first list grows afterwards.
      have hnext := @Distinct.accept_next child [] todo hfirst
      have hstays := (@Distinct.of_append [child] todo hfirst).accept_again List.mem_cons_self
      have hblock := acceptAll_map_cons hrows hnext hstays (ih hrest)
      have hblocks := @acceptAll_blocks [child] _ _ _ hrows (acceptAll_choices_again hrest) hfirst
      have hoptions : options (child :: todo) = some child :: todo.map some := rfl
      rw [choices, hoptions, List.flatMap_cons, acceptAll_append]
      exact bind_eq_ok.mpr ⟨_, hblock, hblocks⟩

end Quarry.Mapper
